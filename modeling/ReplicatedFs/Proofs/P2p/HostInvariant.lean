import ReplicatedFs.Proofs.P2p.HostStep

/-!
# `ReplicatedFs.Proofs.P2p.HostInvariant`: what holds of a host in every state

These invariants hold for any messages, in any order, from any senders. They tie the program
counter of each goroutine to the messages that its transaction holds.

* `TaskInv`: one task. `listen` is at most one message ahead of the reader (`pending`). The
  stored responses are those of the messages (`responses`). The requests that
  `handleTransaction` has taken are those it voted on, with the one it works on (`Point`).
* `HostInv`: the whole host. A transaction is in the map exactly as long as its reader has
  not deleted it (`table`).
* `HostInv.step`: every step keeps it.
-/

set_option autoImplicit false

namespace ReplicatedFs.P2p

open ReplicatedFs.Protobuf
open Library

/-- The requests among the messages, in order. -/
def requestsOf (ms : List Message) : List Request := ms.filterMap Message.getRequest

/-- The responses among the messages, in order. -/
def responsesOf (ms : List Message) : List Response := ms.filterMap Message.getResponse

/-- No message is a `NACK`. -/
def NoNack (ms : List Message) : Prop := ∀ r ∈ responsesOf ms, r.type ≠ .nack

/-- The messages the reader has taken. -/
def Task.seen (t : Task) : List Message := t.inbox.take t.taken

/-- `ourResponse` of `handleTransaction`: the type of its last vote, or the zero value. -/
def lastVote (ballots : List Ballot) : ResponseType :=
  (ballots.getLast?.map fun b => b.response.type).getD .ack

/-- The request that `handleTransaction` has taken and not voted on yet. -/
def HandlePc.inProgress : HandlePc → List Request
  | .consult _ request => [request]
  | .detect _ request _ => [request]
  | .respond _ ballot => [ballot.request]
  | _ => []

/-- What `handleTransaction` has checked when it calls `Mirror.Mirror`. The argument is the
last request of some prefix of the messages that holds all it has taken. -/
def Decided (n : Nat) (t : Task) (request : Option Request) : Prop :=
  t.taken = n ∧ lastVote t.ballots = .ack ∧ NoNack t.seen ∧
    ∃ ms, t.seen <+: ms ∧ ms <+: t.inbox ∧ request = (requestsOf ms).getLast?

/-- What `Replicate` has seen when it returns the result. -/
def ReplicateResult (n : Nat) (t : Task) : Option ReplicateError → Prop
  | none => t.taken = n ∧ NoNack t.seen
  | some .transactionConflict => t.taken = 0
  | some (.refused _) => t.taken = 0
  | some .notPermitted => t.taken = n ∧ ¬ NoNack t.inbox
  | some _ => True

/-- What `handleTransaction` has seen when it ends with the result. -/
def HandleOutcome (n : Nat) (t : Task) : HandleResult → Prop
  | .context _ => t.taken < n
  | .notPermitted => t.taken = n ∧ (lastVote t.ballots ≠ .ack ∨ ¬ NoNack t.inbox)
  | .mirrored request _ => Decided n t (some request)

/-- The facts that hold at a point of `Replicate`, for a host with the name and with `n`
peers. -/
def ReplicatePoint (name : PeerName) (n : Nat) (t : Task) : ReplicatePc → Prop
  | .check message | .broadcast message =>
    t.taken = 0 ∧ ∃ r, message = newRequestMessage t.trans.tid name r ∧
      (requestsOf t.inbox = [] → t.trans.request = some r)
  | .collect expected failed =>
    t.taken ≤ expected ∧ (failed = [] → expected = n) ∧ (failed ≠ [] → 0 < expected)
  | .leave result | .returned result => ReplicateResult n t result

/-- The facts that hold at a point of `handleTransaction`. -/
def HandlePoint (n : Nat) (t : Task) : HandlePc → Prop
  | .await our => our = lastVote t.ballots
  | .consult msg request => msg ∈ t.inbox ∧ msg.getRequest = some request
  | .detect msg request verdict =>
    msg ∈ t.inbox ∧ msg.getRequest = some request ∧ verdict.type = .ack
  | .respond msg ballot => msg ∈ t.inbox ∧ msg.getRequest = some ballot.request
  | .mirror request => Decided n t request
  | .leave result | .ended result => HandleOutcome n t result

/-- Where the request of the transaction comes from, at a `Replicate` call and at a handler. -/
def Origin (name : PeerName) (t : Task) : Goroutine → Prop
  | .replicate _ => requestsOf t.inbox = [] →
      t.trans.initiatorName = name ∧ t.trans.request.isSome
  | .handle _ => t.trans.request = (requestsOf t.inbox).getLast? ∧
      ∀ r, t.trans.request = some r →
        ∃ m ∈ t.inbox, m.getRequest = some r ∧ m.peerName = t.trans.initiatorName

/-- The facts that hold at a point of the reader. -/
def Point (name : PeerName) (n : Nat) (t : Task) : Goroutine → Prop
  | .replicate pc => t.ballots = [] ∧ ReplicatePoint name n t pc
  | .handle pc => t.taken ≤ n ∧
      requestsOf t.seen = t.ballots.map Ballot.request ++ pc.inProgress ∧ HandlePoint n t pc

/-- The invariant of a task. `blocked` says that `listen` waits for its reader. -/
structure TaskInv (name : PeerName) (n : Nat) (blocked : Bool) (t : Task) : Prop where
  pending : t.inbox.length = t.taken + blocked.toNat
  tids : ∀ m ∈ t.inbox, m.tid = t.trans.tid
  responses : t.trans.responses = responsesOf t.inbox
  origin : Origin name t t.goroutine
  point : Point name n t t.goroutine

/-- `listen` waits for the reader of the task at `i`. -/
def Host.blocks (h : Host) (i : Nat) : Bool := h.listen.any fun p => p.1 = i

/-- The invariant of a host. -/
structure HostInv (h : Host) : Prop where
  table : ∀ i t, h.tasks[i]? = some t →
    (t.goroutine.alive = true ↔ h.ts.lookup t.trans.tid = some i)
  listed : ∀ tid i, h.ts.lookup tid = some i →
    ∃ t, h.tasks[i]? = some t ∧ t.trans.tid = tid
  listening : ∀ i m, h.listen = some (i, m) →
    ∃ t, h.tasks[i]? = some t ∧ t.inbox.getLast? = some m
  tasks : ∀ i t, h.tasks[i]? = some t → TaskInv h.name h.peers.length (h.blocks i) t

section Lists
variable {ms ms' : List Message} {m : Message}

/-- The requests of an inbox that grows: a new message adds its own at the end and leaves the
earlier ones in their places. -/
@[simp] theorem requestsOf_append :
    requestsOf (ms ++ ms') = requestsOf ms ++ requestsOf ms' := by
  simp [requestsOf]

/-- The same for the responses. The inbox grows at its end, so this is what a new message adds. -/
@[simp] theorem responsesOf_append :
    responsesOf (ms ++ ms') = responsesOf ms ++ responsesOf ms' := by
  simp [responsesOf]

/-- One message brings at most one request, since a message of the wire is a `oneof`. -/
theorem requestsOf_singleton : requestsOf [m] = m.getRequest.toList := by
  cases h : m.getRequest <;> simp [requestsOf, h]

/-- One message brings at most one response, and a request brings none. -/
theorem responsesOf_singleton : responsesOf [m] = m.getResponse.toList := by
  cases h : m.getResponse <;> simp [responsesOf, h]

/-- Each request came with a message, so what holds of all messages holds of it. -/
theorem mem_requestsOf {r : Request} :
    r ∈ requestsOf ms ↔ ∃ m ∈ ms, m.getRequest = some r := by
  simp [requestsOf]

/-- Each response came with a message. So a response can be traced to the peer that sent it. -/
theorem mem_responsesOf {r : Response} :
    r ∈ responsesOf ms ↔ ∃ m ∈ ms, m.getResponse = some r := by
  simp [responsesOf]

/-- `NoNack` passes to a part of the messages, for example to those that the reader has taken. -/
theorem NoNack.mono (h : NoNack ms') (hsub : ∀ m ∈ ms, m ∈ ms') : NoNack ms := by
  intro r hr
  obtain ⟨m, hm, hmr⟩ := mem_responsesOf.mp hr
  exact h r (mem_responsesOf.mpr ⟨m, hsub m hm, hmr⟩)

end Lists

/-- What the reader has taken is part of what `listen` put. It takes the messages in their order. -/
theorem Task.seen_prefix (t : Task) : t.seen <+: t.inbox := List.take_prefix _ _

/-- The reader has seen only what was put into its transaction, never a message of another one. -/
theorem Task.seen_subset (t : Task) : ∀ m ∈ t.seen, m ∈ t.inbox :=
  fun _ hm => t.seen_prefix.subset hm

/-- The number of messages taken. It counts the rounds of the loop that the reader has finished. -/
theorem TaskInv.length_seen {name : PeerName} {n : Nat} {b : Bool} {t : Task}
    (h : TaskInv name n b t) : t.seen.length = t.taken := by
  have := h.pending
  simp [Task.seen]
  omega

/-- The facts at the point of a call of `Mirror.Mirror`: all messages have been taken, and none of
them was a `NACK`. -/
theorem TaskInv.decided_of_mirrorCall {name : PeerName} {n : Nat} {b : Bool} {t : Task}
    (h : TaskInv name n b t) {req : Option Request} (hcall : t.goroutine.mirrorCall? = some req) :
    Decided n t req := by
  have hpoint := h.point
  rcases mirrorCall?_eq_some.mp hcall with hg | ⟨r, err, rfl, hg | hg⟩ <;> rw [hg] at hpoint <;>
    exact hpoint.2.2

/-- The invariant of a task that moved to another point, from the facts at that point. -/
private theorem TaskInv.goto {name : PeerName} {n : Nat} {b : Bool} {t : Task} {g : Goroutine}
    (h : TaskInv name n b t) (hkind : g.isReplicate = t.goroutine.isReplicate)
    (hpoint : Point name n t g) : TaskInv name n b (t.goto g) where
  pending := h.pending
  tids := h.tids
  responses := h.responses
  origin := by
    have ho := h.origin
    cases hg : t.goroutine <;> cases g <;> simp_all [Goroutine.isReplicate, Origin, Task.goto]
  point := by
    cases g <;> exact hpoint

section Move
variable {h : Host} {b : Bool} {t : Task}

/-- The facts at a point of `Replicate`. It casts no ballot, as it does not vote on its own
request. -/
private theorem TaskInv.replicatePoint {name : PeerName} {n : Nat} {pc : ReplicatePc}
    (ht : TaskInv name n b t) (hg : t.goroutine = .replicate pc) :
    t.ballots = [] ∧ ReplicatePoint name n t pc := by
  have := ht.point
  rwa [hg] at this

/-- The facts at a point of `handleTransaction`. Every request that it has seen led to one ballot,
except the one in progress. -/
private theorem TaskInv.handlePoint {name : PeerName} {n : Nat} {pc : HandlePc}
    (ht : TaskInv name n b t) (hg : t.goroutine = .handle pc) :
    t.taken ≤ n ∧ requestsOf t.seen = t.ballots.map Ballot.request ++ pc.inProgress ∧
      HandlePoint n t pc := by
  have := ht.point
  rwa [hg] at this

/-- After its broadcast, `Replicate` has left or waits for at most as many responses as it has
peers. It waits for fewer when the broadcast failed for some of them, and it leaves at once when it
failed for all. -/
private theorem replicatePoint_afterBroadcast {name : PeerName} {peers : List PeerName}
    (hzero : t.taken = 0) (result : Broadcast) :
    ReplicatePoint name peers.length t (afterBroadcast peers result) := by
  cases result with
  | refused reason => exact hzero
  | sent failed reached =>
    simp only [afterBroadcast]
    split
    · trivial
    · rename_i hall
      refine ⟨by omega, fun he => by simp [he], fun he => ?_⟩
      -- Not every send failed.
      have hlt : (peers.filter (· ∈ failed)).length ≠ peers.length := fun hlen => hall ⟨he, hlen⟩
      have hle := List.length_filter_le (fun x => decide (x ∈ failed)) peers
      omega

/-- Every move keeps the invariant of its task. The cases are those of `TaskMove`, one for each
point of the code. A move takes no message, so the parts about the inbox stay, and what has to be
shown is the fact that belongs to the new point. -/
theorem TaskInv.move {input : Input} {m : Move}
    (ht : TaskInv h.name h.peers.length b t) (hm : TaskMove h t input m) :
    TaskInv h.name h.peers.length b m.task := by
  cases hm with
  | conflict message hg hc =>
    obtain ⟨hb, hp⟩ := ht.replicatePoint hg
    exact ht.goto (by simp [hg, Goroutine.isReplicate]) ⟨hb, hp.1⟩
  | pass message hg hc =>
    obtain ⟨hb, hp⟩ := ht.replicatePoint hg
    exact ht.goto (by simp [hg, Goroutine.isReplicate]) ⟨hb, hp⟩
  | broadcast message result hg =>
    obtain ⟨hb, hp⟩ := ht.replicatePoint hg
    exact ht.goto (by simp [hg, Goroutine.isReplicate])
      ⟨hb, replicatePoint_afterBroadcast hp.1 result⟩
  | giveUp expected failed e hg hlt =>
    exact ht.goto (by simp [hg, Goroutine.isReplicate]) ⟨(ht.replicatePoint hg).1, trivial⟩
  | sendError expected failed hg hle hf =>
    exact ht.goto (by simp [hg, Goroutine.isReplicate]) ⟨(ht.replicatePoint hg).1, trivial⟩
  | process expected increment result hg hle hp =>
    obtain ⟨hb, htaken, hexp, -⟩ := ht.replicatePoint hg
    refine ht.goto (by simp [hg, Goroutine.isReplicate]) ⟨hb, ?_⟩
    rw [ht.responses] at hp
    -- The broadcast had no error, so the loop waited for all peers.
    have hn : t.taken = h.peers.length := by
      have := hexp rfl
      omega
    rcases processResponses_ok hp with ⟨rfl, -, hno⟩ | ⟨rfl, hnack, -⟩
    · exact ⟨hn, NoNack.mono hno t.seen_subset⟩
    · obtain ⟨r, hr, htype⟩ := hnack
      exact ⟨hn, fun hno => hno r hr htype⟩
  | depart result hg =>
    obtain ⟨hb, hp⟩ := ht.replicatePoint hg
    exact ht.goto (by simp [hg, Goroutine.isReplicate]) ⟨hb, hp⟩
  | approve msg request response hg ha =>
    obtain ⟨hle, hreq, hmem, hget⟩ := ht.handlePoint hg
    exact ht.goto (by simp [hg, Goroutine.isReplicate]) ⟨hle, hreq, hmem, hget, ha⟩
  | reject msg request response hg ha =>
    obtain ⟨hle, hreq, hp⟩ := ht.handlePoint hg
    exact ht.goto (by simp [hg, Goroutine.isReplicate]) ⟨hle, hreq, hp⟩
  | detect msg request verdict b hg hc =>
    obtain ⟨hle, hreq, hmem, hget, -⟩ := ht.handlePoint hg
    exact ht.goto (by simp [hg, Goroutine.isReplicate]) ⟨hle, hreq, hmem, hget⟩
  | respond msg ballot result hg =>
    obtain ⟨hle, hreq, hmem, hget⟩ := ht.handlePoint hg
    refine ⟨ht.pending, ht.tids, ht.responses, ?_, hle, ?_, ?_⟩
    · simpa [hg, Origin] using ht.origin
    · -- The request in progress becomes the last ballot.
      simpa [HandlePc.inProgress, Task.seen] using hreq
    · simp [HandlePoint, lastVote]
  | expire our e hg hlt =>
    obtain ⟨hle, hreq, -⟩ := ht.handlePoint hg
    exact ht.goto (by simp [hg, Goroutine.isReplicate]) ⟨hle, hreq, hlt⟩
  | permit our hg hle hp =>
    obtain ⟨hle', hreq, hour⟩ := ht.handlePoint hg
    have horigin : t.trans.request = (requestsOf t.inbox).getLast? := by
      have := ht.origin
      rw [hg] at this
      exact this.1
    -- The switch looks at all responses, also at those the loop did not take.
    simp only [permitted, ht.responses, Bool.and_eq_true, decide_eq_true_eq,
      Bool.not_eq_true', List.any_eq_false] at hp
    have hno : NoNack t.inbox := fun r hr => by simpa using hp.2 r hr
    exact ht.goto (by simp [hg, Goroutine.isReplicate]) ⟨hle', hreq, Nat.le_antisymm hle' hle,
      hour.symm.trans hp.1, hno.mono t.seen_subset, t.inbox, t.seen_prefix,
      List.prefix_refl _, horigin⟩
  | forbid our hg hle hp =>
    obtain ⟨hle', hreq, hour⟩ := ht.handlePoint hg
    refine ht.goto (by simp [hg, Goroutine.isReplicate])
      ⟨hle', hreq, Nat.le_antisymm hle' hle, ?_⟩
    by_cases hv : our = .ack
    · right
      rw [hv, permitted, ht.responses] at hp
      intro hno
      simp only [decide_true, Bool.true_and, Bool.not_eq_false', List.any_eq_true,
        decide_eq_true_eq] at hp
      obtain ⟨r, hr, htype⟩ := hp
      exact hno r hr htype
    · exact .inl (hour ▸ hv)
  | mirror request err hg =>
    obtain ⟨hle, hreq, hp⟩ := ht.handlePoint hg
    exact ht.goto (by simp [hg, Goroutine.isReplicate]) ⟨hle, hreq, hp⟩
  | finish result hg =>
    obtain ⟨hle, hreq, hp⟩ := ht.handlePoint hg
    exact ht.goto (by simp [hg, Goroutine.isReplicate]) ⟨hle, hreq, hp⟩

end Move

section Receive
variable {name : PeerName} {n : Nat} {t : Task} {msg : Message}

/-- The task after `listen` put the message. -/
private abbrev Task.arrive (t : Task) (msg : Message) : Task :=
  { t with trans := t.trans.put msg, inbox := t.inbox ++ [msg] }

/-- While `listen` is free, the reader has taken every message, so a new one does not change
what it has seen. -/
private theorem Task.seen_arrive (h : TaskInv name n false t) :
    (t.arrive msg).seen = t.seen := by
  have hp := h.pending
  simp only [Bool.toNat_false, Nat.add_zero] at hp
  exact List.take_append_of_le_length (Nat.le_of_eq hp.symm)

/-- A call of `Mirror.Mirror` stays decided when a message comes late. -/
private theorem Decided.arrive {request : Option Request} (h : TaskInv name n false t)
    (hd : Decided n t request) : Decided n (t.arrive msg) request := by
  obtain ⟨htaken, hvote, hno, ms, hseen, hms, hreq⟩ := hd
  refine ⟨htaken, hvote, ?_, ms, ?_, hms.trans (List.prefix_append _ _), hreq⟩
  · rwa [Task.seen_arrive h]
  · rwa [Task.seen_arrive h]

/-- A `NACK` does not go away. Messages are only added to an inbox. -/
private theorem not_noNack_arrive (h : ¬ NoNack t.inbox) : ¬ NoNack (t.arrive msg).inbox :=
  fun hno => h (hno.mono fun m hm => by simp [hm])

/-- A late message keeps the facts at a point of `Replicate`. They are about what the reader has
taken, and about the stored request as long as no request has arrived, which would overwrite it. -/
private theorem ReplicatePoint.arrive {pc : ReplicatePc} (h : TaskInv name n false t)
    (hp : ReplicatePoint name n t pc) : ReplicatePoint name n (t.arrive msg) pc := by
  -- The same facts at two points, before and after the conflict check.
  have hmsg : ∀ message : Message,
      (t.taken = 0 ∧ ∃ r, message = newRequestMessage t.trans.tid name r ∧
        (requestsOf t.inbox = [] → t.trans.request = some r)) →
      (t.arrive msg).taken = 0 ∧
        ∃ r, message = newRequestMessage (t.arrive msg).trans.tid name r ∧
          (requestsOf (t.arrive msg).inbox = [] → (t.arrive msg).trans.request = some r) := by
    rintro message ⟨hzero, r, hr, hreq⟩
    refine ⟨hzero, r, by simpa using hr, fun hnil => ?_⟩
    simp only [requestsOf_append, List.append_eq_nil_iff, requestsOf_singleton,
      Option.toList_eq_nil_iff] at hnil
    simp [Transaction.put_request, hnil.2, hreq hnil.1]
  cases pc with
  | check message => exact hmsg message hp
  | broadcast message => exact hmsg message hp
  | collect expected failed => exact hp
  | leave result | returned result =>
    cases result with
    | none => exact ⟨hp.1, by rw [Task.seen_arrive h]; exact hp.2⟩
    | some e =>
      cases e with
      | notPermitted => exact ⟨hp.1, not_noNack_arrive hp.2⟩
      | _ => exact hp

/-- A late message keeps the facts at a point of `handleTransaction`. -/
private theorem HandlePoint.arrive {pc : HandlePc} (h : TaskInv name n false t)
    (hp : HandlePoint n t pc) : HandlePoint n (t.arrive msg) pc := by
  cases pc with
  | await our => exact hp
  | consult m request => exact ⟨by simp [hp.1], hp.2⟩
  | detect m request verdict => exact ⟨by simp [hp.1], hp.2⟩
  | respond m ballot => exact ⟨by simp [hp.1], hp.2⟩
  | mirror request => exact Decided.arrive h hp
  | leave result | ended result =>
    cases result with
    | context e => exact hp
    | notPermitted => exact ⟨hp.1, hp.2.imp_right not_noNack_arrive⟩
    | mirrored request err => exact Decided.arrive h hp

/-- `listen` keeps the invariant of the task it puts a message in, and then waits for its reader.
The message is stored in the transaction before the reader takes it, and so a reader can see
responses that it has not counted yet. -/
private theorem TaskInv.arrive (h : TaskInv name n false t) (htid : msg.tid = t.trans.tid) :
    TaskInv name n true (t.arrive msg) where
  pending := by
    have := h.pending
    simp at this ⊢
    omega
  tids := by
    intro m hm
    rcases List.mem_append.mp hm with hm | hm
    · simpa using h.tids m hm
    · obtain rfl : m = msg := by simpa using hm
      simpa using htid
  responses := by
    simp [Transaction.put_responses, h.responses, responsesOf_singleton]
  origin := by
    have ho := h.origin
    change Origin name (t.arrive msg) t.goroutine
    cases hg : t.goroutine with
    | replicate pc =>
      rw [hg] at ho
      -- As long as no request arrives, the transaction keeps the one of the call.
      intro hnil
      simp only [requestsOf_append, List.append_eq_nil_iff, requestsOf_singleton,
        Option.toList_eq_nil_iff] at hnil
      simpa [Transaction.put_request, Transaction.put_initiatorName, hnil.2] using ho hnil.1
    | handle pc =>
      rw [hg] at ho
      cases hr : msg.getRequest with
      | none =>
        refine ⟨?_, fun r hreq => ?_⟩
        · simp [Transaction.put_request, hr, requestsOf_singleton, ho.1]
        · obtain ⟨m, hm, hmr, hname⟩ := ho.2 r (by simpa [Transaction.put_request, hr] using hreq)
          exact ⟨m, by simp [hm], hmr, by simpa [Transaction.put_initiatorName, hr] using hname⟩
      | some r₀ =>
        refine ⟨?_, fun r hreq => ?_⟩
        · simp [Transaction.put_request, hr, requestsOf_singleton]
        · obtain rfl : r₀ = r := by simpa [Transaction.put_request, hr] using hreq
          exact ⟨msg, by simp, hr, by simp [Transaction.put_initiatorName, hr]⟩
  point := by
    have hp := h.point
    change Point name n (t.arrive msg) t.goroutine
    cases hg : t.goroutine with
    | replicate pc =>
      rw [hg] at hp
      exact ⟨hp.1, ReplicatePoint.arrive h hp.2⟩
    | handle pc =>
      rw [hg] at hp
      exact ⟨hp.1, by rw [Task.seen_arrive h]; exact hp.2.1, HandlePoint.arrive h hp.2.2⟩

/-- When the reader takes the pending message, it has seen all of them. -/
private theorem Task.seen_take (h : TaskInv name n true t) (hlast : t.inbox.getLast? = some msg) :
    t.inbox.take (t.taken + 1) = t.seen ++ [msg] := by
  have hp := h.pending
  simp only [Bool.toNat_true] at hp
  obtain ⟨ms, hms⟩ := List.getLast?_eq_some_iff.mp hlast
  have hlen : ms.length = t.taken := by
    rw [hms] at hp
    simpa using hp
  simp only [Task.seen, hms, ← hlen, List.take_left']
  exact List.take_of_length_le (by simp)

/-- The reader that takes the pending message keeps the invariant, and `listen` is free. `hlast`
says that the pending message is the last one of the inbox. A `Replicate` only counts it, a handler
goes on with the request if there is one in it. -/
private theorem TaskInv.notified (h : TaskInv name n true t)
    (hlast : t.inbox.getLast? = some msg) (hr : t.receiving n = true) :
    TaskInv name n false (t.notified msg) := by
  have hseen := Task.seen_take h hlast
  have hpend := h.pending
  have hmem : msg ∈ t.inbox := List.mem_of_getLast? hlast
  cases hg : t.goroutine with
  | replicate pc =>
    have hn : t.notified msg = { t with taken := t.taken + 1 } := by
      simp [Task.notified, hg]
    have ho := h.origin
    have hp := h.point
    rw [hg] at ho hp
    rw [hn]
    refine ⟨by simpa using hpend, h.tids, h.responses, h.origin, ?_⟩
    simp only [hg]
    -- Only the loop over the responses receives.
    cases pc with
    | collect expected failed =>
      simp only [Task.receiving, hg, decide_eq_true_eq] at hr
      exact ⟨hp.1, hr, hp.2.2⟩
    | _ => simp [Task.receiving, hg] at hr
  | handle pc =>
    have ho := h.origin
    have hp := h.point
    rw [hg] at ho hp
    cases pc with
    | await our =>
      simp only [Task.receiving, hg, decide_eq_true_eq] at hr
      obtain ⟨-, hreq, hour⟩ := hp
      -- A response is only counted. A request goes to `Mirror.Consult`.
      cases hget : msg.getRequest with
      | none =>
        have hn : t.notified msg = { t with taken := t.taken + 1 } := by
          simp [Task.notified, hg, hget]
        rw [hn]
        refine ⟨by simpa using hpend, h.tids, h.responses, h.origin, ?_⟩
        simp only [hg]
        refine ⟨hr, ?_, hour⟩
        change requestsOf (t.inbox.take (t.taken + 1)) = _
        rw [hseen, requestsOf_append, requestsOf_singleton, hget, hreq]
        simp
      | some request =>
        have hn : t.notified msg = { t with
            taken := t.taken + 1, goroutine := .handle (.consult msg request) } := by
          simp [Task.notified, hg, hget]
        rw [hn]
        refine ⟨by simpa using hpend, h.tids, h.responses, ho, hr, ?_, hmem, hget⟩
        change requestsOf (t.inbox.take (t.taken + 1)) = _
        rw [hseen, requestsOf_append, requestsOf_singleton, hget, hreq]
        simp [HandlePc.inProgress]
    | _ => simp [Task.receiving, hg] at hr

end Receive

section Step
variable {h : Host}

/-- A host that has done nothing. Its map is empty, and it has no tasks. -/
theorem HostInv.init (name : PeerName) (peers : List PeerName) (clock : UInt64) :
    HostInv { name, peers, clock } where
  table := by simp
  listed := by simp
  listening := by simp
  tasks := by simp

/-- The map stays exact when a task with a fresh id is allocated. -/
private theorem HostInv.table_concat (hi : HostInv h) {new : Task}
    (hfresh : h.ts.lookup new.trans.tid = none) (halive : new.goroutine.alive = true) {i : Nat}
    {t : Task} (ht : (h.tasks ++ [new])[i]? = some t) :
    t.goroutine.alive = true ↔
      (h.ts.insert new.trans.tid h.tasks.length).lookup t.trans.tid = some i := by
  rcases getElem?_concat_eq_some.mp ht with ht | ⟨rfl, rfl⟩
  · have hlt := lt_length_of_getElem? ht
    by_cases htid : t.trans.tid = new.trans.tid
    · -- The old task with this id was deleted, since the id was free.
      rw [hi.table i t ht, htid, AList.lookup_insert, hfresh]
      simp only [reduceCtorEq, Option.some.injEq, false_iff]
      omega
    · rw [hi.table i t ht, AList.lookup_insert_ne htid]
  · simp [halive]

/-- Every entry of the map points to a task when one is allocated. -/
private theorem HostInv.listed_concat (hi : HostInv h) {new : Task} {tid : TransactionID}
    {i : Nat} (hl : (h.ts.insert new.trans.tid h.tasks.length).lookup tid = some i) :
    ∃ t, (h.tasks ++ [new])[i]? = some t ∧ t.trans.tid = tid := by
  by_cases htid : tid = new.trans.tid
  · subst htid
    rw [AList.lookup_insert] at hl
    exact ⟨new, getElem?_concat_eq_some.mpr (.inr ⟨(Option.some.inj hl).symm, rfl⟩), rfl⟩
  · rw [AList.lookup_insert_ne htid] at hl
    obtain ⟨t, ht, htid⟩ := hi.listed tid i hl
    exact ⟨t, getElem?_concat_eq_some.mpr (.inl ht), htid⟩

/-- `listen` waits for no task that is not allocated, so a new task starts with nothing waiting for
it. -/
private theorem HostInv.blocks_length (hi : HostInv h) : h.blocks h.tasks.length = false := by
  cases hl : h.listen with
  | none => simp [Host.blocks, hl]
  | some p =>
    obtain ⟨t, ht, -⟩ := hi.listening p.1 p.2 hl
    have := lt_length_of_getElem? ht
    simp only [Host.blocks, hl, Option.any_some, decide_eq_false_iff_not]
    omega

/-- `listen` blocks on nothing when it is free. The invariant of a task depends on whether it
does. -/
private theorem Host.blocks_of_none (hl : h.listen = none) (i : Nat) : h.blocks i = false := by
  simp [Host.blocks, hl]

/-- A task that has just been allocated. It is at the start of `handleTransaction` with an empty
inbox. -/
private theorem TaskInv.fresh (name : PeerName) (n : Nat) (tid : TransactionID) :
    TaskInv name n false { trans := { tid }, goroutine := .handle (.await .ack) } where
  pending := rfl
  tids := by simp
  responses := rfl
  origin := ⟨rfl, by simp⟩
  point := ⟨Nat.zero_le _, rfl, rfl⟩

/-- A call of `Replicate` that has just put its request. Its own request does not count as a
message. -/
private theorem TaskInv.call (name : PeerName) (n : Nat) (tid : TransactionID)
    (request : Request) :
    TaskInv name n false
      { trans := ⟨tid, name, some request, []⟩
        goroutine := .replicate (.check (newRequestMessage tid name request)) } where
  pending := rfl
  tids := by simp
  responses := rfl
  origin := fun _ => ⟨rfl, rfl⟩
  point := ⟨rfl, rfl, request, rfl, fun _ => rfl⟩

/-- A call of `Replicate` keeps the invariant. It is a new task with a new entry of the map.
`hfresh` is what the model asks of the id, and without it `Put` would find the transaction of
another task. -/
private theorem HostInv.replicate (hi : HostInv h) {tid : TransactionID} {request : Request}
    (hfresh : h.ts.lookup tid = none) :
    HostInv { h with
      ts := h.ts.insert tid h.tasks.length
      tasks := h.tasks ++
        [{ trans := ⟨tid, h.name, some request, []⟩
           goroutine := .replicate (.check (newRequestMessage tid h.name request)) }] } where
  table i t ht := hi.table_concat hfresh rfl ht
  listed tid' i hl := hi.listed_concat hl
  listening i m hl := by
    obtain ⟨t, ht, hlast⟩ := hi.listening i m hl
    exact ⟨t, getElem?_concat_eq_some.mpr (.inl ht), hlast⟩
  tasks i t ht := by
    rcases getElem?_concat_eq_some.mp ht with ht | ⟨rfl, rfl⟩
    · exact hi.tasks i t ht
    · -- `listen` cannot be waiting for a task that is only now created.
      change TaskInv h.name h.peers.length (h.blocks h.tasks.length) _
      rw [hi.blocks_length]
      exact .call h.name h.peers.length tid request

/-- `listen` keeps the invariant when it creates a transaction. It then waits for the handler to
take the message. The id was not in the map, so the new task is the only live one with it, and the
map leads to it. -/
private theorem HostInv.spawn (hi : HostInv h) {msg : Message} (hl : h.listen = none)
    (hfresh : h.ts.lookup msg.tid = none) :
    HostInv { h with
      ts := h.ts.insert msg.tid h.tasks.length
      tasks := h.tasks ++
        [{ trans := Transaction.put { tid := msg.tid } msg
           goroutine := .handle (.await .ack)
           inbox := [msg] }]
      listen := some (h.tasks.length, msg) } where
  table i t ht := by
    have := hi.table_concat (by rw [Transaction.put_tid]; exact hfresh) rfl ht
    rw [Transaction.put_tid] at this
    exact this
  listed tid i hlookup := by
    refine hi.listed_concat ?_
    rw [Transaction.put_tid]
    exact hlookup
  listening i m hlm := by
    cases hlm
    exact ⟨_, getElem?_concat_eq_some.mpr (.inr ⟨rfl, rfl⟩), rfl⟩
  tasks i t ht := by
    rcases getElem?_concat_eq_some.mp ht with ht | ⟨rfl, rfl⟩
    · have hlt := lt_length_of_getElem? ht
      -- The tasks from before are not the one that `listen` waits for.
      have hne : h.tasks.length ≠ i := by omega
      have htask := hi.tasks i t ht
      rw [Host.blocks_of_none hl] at htask
      simpa [Host.blocks, hne] using htask
    · have harrive : TaskInv h.name h.peers.length true (Task.arrive _ msg) :=
        (TaskInv.fresh h.name h.peers.length msg.tid).arrive rfl
      simpa [Host.blocks, Task.arrive] using harrive

/-- `listen` keeps the invariant when it adds to a transaction. Its reader is the one that `listen`
waits for next. -/
private theorem HostInv.join (hi : HostInv h) {msg : Message} {ref : Nat}
    (hl : h.listen = none) (hlookup : h.ts.lookup msg.tid = some ref) :
    HostInv { h with
      tasks := h.tasks.modify ref fun t =>
        { t with trans := t.trans.put msg, inbox := t.inbox ++ [msg] }
      listen := some (ref, msg) } := by
  -- The map leads to a task with the id of the message.
  obtain ⟨t₀, ht₀, htid₀⟩ := hi.listed _ _ hlookup
  refine ⟨fun i t ht => ?_, fun tid i hlk => ?_, fun i m hlm => ?_, fun i t ht => ?_⟩
  · rcases getElem?_modify_eq_some.mp ht with ⟨rfl, t₁, ht₁, rfl⟩ | ⟨-, ht⟩
    · rw [Transaction.put_tid]
      exact hi.table i t₁ ht₁
    · exact hi.table i t ht
  · obtain ⟨t, ht, htid⟩ := hi.listed tid i hlk
    by_cases hir : i = ref
    · exact ⟨_, getElem?_modify_eq_some.mpr (.inl ⟨hir, t, ht, rfl⟩), by simpa using htid⟩
    · exact ⟨t, getElem?_modify_eq_some.mpr (.inr ⟨hir, ht⟩), htid⟩
  · cases hlm
    exact ⟨_, getElem?_modify_eq_some.mpr (.inl ⟨rfl, t₀, ht₀, rfl⟩), by simp⟩
  · rcases getElem?_modify_eq_some.mp ht with ⟨rfl, t₁, ht₁, rfl⟩ | ⟨hne, ht⟩
    · obtain rfl : t₀ = t₁ := Option.some.inj (ht₀.symm.trans ht₁)
      have htask := hi.tasks i t₀ ht₀
      rw [Host.blocks_of_none hl] at htask
      have harrive : TaskInv h.name h.peers.length true (t₀.arrive msg) :=
        htask.arrive htid₀.symm
      simpa [Host.blocks] using harrive
    · have htask := hi.tasks i t ht
      rw [Host.blocks_of_none hl] at htask
      simpa [Host.blocks, Ne.symm hne] using htask

/-- The reader that takes the pending message keeps the invariant. No task is blocked by `listen`
after it. All other tasks are as they were, because `listen` waits for one reader at a time. -/
private theorem HostInv.notify (hi : HostInv h) {ref : Nat} {msg : Message} {t₀ : Task}
    (hl : h.listen = some (ref, msg)) (ht₀ : h.tasks[ref]? = some t₀)
    (hr : t₀.receiving h.peers.length = true) :
    HostInv { h with tasks := h.tasks.set ref (t₀.notified msg), listen := none } := by
  have hext : TaskExtends t₀ (t₀.notified msg) := t₀.notified_extends hr
  obtain ⟨t₁, ht₁, hlast⟩ := hi.listening ref msg hl
  obtain rfl : t₀ = t₁ := Option.some.inj (ht₀.symm.trans ht₁)
  -- The task counts as blocked until it takes the message, and this is the step.
  have hblocked : h.blocks ref = true := by simp [Host.blocks, hl]
  have hinv : TaskInv h.name h.peers.length false (t₀.notified msg) :=
    (hblocked ▸ hi.tasks ref t₀ ht₀ : TaskInv _ _ true t₀).notified hlast hr
  have halive : (t₀.notified msg).goroutine.alive = t₀.goroutine.alive := by
    rw [t₀.receiving_alive hr]
    unfold Task.notified
    split
    · rfl
    · exact t₀.receiving_alive hr
  refine ⟨fun i t ht => ?_, fun tid i hlk => ?_, fun i m hlm => by simp at hlm,
    fun i t ht => ?_⟩
  · rcases getElem?_set_eq_some.mp ht with ⟨rfl, -, rfl⟩ | ⟨-, ht⟩
    · rw [halive, hext.tid]
      exact hi.table i t₀ ht₀
    · exact hi.table i t ht
  · obtain ⟨t, ht, htid⟩ := hi.listed tid i hlk
    by_cases hir : i = ref
    · subst hir
      obtain rfl : t₀ = t := Option.some.inj (ht₀.symm.trans ht)
      exact ⟨_, getElem?_set_self ht, hext.tid.trans htid⟩
    · exact ⟨t, getElem?_set_of_ne hir ht, htid⟩
  · rcases getElem?_set_eq_some.mp ht with ⟨rfl, -, rfl⟩ | ⟨hne, ht⟩
    · simpa [Host.blocks] using hinv
    · have htask := hi.tasks i t ht
      simpa [Host.blocks, hl, Ne.symm hne] using htask

/-- A move that deletes its transaction ends its goroutine, and no other move does. -/
theorem TaskMove.delete_iff {t : Task} {input : Input} {m : Move} (hm : TaskMove h t input m) :
    m.delete = true ↔ m.task.goroutine.alive = false := by
  cases hm with
  | broadcast message result hg => simp [Task.goto]
  | _ => simp [Task.goto, Goroutine.alive]

/-- A move that does not delete leaves the map, so every id still leads to the task it led to. -/
private theorem Host.apply_ts_of_keep {ref : Nat} {m : Move} (hd : m.delete = false) :
    (h.apply ref m).ts = h.ts := by
  simp [Host.apply, hd]

/-- A move that deletes takes its own id out of the map. A later message with the id makes a new
transaction. -/
private theorem Host.apply_ts_of_delete {ref : Nat} {m : Move} (hd : m.delete = true) :
    (h.apply ref m).ts = h.ts.erase m.task.trans.tid := by
  simp [Host.apply, hd]

/-- A move of a goroutine keeps the invariant. The other tasks do not change, but the map may. When
the move deletes its transaction, the other live tasks have other ids, and so they can still be
found. -/
private theorem HostInv.task (hi : HostInv h) {ref : Nat} {input : Input} {t₀ : Task}
    {m : Move} (ht₀ : h.tasks[ref]? = some t₀) (hm : TaskMove h t₀ input m) :
    HostInv (h.apply ref m) := by
  have hext := hm.extends
  have hlookup := (hi.table ref t₀ ht₀).mp hm.alive
  refine ⟨fun i t ht => ?_, fun tid i hlk => ?_, fun i msg hlm => ?_, fun i t ht => ?_⟩
  · rcases getElem?_set_eq_some.mp ht with ⟨rfl, -, rfl⟩ | ⟨hne, ht⟩
    · cases hd : m.delete with
      | false =>
        have halive : m.task.goroutine.alive = true := by
          by_contra hc
          rw [hm.delete_iff.mpr (by simpa using hc)] at hd
          cases hd
        rw [hext.tid, Host.apply_ts_of_keep hd]
        simpa [halive] using hlookup
      | true =>
        rw [Host.apply_ts_of_delete hd, AList.lookup_erase]
        simp [hm.delete_iff.mp hd]
    · -- Another live task has another id, so the deletion does not touch it.
      rw [hi.table i t ht]
      cases hd : m.delete with
      | false => rw [Host.apply_ts_of_keep hd]
      | true =>
        rw [Host.apply_ts_of_delete hd, hext.tid]
        by_cases htid : t.trans.tid = t₀.trans.tid
        · rw [htid, AList.lookup_erase, hlookup]
          simp [Ne.symm hne]
        · rw [AList.lookup_erase_ne htid]
  · have hold : h.ts.lookup tid = some i := by
      cases hd : m.delete with
      | false => rwa [Host.apply_ts_of_keep hd] at hlk
      | true =>
        rw [Host.apply_ts_of_delete hd] at hlk
        by_cases htid : tid = m.task.trans.tid
        · rw [htid, AList.lookup_erase] at hlk
          cases hlk
        · rwa [AList.lookup_erase_ne htid] at hlk
    obtain ⟨t, ht, htid⟩ := hi.listed tid i hold
    by_cases hir : i = ref
    · subst hir
      obtain rfl : t₀ = t := Option.some.inj (ht₀.symm.trans ht)
      exact ⟨_, getElem?_set_self ht, hext.tid.trans htid⟩
    · exact ⟨t, getElem?_set_of_ne hir ht, htid⟩
  · obtain ⟨t, ht, hlast⟩ := hi.listening i msg hlm
    by_cases hir : i = ref
    · subst hir
      obtain rfl : t₀ = t := Option.some.inj (ht₀.symm.trans ht)
      exact ⟨_, getElem?_set_self ht, by rw [hm.data_eq.2.2]; exact hlast⟩
    · exact ⟨t, getElem?_set_of_ne hir ht, hlast⟩
  · rcases getElem?_set_eq_some.mp ht with ⟨rfl, -, rfl⟩ | ⟨-, ht⟩
    · exact (hi.tasks i t₀ ht₀).move hm
    · exact hi.tasks i t ht

/-- Every step of a host keeps the invariant: a call, a message, what `listen` does with it, and a
move. -/
theorem HostInv.step {h' : Host} {e : Event} {sent : Option Sent} (hi : HostInv h)
    (hm : HostMove h e h' sent) : HostInv h' := by
  cases hm with
  | replicate tid request hfresh => exact hi.replicate hfresh
  | join msg ref hl hlookup => exact hi.join hl hlookup
  | spawn msg hl hlookup => exact hi.spawn hl hlookup
  | notify ref msg t hl ht hr => exact hi.notify hl ht hr
  | task ref input t m ht hm => exact hi.task ht hm
  | panic ref input t₀ p ht₀ hp => exact ⟨hi.table, hi.listed, hi.listening, hi.tasks⟩

end Step

end ReplicatedFs.P2p
