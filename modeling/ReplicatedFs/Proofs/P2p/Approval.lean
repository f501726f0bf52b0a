import ReplicatedFs.Proofs.P2p.HostRun

/-!
# `ReplicatedFs.Proofs.P2p.Approval`: what is mirrored and what was approved

`handleTransaction` consults the request of a message that it takes, and at the end it mirrors
`transaction.Request`. The two are the same request only if no other one comes: `Put` replaces the
request of a transaction at any time, and `ourResponse` is the last vote only. The comment in
`transaction` says that there may be only one request. `Put` logs a second one as an error, and
stores it all the same.

`soleRequest` admits the runs in which a transaction gets one request, and in which this is among
the messages that the handler takes. `Logged` is a host with what it has broadcast.

* `Sole`: the messages of a handler in such a run.
* `ApprovalInv.step`: the requests and the broadcasts of all handlers.
* `mirrored_approved`: what is mirrored there was approved.
* `mirrored_unapproved`: a second request comes between the vote and the end of the loop.
-/

set_option autoImplicit false

namespace ReplicatedFs.P2p

open ReplicatedFs.Protobuf
open Library

/-- A host with the calls of `Conn.Broadcast` that it made, in order. -/
structure Logged where
  host : Host
  log : List Sent := []

/-- One step of the host. -/
def Logged.next (s : Logged) (e : Event) : Option Logged :=
  (s.host.step e).map fun r => ⟨r.1, s.log ++ r.2.toList⟩

/-- The reader is a `handleTransaction` call. -/
def Task.handler (t : Task) : Bool := !t.goroutine.isReplicate

/-- A handler that has taken `count` of its `n` messages is in time for the message: for a request
when there is one more to take, and for another message when this is not the last one, or when it
has its request. -/
def inTime (n : Nat) (msg : Message) (count : Nat) (request : Option Request) : Bool :=
  if msg.getRequest.isSome then count < n else request.isSome || count + 1 < n

/-- A request is the first one that handlers get with its id, and the handler is in time. -/
def soleRequest (s : Logged) : Event → Bool
  | .receive msg =>
    (msg.getRequest.isNone || s.host.tasks.all fun t =>
      !(t.handler && t.trans.tid = msg.tid && t.trans.request.isSome)) &&
    match s.host.ts.lookup msg.tid with
    | none => inTime s.host.peers.length msg 0 none
    | some ref => s.host.tasks[ref]?.all fun t =>
      !t.handler || inTime s.host.peers.length msg t.taken t.trans.request
  | _ => true

/-- Messages with one request at most, which is among the first `n`. If there are `n` of them, they
have one. -/
structure Sole (n : Nat) (ms : List Message) : Prop where
  once : (requestsOf ms).length ≤ 1
  late : requestsOf (ms.drop n) = []
  full : n ≤ ms.length → requestsOf ms ≠ []

/-- The invariant of these runs: the messages of each handler, at most one handler with a request
for an id, and a vote for every response that was broadcast. -/
structure ApprovalInv (s : Logged) : Prop where
  inv : HostInv s.host
  sole : ∀ (i : Nat) (t : Task), s.host.tasks[i]? = some t → t.handler = true →
    Sole s.host.peers.length t.inbox
  distinct : ∀ (i j : Nat) (t u : Task), s.host.tasks[i]? = some t → s.host.tasks[j]? = some u →
    t.handler = true → u.handler = true → requestsOf t.inbox ≠ [] → requestsOf u.inbox ≠ [] →
    t.trans.tid = u.trans.tid → i = j
  logged : ∀ sent ∈ s.log, ∀ response, sent.msg.getResponse = some response →
    ∃ (i : Nat) (t : Task), s.host.tasks[i]? = some t ∧ t.handler = true ∧
      t.trans.tid = sent.msg.tid ∧ ∃ ballot ∈ t.ballots, response = ballot.response

section Room
variable {n : Nat} {msg : Message} {ms : List Message}

/-- The messages of a handler that was in time for the last one. `hfirst` excludes a second request,
and `htime` a request behind the first `n` messages. The latter would be stored in the transaction,
but the handler would have ended without a vote on it. -/
theorem Sole.concat (honce : (requestsOf ms).length ≤ 1) (hlate : requestsOf (ms.drop n) = [])
    (hfirst : msg.getRequest.isSome → requestsOf ms = [])
    (htime : inTime n msg ms.length (requestsOf ms).getLast? = true) : Sole n (ms ++ [msg]) := by
  unfold inTime at htime
  cases hget : msg.getRequest with
  | some r =>
    have hnone : requestsOf ms = [] := hfirst (by simp [hget])
    simp only [hget, Option.isSome_some, if_true, decide_eq_true_eq] at htime
    -- All messages up to the request are among the first `n`.
    have hdrop : (ms ++ [msg]).drop n = [] := List.drop_eq_nil_of_le (by simp; omega)
    refine ⟨?_, by rw [hdrop]; rfl, fun _ => ?_⟩ <;> simp [requestsOf_singleton, hget, hnone]
  | none =>
    have hsame : requestsOf (ms ++ [msg]) = requestsOf ms := by
      simp [requestsOf_singleton, hget]
    have hrest : requestsOf ([msg].drop (n - ms.length)) = [] := by
      cases hk : n - ms.length <;> simp [requestsOf, hget]
    refine ⟨by rw [hsame]; exact honce, ?_, fun hfull hnone => ?_⟩
    · rw [List.drop_append, requestsOf_append, hlate, hrest, List.nil_append]
    · rw [hsame] at hnone
      simp [hget, hnone] at htime hfull
      omega

/-- The requests in a part that holds the first `n` messages. The messages after them bring no
request. -/
theorem Sole.requestsOf_eq (h : Sole n ms) {part : List Message} (htake : ms.take n <+: part)
    (hpart : part <+: ms) : requestsOf part = requestsOf ms := by
  have hall : requestsOf (ms.take n) = requestsOf ms := by
    conv_rhs => rw [← List.take_append_drop n ms, requestsOf_append, h.late, List.append_nil]
  have hle : ∀ {as bs : List Message}, as <+: bs → requestsOf as <+: requestsOf bs :=
    fun hab => hab.filterMap _
  exact (hle hpart).eq_of_length_le (by rw [← hall]; exact (hle htake).length_le)

/-- The only request of a handler that has its messages. One of the first `n` messages has brought
it. -/
theorem Sole.eq_singleton (h : Sole n ms) (hfull : n ≤ ms.length) : ∃ r, requestsOf ms = [r] := by
  have honce := h.once
  have hne := h.full hfull
  match hms : requestsOf ms with
  | [] => exact absurd hms hne
  | [r] => exact ⟨r, rfl⟩
  | r :: r' :: rest =>
    rw [hms] at honce
    simp at honce

end Room

section Step
variable {h h' : Host} {e : Event} {sent : Option Sent} {i : Nat} {t' : Task}

/-- A step of a host with its log is one of the moves of the host. -/
theorem Logged.next_move {s s' : Logged} (hs : s.next e = some s') :
    ∃ sent, HostMove s.host e s'.host sent ∧ s'.log = s.log ++ sent.toList := by
  obtain ⟨⟨h₁, sent⟩, hstep, rfl⟩ := Option.map_eq_some_iff.mp hs
  exact ⟨sent, (Host.step_move hstep).2, rfl⟩

/-- `listen` is free when it receives. It does not look at the next message before the last one is
taken. -/
theorem HostMove.listen_eq_none {msg : Message} (hm : HostMove h (.receive msg) h' sent) :
    h.listen = none := by
  cases hm <;> assumption

/-- A handler after a step has the messages that it had before, or with one more, or it is new. The
messages of a handler are all that the guard and the invariant speak about. -/
theorem HostMove.handler_cases (hm : HostMove h e h' sent) (ht' : h'.tasks[i]? = some t')
    (hk : t'.handler = true) :
    (∃ t, h.tasks[i]? = some t ∧ t.handler = true ∧ t'.trans.tid = t.trans.tid ∧
      t'.inbox = t.inbox) ∨
    (∃ msg t, e = .receive msg ∧ h.ts.lookup msg.tid = some i ∧ h.tasks[i]? = some t ∧
      t.handler = true ∧ t'.trans.tid = t.trans.tid ∧ t'.inbox = t.inbox ++ [msg]) ∨
    ∃ msg, e = .receive msg ∧ h.ts.lookup msg.tid = none ∧ i = h.tasks.length ∧
      t'.trans.tid = msg.tid ∧ t'.inbox = [msg] := by
  have hchange := hm.change ht'
  have hlen := hm.length_tasks_le
  have hlt := lt_length_of_getElem? ht'
  generalize hprev : h.tasks[i]? = old at hchange
  cases hchange with
  | same e sent t => exact .inl ⟨t', rfl, hk, rfl, rfl⟩
  | call tid request hfresh => simp [Task.handler, Goroutine.isReplicate] at hk
  | join msg t hlookup =>
    exact .inr (.inl ⟨msg, t, rfl, hlookup, rfl, hk, Transaction.put_tid _ _, rfl⟩)
  | spawn msg hlookup =>
    -- The task was not there, so it is the one at the end.
    have hge := List.getElem?_eq_none_iff.mp hprev
    exact .inr (.inr ⟨msg, rfl, hlookup, by omega, Transaction.put_tid _ _, rfl⟩)
  | notify msg t hl hr =>
    have hext : TaskExtends t (t.notified msg) := t.notified_extends hr
    refine .inl ⟨t, rfl, ?_, hext.tid, ?_⟩
    · rwa [Task.handler, ← hext.kind]
    · unfold Task.notified
      split <;> rfl
  | move input t m hmove =>
    refine .inl ⟨t, rfl, ?_, by rw [hmove.data_eq.1], hmove.data_eq.2.2⟩
    rwa [Task.handler, ← hmove.extends.kind]

/-- The request of a handler is the last one among its messages. -/
theorem HostInv.handler_request (hi : HostInv h) {t : Task} (ht : h.tasks[i]? = some t)
    (hk : t.handler = true) : t.trans.request = (requestsOf t.inbox).getLast? := by
  have ho := (hi.tasks i t ht).origin
  cases hg : t.goroutine with
  | replicate pc => simp [Task.handler, hg, Goroutine.isReplicate] at hk
  | handle pc =>
    rw [hg] at ho
    exact ho.1

end Step

section Guard
variable {s : Logged} {msg : Message} {i : Nat} {t : Task}

/-- When a request comes, no handler has one with its id. This is what the guard of the run asks
for. -/
theorem soleRequest.first (hi : HostInv s.host) (hguard : soleRequest s (.receive msg) = true)
    (hreq : msg.getRequest.isSome = true) (ht : s.host.tasks[i]? = some t)
    (hk : t.handler = true) (htid : t.trans.tid = msg.tid) : requestsOf t.inbox = [] := by
  simp only [soleRequest, Bool.and_eq_true, Bool.or_eq_true, Option.isNone_iff_eq_none] at hguard
  rcases hguard.1 with hnone | hall
  · simp [hnone] at hreq
  · have hno := List.all_eq_true.mp hall t (List.mem_of_getElem? ht)
    have hreq' := hi.handler_request ht hk
    cases hr : t.trans.request with
    | some r => simp [hk, htid, hr] at hno
    | none => exact List.getLast?_eq_none_iff.mp (hreq'.symm.trans hr)

/-- The handler of the message is in time for it. When `listen` is free, the handler has taken all
that was put so far, so its count is the length of its inbox. -/
theorem soleRequest.inTime (hi : HostInv s.host) (hguard : soleRequest s (.receive msg) = true)
    (hl : s.host.listen = none) (hlookup : s.host.ts.lookup msg.tid = some i)
    (ht : s.host.tasks[i]? = some t) (hk : t.handler = true) :
    inTime s.host.peers.length msg t.inbox.length (requestsOf t.inbox).getLast? = true := by
  simp only [soleRequest, hlookup, ht, Option.all_some, hk, Bool.not_true, Bool.false_or,
    Bool.and_eq_true] at hguard
  -- `listen` is free, so the handler has taken all its messages.
  have hpending := (hi.tasks i t ht).pending
  simp only [Host.blocks, hl, Option.any_none, Bool.toNat_false, Nat.add_zero] at hpending
  rw [hpending, ← hi.handler_request ht hk]
  exact hguard.2

end Guard

section Step
variable {s s' : Logged} {e : Event} {sent : Option Sent} {i j : Nat} {t' u' : Task}

/-- The messages of the handlers after a step. The guard excludes a second request, and a request
that comes when all other messages are there already. -/
theorem ApprovalInv.sole_step (hs : ApprovalInv s) (hguard : soleRequest s e = true)
    (hm : HostMove s.host e s'.host sent) (ht' : s'.host.tasks[i]? = some t')
    (hk : t'.handler = true) : Sole s.host.peers.length t'.inbox := by
  rcases hm.handler_cases ht' hk with ⟨t, ht, hk₀, -, hinbox⟩ |
    ⟨msg, t, rfl, hlookup, ht, hk₀, -, hinbox⟩ | ⟨msg, rfl, hlookup, -, -, hinbox⟩ <;> rw [hinbox]
  · exact hs.sole i t ht hk₀
  · -- One message more. If it is a request, the handler had none, and it came in time.
    have hold := hs.sole i t ht hk₀
    obtain ⟨t₀, ht₀, htid⟩ := hs.inv.listed _ _ hlookup
    obtain rfl : t₀ = t := Option.some.inj (ht₀.symm.trans ht)
    exact .concat hold.once hold.late
      (fun hreq => soleRequest.first hs.inv hguard hreq ht hk₀ htid)
      (soleRequest.inTime hs.inv hguard hm.listen_eq_none hlookup ht hk₀)
  · have htime : inTime s.host.peers.length msg 0 none = true := by
      simp only [soleRequest, hlookup, Bool.and_eq_true] at hguard
      exact hguard.2
    show Sole s.host.peers.length ([] ++ [msg])
    exact .concat (by simp [requestsOf]) (by simp [requestsOf]) (fun _ => rfl) htime

/-- A handler that has a request after a step had one before, or the step brings it. -/
theorem ApprovalInv.request_step (hm : HostMove s.host e s'.host sent)
    (ht' : s'.host.tasks[i]? = some t') (hk : t'.handler = true) (hne : requestsOf t'.inbox ≠ [])
    (hs : ApprovalInv s) :
    (∃ t, s.host.tasks[i]? = some t ∧ t.handler = true ∧ t.trans.tid = t'.trans.tid ∧
      requestsOf t.inbox ≠ []) ∨
    ∃ msg, e = .receive msg ∧ msg.getRequest.isSome = true ∧ msg.tid = t'.trans.tid ∧
      i = (s.host.ts.lookup msg.tid).getD s.host.tasks.length := by
  -- A message that is not a request adds none.
  have hadd : ∀ (ms : List Message) (msg : Message), t'.inbox = ms ++ [msg] →
      requestsOf ms ≠ [] ∨ msg.getRequest.isSome = true := by
    intro ms msg hinbox
    rw [hinbox, requestsOf_append, requestsOf_singleton] at hne
    cases hget : msg.getRequest with
    | some r => exact .inr rfl
    | none => exact .inl (by simpa [hget] using hne)
  rcases hm.handler_cases ht' hk with ⟨t, ht, hk₀, htid, hinbox⟩ |
    ⟨msg, t, rfl, hlookup, ht, hk₀, htid, hinbox⟩ | ⟨msg, rfl, hlookup, hi, htid, hinbox⟩
  · exact .inl ⟨t, ht, hk₀, htid.symm, by rwa [← hinbox]⟩
  · rcases hadd t.inbox msg hinbox with hold | hreq
    · exact .inl ⟨t, ht, hk₀, htid.symm, hold⟩
    · obtain ⟨t₀, ht₀, htid₀⟩ := hs.inv.listed _ _ hlookup
      obtain rfl : t₀ = t := Option.some.inj (ht₀.symm.trans ht)
      exact .inr ⟨msg, rfl, hreq, htid₀.symm.trans htid.symm, by rw [hlookup]; rfl⟩
  · rcases hadd [] msg hinbox with hold | hreq
    · exact absurd rfl hold
    · exact .inr ⟨msg, rfl, hreq, htid.symm, by rw [hlookup]; exact hi⟩

/-- No two handlers have a request with one id after a step. There may be two handlers with one id,
when a message comes after the first has ended. -/
theorem ApprovalInv.distinct_step (hs : ApprovalInv s) (hguard : soleRequest s e = true)
    (hm : HostMove s.host e s'.host sent) (ht' : s'.host.tasks[i]? = some t')
    (hu' : s'.host.tasks[j]? = some u') (hkt : t'.handler = true) (hku : u'.handler = true)
    (hnet : requestsOf t'.inbox ≠ []) (hneu : requestsOf u'.inbox ≠ [])
    (htid : t'.trans.tid = u'.trans.tid) : i = j := by
  rcases request_step hm ht' hkt hnet hs with ⟨t, ht, hk, htid₀, hne⟩ | ⟨msg, rfl, hreq, hmsg, hi⟩
    <;> rcases request_step hm hu' hku hneu hs with
      ⟨u, hu, hk', htid₁, hne'⟩ | ⟨msg', he, hreq', hmsg', hj⟩
  · exact hs.distinct i j t u ht hu hk hk' hne hne' (by rw [htid₀, htid₁, htid])
  · -- One of the two has its request from before and the other gets it in this step, which the
    -- guard excludes.
    subst he
    exact absurd (soleRequest.first hs.inv hguard hreq' ht hk (by rw [htid₀, htid, hmsg'])) hne
  · exact absurd (soleRequest.first hs.inv hguard hreq hu hk' (by rw [htid₁, ← htid, hmsg])) hne'
  · cases he
    rw [hi, hj]

/-- Every response that was broadcast is a vote of a handler after a step. -/
theorem ApprovalInv.logged_step (hs : ApprovalInv s) (hm : HostMove s.host e s'.host sent)
    (hlog : s'.log = s.log ++ sent.toList) {b : Sent} (hb : b ∈ s'.log) {response : Response}
    (hresp : b.msg.getResponse = some response) :
    ∃ (i : Nat) (t : Task), s'.host.tasks[i]? = some t ∧ t.handler = true ∧
      t.trans.tid = b.msg.tid ∧ ∃ ballot ∈ t.ballots, response = ballot.response := by
  rw [hlog] at hb
  rcases List.mem_append.mp hb with hold | hnew
  · obtain ⟨i, t, ht, hk, htid, ballot, hmem, heq⟩ := hs.logged b hold response hresp
    obtain ⟨t', ht', hext⟩ := hm.extends ht
    refine ⟨i, t', ht', ?_, hext.tid.trans htid, ballot, hext.ballots.subset hmem, heq⟩
    rwa [Task.handler, hext.kind]
  · obtain rfl : sent = some b := by simpa using hnew
    obtain ⟨ref, t, result, rfl, ht, -, ⟨message, hg, hmsg, -⟩ | ⟨msg, ballot, hg, hmsg, ht'⟩⟩ :=
      hm.sent_cases
    · -- What `Replicate` broadcasts is a request.
      have hpoint := (hs.inv.tasks ref t ht).point
      rw [hg] at hpoint
      obtain ⟨-, -, r, rfl, -⟩ := hpoint
      simp [hmsg] at hresp
    · have hinv := hs.inv.tasks ref t ht
      have hpoint := hinv.point
      rw [hg] at hpoint
      obtain ⟨-, -, hmem, -⟩ := hpoint
      refine ⟨ref, _, ht', rfl, ?_, ballot, by simp, ?_⟩
      · rw [hmsg, newResponseMessage_tid, hinv.tids msg hmem]
      · rw [hmsg, newResponseMessage_getResponse] at hresp
        exact (Option.some.inj hresp).symm

/-- A step in which a request comes alone and in time keeps the invariant. -/
theorem ApprovalInv.step (hs : ApprovalInv s)
    (hnext : restrict Logged.next soleRequest s e = some s') : ApprovalInv s' := by
  obtain ⟨hguard, hnext⟩ := restrict_eq_some.mp hnext
  obtain ⟨sent, hm, hlog⟩ := Logged.next_move hnext
  refine ⟨hs.inv.step hm, ?_, ?_, ?_⟩
  · intro i t' ht' hk
    rw [hm.config.2]
    exact hs.sole_step hguard hm ht' hk
  · intro i j t' u' ht' hu' hkt hku hnet hneu htid
    exact hs.distinct_step hguard hm ht' hu' hkt hku hnet hneu htid
  · intro b hb response hresp
    exact hs.logged_step hm hlog hb hresp

/-- At its start a host has approved nothing, and no handler exists. -/
theorem ApprovalInv.init (name : PeerName) (peers : List PeerName) (clock : UInt64) :
    ApprovalInv ⟨Host.start name peers clock, []⟩ :=
  ⟨.init name peers clock, by simp [Host.start], by simp [Host.start], by simp⟩

end Step

/-- A vote for a request is an `ACK` of `Consult` without a conflict. -/
theorem Ballot.approved_of_ack {b : Ballot} (h : b.response.type = .ack) :
    b.verdict.type = .ack ∧ b.conflict = false := by
  unfold Ballot.response at h
  cases hc : b.conflict with
  | true => simp [hc, nack] at h
  | false => exact ⟨by simpa [hc] using h, rfl⟩

/-- A handler votes on the requests among its messages, so one with a ballot has a request. -/
theorem TaskInv.requestsOf_ne_nil {name : PeerName} {n : Nat} {blocked : Bool} {t : Task}
    {b : Ballot} (h : TaskInv name n blocked t) (hk : t.handler = true) (hb : b ∈ t.ballots) :
    requestsOf t.inbox ≠ [] := by
  have hpoint := h.point
  cases hg : t.goroutine with
  | replicate pc => simp [Task.handler, hg, Goroutine.isReplicate] at hk
  | handle pc =>
    rw [hg] at hpoint
    obtain ⟨-, hreq, -⟩ := hpoint
    -- The ballots are on the requests that the handler has taken.
    have hmem : b.request ∈ requestsOf t.seen := by
      rw [hreq]
      exact List.mem_append_left _ (List.mem_map_of_mem hb)
    obtain ⟨m, hm, hr⟩ := mem_requestsOf.mp hmem
    exact List.ne_nil_of_mem (mem_requestsOf.mpr ⟨m, t.seen_subset m hm, hr⟩)

/-- A handler that calls `Mirror.Mirror` has cast one vote, an `ACK` for what it mirrors. It has
taken its `n` messages, with exactly one request among them. A second request would have replaced
the first one in the transaction. -/
theorem ApprovalInv.sole_ballot {s : Logged} {i : Nat} {t : Task} {r : Option Request}
    (hs : ApprovalInv s) (ht : s.host.tasks[i]? = some t) (hk : t.handler = true)
    (hcall : t.goroutine.mirrorCall? = some r) :
    ∃ ballot, t.ballots = [ballot] ∧ r = some ballot.request ∧ ballot.response.type = .ack ∧
      requestsOf t.inbox ≠ [] := by
  have hinv := hs.inv.tasks i t ht
  have hsole := hs.sole i t ht hk
  obtain ⟨htaken, hvote, -, part, hseen, hpart, hr⟩ := hinv.decided_of_mirrorCall hcall
  have hpending := hinv.pending
  obtain ⟨req, hone⟩ := hsole.eq_singleton (by omega)
  have htake : t.seen = t.inbox.take s.host.peers.length := by rw [Task.seen, htaken]
  rw [htake] at hseen
  have hreq : r = some req := by
    rw [hr, hsole.requestsOf_eq hseen hpart, hone]
    rfl
  -- The requests that it has voted on are those it has taken.
  have hballots : requestsOf t.seen = t.ballots.map Ballot.request := by
    have hpoint := hinv.point
    rcases mirrorCall?_eq_some.mp hcall with hg | ⟨r', err, -, hg | hg⟩ <;> rw [hg] at hpoint <;>
      simpa [HandlePc.inProgress] using hpoint.2.1
  rw [htake, hsole.requestsOf_eq (List.prefix_refl _) (List.take_prefix _ _), hone] at hballots
  obtain ⟨ballot, hb, hreq'⟩ := List.map_eq_singleton_iff.mp hballots.symm
  refine ⟨ballot, hb, by rw [hreq, hreq'], ?_, by simp [hone]⟩
  simpa [hb, lastVote] using hvote

/-- For any messages that a host receives, in any order: if of the requests with one id only the
first comes to a handler, while it still takes messages, then what a handler mirrors is a request
that `Consult` approved, without a conflict, and every response that the host broadcast with the id
is an `ACK`. -/
theorem mirrored_approved (name : PeerName) (peers : List PeerName) (clock : UInt64)
    (es : List Event) (s : Logged) (i : Nat) (t : Task) (r : Option Request)
    (hrun : run (restrict Logged.next soleRequest) ⟨Host.start name peers clock, []⟩ es = some s)
    (ht : s.host.tasks[i]? = some t) (hcall : t.goroutine.mirrorCall? = some r) :
    (∃ ballot ∈ t.ballots, r = some ballot.request ∧ ballot.verdict.type = .ack ∧
      ballot.conflict = false) ∧
    ∀ sent ∈ s.log, sent.msg.tid = t.trans.tid → ∀ response,
      sent.msg.getResponse = some response → response.type = .ack := by
  have hs : ApprovalInv s :=
    run_invariant (fun _ _ _ hstep h => h.step hstep) hrun (.init name peers clock)
  have hk : t.handler = true := by
    rcases mirrorCall?_eq_some.mp hcall with hg | ⟨r', err, -, hg | hg⟩ <;>
      simp [Task.handler, hg, Goroutine.isReplicate]
  obtain ⟨ballot, hb, hr, hack, hne⟩ := hs.sole_ballot ht hk hcall
  refine ⟨⟨ballot, by simp [hb], hr, Ballot.approved_of_ack hack⟩, ?_⟩
  intro sent hsent htid response hresp
  obtain ⟨j, u, hu, hku, htid', vote, hmem, rfl⟩ := hs.logged sent hsent response hresp
  -- The vote is on a request, and only one handler of the transaction has one.
  have hneu : requestsOf u.inbox ≠ [] := (hs.inv.tasks j u hu).requestsOf_ne_nil hku hmem
  obtain rfl : j = i := hs.distinct j i u t hu ht hku hk hneu hne (htid'.trans htid)
  obtain rfl : u = t := Option.some.inj (hu.symm.trans ht)
  rw [hb, List.mem_singleton] at hmem
  rw [hmem]
  exact hack

/-- The host `a` with the peer `b` approves a request. The listed events come before the end of its
loop. -/
def approvedRun (late : List Event) : List Event :=
  [.receive (newRequestMessage "t" "b" (mkdirRequest "p" 0)), .notify, .task 0 (.consulted ack),
    .task 0 .run, .task 0 (reaching ["b"])] ++ late ++ [.task 0 .run]

/-- The handler calls `Mirror.Mirror` for the path, after it has voted on the other one. -/
private def mirrors (path voted : String) (s : Logged) : Bool :=
  s.host.tasks[0]?.any fun t =>
    t.goroutine.mirrorCall? = some (some (mkdirRequest path 0)) ∧
      t.ballots = [⟨mkdirRequest voted 0, ack, false⟩]

/-- A transaction with one request. The host approves it and mirrors it, as the theorem says. -/
theorem mirrored_approved_once :
    ∃ s t, run (restrict Logged.next soleRequest) ⟨Host.start "a" ["b"] 0, []⟩ (approvedRun [])
        = some s ∧ s.host.tasks[0]? = some t ∧
      ∃ ballot ∈ t.ballots, some (mkdirRequest "p" 0) = some ballot.request ∧
        ballot.verdict.type = .ack ∧ ballot.conflict = false := by
  have hobs : (run (restrict Logged.next soleRequest) ⟨Host.start "a" ["b"] 0, []⟩
      (approvedRun [])).any (mirrors "p" "p") = true := by decide
  simp only [Option.any_eq_true, mirrors, decide_eq_true_eq] at hobs
  obtain ⟨s, hrun, t, ht, hcall, -⟩ := hobs
  exact ⟨s, t, hrun, ht, (mirrored_approved "a" ["b"] 0 _ s 0 t _ hrun ht hcall).1⟩

/-- A second request with the id comes after the vote. The host mirrors it, and has consulted and
voted on the first one only. -/
theorem mirrored_unapproved :
    ∃ s t, run Logged.next ⟨Host.start "a" ["b"] 0, []⟩
        (approvedRun [.receive (newRequestMessage "t" "b" (mkdirRequest "q" 0))]) = some s ∧
      s.host.tasks[0]? = some t ∧
      t.goroutine.mirrorCall? = some (some (mkdirRequest "q" 0)) ∧
      ∀ ballot ∈ t.ballots, ballot.request ≠ mkdirRequest "q" 0 := by
  have hobs : (run Logged.next ⟨Host.start "a" ["b"] 0, []⟩
      (approvedRun [.receive (newRequestMessage "t" "b" (mkdirRequest "q" 0))])).any
        (mirrors "q" "p") = true := by decide
  simp only [Option.any_eq_true, mirrors, decide_eq_true_eq] at hobs
  obtain ⟨s, hrun, t, ht, hcall, hballots⟩ := hobs
  refine ⟨s, t, hrun, ht, hcall, ?_⟩
  rw [hballots]
  decide

end ReplicatedFs.P2p
