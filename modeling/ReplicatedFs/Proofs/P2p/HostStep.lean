import ReplicatedFs.Library.Indexed
import ReplicatedFs.P2p.Host

/-!
# `ReplicatedFs.Proofs.P2p.HostStep`: what one step of a host can do

The inversion lemmas of the step functions. Every invariant is proved from these, so no later
proof unfolds a step.

* `TaskMove`: the moves of a goroutine, one constructor for each branch of `Replicate` and
  `handleTransaction`. `Task.step_ok` says that there are no others.
* `HostMove`: the steps of a host, with `Host.step_move`.
* `processResponses_ok`: what `processResponses` returns, from the gathered responses.
* `TaskExtends`: how a task grows. `HostMove.extends` says that a step keeps every task and
  lets it grow.
* `TaskChange`: how a task comes about in a step of its host, with `HostMove.change`.
-/

set_option autoImplicit false

namespace ReplicatedFs.P2p

open ReplicatedFs.Protobuf
open Library

/-- The moves of a goroutine. -/
inductive TaskMove (h : Host) (t : Task) : Input → Move → Prop
  | conflict (message : Message) (hg : t.goroutine = .replicate (.check message))
      (hc : detectAndResolveConflict h.table message = .ok true) :
      TaskMove h t .run
        { task := t.goto (.replicate (.leave (some .transactionConflict))), increment := true }
  | pass (message : Message) (hg : t.goroutine = .replicate (.check message))
      (hc : detectAndResolveConflict h.table message = .ok false) :
      TaskMove h t .run { task := t.goto (.replicate (.broadcast message)) }
  | broadcast (message : Message) (result : Broadcast)
      (hg : t.goroutine = .replicate (.broadcast message)) :
      TaskMove h t (.broadcast result)
        { task := t.goto (.replicate (afterBroadcast h.peers result))
          sent := some ⟨message, result.reached h.peers⟩ }
  | giveUp (expected : Nat) (failed : List PeerName) (e : ContextError)
      (hg : t.goroutine = .replicate (.collect expected failed)) (hlt : t.taken < expected) :
      TaskMove h t (.contextDone e)
        { task := t.goto (.replicate (.leave (some (.context e)))) }
  | sendError (expected : Nat) (failed : List PeerName)
      (hg : t.goroutine = .replicate (.collect expected failed))
      (hle : expected ≤ t.taken) (hf : failed ≠ []) :
      TaskMove h t .run { task := t.goto (.replicate (.leave (some (.multiErr failed)))) }
  | process (expected : Nat) (increment : Bool) (result : Option ReplicateError)
      (hg : t.goroutine = .replicate (.collect expected [])) (hle : expected ≤ t.taken)
      (hp : processResponses t.trans.responses = .ok (increment, result)) :
      TaskMove h t .run { task := t.goto (.replicate (.leave result)), increment }
  | depart (result : Option ReplicateError)
      (hg : t.goroutine = .replicate (.leave result)) :
      TaskMove h t .run { task := t.goto (.replicate (.returned result)), delete := true }
  | approve (msg : Message) (request : Request) (response : Response)
      (hg : t.goroutine = .handle (.consult msg request)) (ha : response.type = .ack) :
      TaskMove h t (.consulted response)
        { task := t.goto (.handle (.detect msg request response)) }
  | reject (msg : Message) (request : Request) (response : Response)
      (hg : t.goroutine = .handle (.consult msg request)) (ha : response.type ≠ .ack) :
      TaskMove h t (.consulted response)
        { task := t.goto (.handle (.respond msg ⟨request, response, false⟩)) }
  | detect (msg : Message) (request : Request) (verdict : Response) (b : Bool)
      (hg : t.goroutine = .handle (.detect msg request verdict))
      (hc : detectAndResolveConflict h.table msg = .ok b) :
      TaskMove h t .run
        { task := t.goto (.handle (.respond msg ⟨request, verdict, b⟩)) }
  | respond (msg : Message) (ballot : Ballot) (result : Broadcast)
      (hg : t.goroutine = .handle (.respond msg ballot)) :
      TaskMove h t (.broadcast result)
        { task := { t with goroutine := .handle (.await ballot.response.type)
                           ballots := t.ballots ++ [ballot] }
          sent := some ⟨newResponseMessage msg.tid h.name ballot.response,
            result.reached h.peers⟩ }
  | expire (our : ResponseType) (e : ContextError)
      (hg : t.goroutine = .handle (.await our)) (hlt : t.taken < h.peers.length) :
      TaskMove h t (.contextDone e) { task := t.goto (.handle (.leave (.context e))) }
  | permit (our : ResponseType) (hg : t.goroutine = .handle (.await our))
      (hle : h.peers.length ≤ t.taken) (hp : permitted our t.trans.responses = true) :
      TaskMove h t .run { task := t.goto (.handle (.mirror t.trans.request)) }
  | forbid (our : ResponseType) (hg : t.goroutine = .handle (.await our))
      (hle : h.peers.length ≤ t.taken) (hp : permitted our t.trans.responses = false) :
      TaskMove h t .run { task := t.goto (.handle (.leave .notPermitted)) }
  | mirror (request : Request) (err : Option String)
      (hg : t.goroutine = .handle (.mirror (some request))) :
      TaskMove h t (.mirrored err)
        { task := t.goto (.handle (.leave (.mirrored request err))) }
  | finish (result : HandleResult) (hg : t.goroutine = .handle (.leave result)) :
      TaskMove h t .run { task := t.goto (.handle (.ended result)), delete := true }

/-- `Except.map` succeeds only on a success. Used to invert the steps in which the code may
panic. -/
private theorem exceptMap_eq_ok {ε α β : Type} {f : α → β} {x : Except ε α} {b : β}
    (h : x.map f = .ok b) : ∃ a, x = .ok a ∧ f a = b := by
  cases x with
  | error e => cases h
  | ok a => exact ⟨a, rfl, Except.ok.inj h⟩

/-- `Except.map` fails only on a failure, and with the same error. -/
private theorem exceptMap_eq_error {ε α β : Type} {f : α → β} {x : Except ε α} {e : ε}
    (h : x.map f = .error e) : x = .error e := by
  cases x with
  | error e' => exact congrArg Except.error (Except.error.inj h)
  | ok a => cases h

/-- The moves of `Replicate`. Each point of its code has one move, apart from the wait for
responses: this is left by a context that ends, by an error of `Broadcast`, or by the evaluation of
the responses. -/
private theorem replicateStep_ok {h : Host} {t : Task} {pc : ReplicatePc} {input : Input}
    {m : Move} (hg : t.goroutine = .replicate pc)
    (hs : replicateStep h t pc input = some (.ok m)) : TaskMove h t input m := by
  unfold replicateStep at hs
  split at hs
  · rename_i message
    obtain ⟨b, hb, rfl⟩ := exceptMap_eq_ok (Option.some.inj hs)
    cases b
    · exact .pass message hg hb
    · exact .conflict message hg hb
  · rename_i message result
    cases hs
    exact .broadcast message result hg
  · -- A context that ends is noticed only while `Replicate` waits.
    rename_i expected failed e
    split at hs
    · cases hs
      exact .giveUp expected failed e hg ‹_›
    · cases hs
  · -- All responses are there. The errors of `Broadcast` come before their evaluation.
    rename_i expected failed
    split at hs
    · cases hs
    · rename_i hlt
      split at hs
      · cases hs
        exact .sendError expected failed hg (Nat.le_of_not_lt hlt) ‹_›
      · rename_i hf
        obtain rfl : failed = [] := by simpa using hf
        obtain ⟨⟨increment, result⟩, hp, rfl⟩ := exceptMap_eq_ok (Option.some.inj hs)
        exact .process expected increment result hg (Nat.le_of_not_lt hlt) hp
  · cases hs
    exact .depart _ hg
  · cases hs

/-- The moves of `handleTransaction`, again one for each point of its code, up to the choices that
the code itself makes. An input that does not belong to the point is not a step, which leaves one
case for each point. -/
private theorem handleStep_ok {h : Host} {t : Task} {pc : HandlePc} {input : Input} {m : Move}
    (hg : t.goroutine = .handle pc) (hs : handleStep h t pc input = some (.ok m)) :
    TaskMove h t input m := by
  unfold handleStep at hs
  split at hs
  · split at hs
    · cases hs
      exact .expire _ _ hg ‹_›
    · cases hs
  · rename_i msg request response
    cases hs
    split
    · exact .approve msg request response hg ‹_›
    · exact .reject msg request response hg ‹_›
  · rename_i msg request verdict
    obtain ⟨b, hb, rfl⟩ := exceptMap_eq_ok (Option.some.inj hs)
    exact .detect msg request verdict b hg hb
  · cases hs
    exact .respond _ _ _ hg
  · split at hs
    · cases hs
    · rename_i hlt
      split at hs
      · cases hs
        exact .permit _ hg (Nat.le_of_not_lt hlt) ‹_›
      · rename_i hp
        cases hs
        exact .forbid _ hg (Nat.le_of_not_lt hlt) (by simpa using hp)
  · cases hs
    exact .mirror _ _ hg
  · cases hs
  · cases hs
    exact .finish _ hg
  · cases hs

/-- A goroutine makes one of the moves. The lemmas that follow split on the moves, not on the
code. -/
theorem Task.step_ok {h : Host} {t : Task} {input : Input} {m : Move}
    (hs : t.step h input = some (.ok m)) : TaskMove h t input m := by
  unfold Task.step at hs
  split at hs
  · exact replicateStep_ok ‹_› hs
  · exact handleStep_ok ‹_› hs

/-- The steps of a host. -/
inductive HostMove (h : Host) : Event → Host → Option Sent → Prop
  | replicate (tid : TransactionID) (request : Request) (hfresh : h.ts.lookup tid = none) :
      HostMove h (.replicate tid request)
        { h with
            ts := h.ts.insert tid h.tasks.length
            tasks := h.tasks ++
              [{ trans := ⟨tid, h.name, some request, []⟩
                 goroutine := .replicate (.check (newRequestMessage tid h.name request)) }] }
        none
  | join (msg : Message) (ref : Nat) (hl : h.listen = none)
      (hlookup : h.ts.lookup msg.tid = some ref) :
      HostMove h (.receive msg)
        { h with
            tasks := h.tasks.modify ref fun t =>
              { t with trans := t.trans.put msg, inbox := t.inbox ++ [msg] }
            listen := some (ref, msg) }
        none
  | spawn (msg : Message) (hl : h.listen = none) (hlookup : h.ts.lookup msg.tid = none) :
      HostMove h (.receive msg)
        { h with
            ts := h.ts.insert msg.tid h.tasks.length
            tasks := h.tasks ++
              [{ trans := Transaction.put { tid := msg.tid } msg
                 goroutine := .handle (.await .ack)
                 inbox := [msg] }]
            listen := some (h.tasks.length, msg) }
        none
  | notify (ref : Nat) (msg : Message) (t : Task) (hl : h.listen = some (ref, msg))
      (ht : h.tasks[ref]? = some t) (hr : t.receiving h.peers.length = true) :
      HostMove h .notify
        { h with tasks := h.tasks.set ref (t.notified msg), listen := none } none
  | task (ref : Nat) (input : Input) (t : Task) (m : Move) (ht : h.tasks[ref]? = some t)
      (hm : TaskMove h t input m) :
      HostMove h (.task ref input) (h.apply ref m) m.sent
  | panic (ref : Nat) (input : Input) (t : Task) (p : Panic) (ht : h.tasks[ref]? = some t)
      (hp : t.step h input = some (.error p)) :
      HostMove h (.task ref input) { h with panicked := some p } none

/-- Changing the element that was just appended. A transaction is made and gets its first message in
one step. -/
private theorem modify_append_length {α : Type} (l : List α) (a : α) (f : α → α) :
    (l ++ [a]).modify l.length f = l ++ [f a] := by
  induction l with
  | nil => rfl
  | cons b l ih => simpa using ih

/-- The steps of `listen` on its way through `Put`: the message joins a transaction that is in the
map, or a new one with a new handler. -/
private theorem deliver_move {h : Host} {msg : Message} (hl : h.listen = none) :
    HostMove h (.receive msg) (h.deliver msg) none := by
  cases hlookup : h.ts.lookup msg.tid with
  | some ref =>
    have he : h.deliver msg =
        { h with
            tasks := h.tasks.modify ref fun t =>
              { t with trans := t.trans.put msg, inbox := t.inbox ++ [msg] }
            listen := some (ref, msg) } := by
      -- `Put` and the history of the inbox modify the same task.
      simp only [Host.deliver, Host.put, hlookup, List.modify_modify_eq]
      rfl
    rw [he]
    exact .join msg ref hl hlookup
  | none =>
    have he : h.deliver msg =
        { h with
            ts := h.ts.insert msg.tid h.tasks.length
            tasks := h.tasks ++
              [{ trans := Transaction.put { tid := msg.tid } msg
                 goroutine := .handle (.await .ack)
                 inbox := [msg] }]
            listen := some (h.tasks.length, msg) } := by
      simp only [Host.deliver, Host.put, hlookup, modify_append_length, List.nil_append]
    rw [he]
    exact .spawn msg hl hlookup

/-- A host makes one of the steps, and only while it has not panicked. The theorems on hosts split
on `HostMove`. So when the code of a host changes, this lemma and the moves have to be adapted, and
not the theorems. -/
theorem Host.step_move {h h' : Host} {e : Event} {sent : Option Sent}
    (hs : h.step e = some (h', sent)) : h.panicked = none ∧ HostMove h e h' sent := by
  unfold Host.step at hs
  split at hs
  · cases hs
  rename_i hp
  refine ⟨by simpa using hp, ?_⟩
  split at hs
  · rename_i tid request
    split at hs
    · cases hs
    · rename_i hfresh
      -- The id is fresh, so `Put` makes a new transaction.
      have hnone : h.ts.lookup tid = none := by simpa using hfresh
      cases hs
      simp only [Host.put, newRequestMessage_tid, hnone]
      exact .replicate tid request hnone
  · split at hs
    · cases hs
    · rename_i hl
      cases hs
      exact deliver_move (by simpa using hl)
  · split at hs
    · cases hs
    · split at hs
      · cases hs
      · split at hs
        · cases hs
          exact .notify _ _ _ ‹_› ‹_› ‹_›
        · cases hs
  · split at hs
    · cases hs
    · split at hs
      · cases hs
      · cases hs
        exact .panic _ _ _ _ ‹_› ‹_›
      · cases hs
        exact .task _ _ _ _ ‹_› (Task.step_ok ‹_›)

/-- The points at which a step panics: a conflict check, the evaluation of the responses, and
`Mirror.Mirror` with a nil request. To show that a host does not panic, it is enough to look at
these three, and the data that they read. -/
theorem Task.step_error {h : Host} {t : Task} {input : Input} {p : Panic}
    (hs : t.step h input = some (.error p)) :
    (∃ msg, (t.goroutine = .replicate (.check msg) ∨
        ∃ request verdict, t.goroutine = .handle (.detect msg request verdict)) ∧
      detectAndResolveConflict h.table msg = .error p) ∨
    (∃ expected failed, t.goroutine = .replicate (.collect expected failed) ∧
      processResponses t.trans.responses = .error p) ∨
    t.goroutine = .handle (.mirror none) := by
  unfold Task.step at hs
  split at hs
  · unfold replicateStep at hs
    split at hs
    · exact .inl ⟨_, .inl ‹_›, exceptMap_eq_error (Option.some.inj hs)⟩
    · cases hs
    · split at hs <;> cases hs
    · split at hs
      · cases hs
      · split at hs
        · cases hs
        · exact .inr (.inl ⟨_, _, ‹_›, exceptMap_eq_error (Option.some.inj hs)⟩)
    · cases hs
    · cases hs
  · unfold handleStep at hs
    split at hs
    · split at hs <;> cases hs
    · cases hs
    · exact .inl ⟨_, .inr ⟨_, _, ‹_›⟩, exceptMap_eq_error (Option.some.inj hs)⟩
    · cases hs
    · split at hs
      · cases hs
      · split at hs <;> cases hs
    · cases hs
    · exact .inr (.inr ‹_›)
    · cases hs
    · cases hs

/-- `processResponses` does not panic when every `NACK` carries its error. -/
theorem processResponses_ok_of_errors {rs : List Response}
    (h : ∀ r ∈ rs, r.type = .nack → r.error.isSome) : ∃ v, processResponses rs = .ok v := by
  have hnack : ∃ es, nackErrors rs = .ok es := by
    induction rs with
    | nil => exact ⟨[], rfl⟩
    | cons r rs ih =>
      obtain ⟨es, hes⟩ := ih fun r' hr' => h r' (by simp [hr'])
      by_cases hr : r.type = .nack
      · obtain ⟨e, he⟩ := Option.isSome_iff_exists.mp (h r (by simp) hr)
        exact ⟨e :: es, by simp [nackErrors, hr, he, hes, Except.map]⟩
      · exact ⟨es, by simp [nackErrors, hr, hes]⟩
  obtain ⟨es, hes⟩ := hnack
  exact ⟨_, by rw [processResponses, hes]; rfl⟩

/-- `nackErrors` collects the errors of the `NACK`s. It panics when one of them has no error, so
they all have one here. -/
theorem nackErrors_ok {rs : List Response} {es : List ResponseError}
    (h : nackErrors rs = .ok es) :
    (∀ e, e ∈ es ↔ ∃ r ∈ rs, r.type = .nack ∧ r.error = some e) ∧
    (es = [] ↔ ∀ r ∈ rs, r.type ≠ .nack) := by
  -- The recursion of `nackErrors`: a NACK without an error is where it fails, and everything else
  -- is skipped or collected.
  induction rs generalizing es with
  | nil =>
    cases h
    simp
  | cons r rs ih =>
    unfold nackErrors at h
    split at h
    · rename_i hr
      split at h
      · cases h
      · rename_i e he
        obtain ⟨es', hes', rfl⟩ := exceptMap_eq_ok h
        obtain ⟨hmem, -⟩ := ih hes'
        refine ⟨fun e' => ?_, by simp [hr]⟩
        simp [hmem, hr, he, eq_comm]
    · rename_i hr
      obtain ⟨hmem, hnil⟩ := ih h
      exact ⟨fun e => by simp [hmem, hr], by simp [hnil, hr]⟩

/-- `processResponses` permits exactly when nothing gathered is a `NACK`. The clock is
incremented exactly when there is a `NACK` and every `NACK` is for a conflict. -/
theorem processResponses_ok {rs : List Response} {increment : Bool}
    {result : Option ReplicateError} (h : processResponses rs = .ok (increment, result)) :
    (result = none ∧ increment = false ∧ (∀ r ∈ rs, r.type ≠ .nack)) ∨
    (result = some .notPermitted ∧ (∃ r ∈ rs, r.type = .nack) ∧
      ((∀ r ∈ rs, r.type = .nack → r.error = some .transactionConflict) →
        increment = true)) := by
  obtain ⟨es, hes, he⟩ := exceptMap_eq_ok h
  obtain ⟨hmem, hnil⟩ := nackErrors_ok hes
  simp only [Prod.mk.injEq] at he
  obtain ⟨rfl, rfl⟩ := he
  cases es with
  | nil => exact .inl ⟨rfl, rfl, hnil.mp rfl⟩
  | cons e es =>
    obtain ⟨r, hr, hnack, -⟩ := (hmem e).mp (by simp)
    refine .inr ⟨rfl, ⟨r, hr, hnack⟩, fun hall => ?_⟩
    -- Every collected error is a conflict, so the count of the others is zero.
    have hconflict : ∀ e' ∈ e :: es, e' = .transactionConflict := by
      intro e' he'
      obtain ⟨r', hr', hn', herr⟩ := (hmem e').mp he'
      exact Option.some.inj (herr.symm.trans (hall r' hr' hn'))
    simpa [hconflict e (by simp)] using fun e' he' => hconflict e' (List.mem_cons_of_mem e he')

/-- The reader is a `Replicate` call. -/
def Goroutine.isReplicate : Goroutine → Bool
  | .replicate _ => true
  | .handle _ => false

/-- The `Replicate` call has handed its request to `broadcast`. -/
def Goroutine.asked : Goroutine → Bool
  | .replicate (.collect _ _) => true
  | .replicate (.leave r) | .replicate (.returned r) => r ≠ some .transactionConflict
  | _ => false

/-- The result of a `Replicate` call that is past its decision. -/
def Goroutine.result? : Goroutine → Option (Option ReplicateError)
  | .replicate (.leave r) | .replicate (.returned r) => some r
  | _ => none

/-- The result of a `handleTransaction` call that is past its decision. -/
def Goroutine.outcome? : Goroutine → Option HandleResult
  | .handle (.leave r) | .handle (.ended r) => some r
  | _ => none

/-- The argument of `Mirror.Mirror`, once `handleTransaction` called it. -/
def Goroutine.mirrorCall? : Goroutine → Option (Option Request)
  | .handle (.mirror req) => some req
  | .handle (.leave (.mirrored req _)) | .handle (.ended (.mirrored req _)) => some (some req)
  | _ => none

/-- A `Replicate` has its result before and after the deferred `Delete`. -/
theorem result?_eq_some {g : Goroutine} {r : Option ReplicateError} :
    g.result? = some r ↔ g = .replicate (.leave r) ∨ g = .replicate (.returned r) := by
  unfold Goroutine.result?
  split <;> simp_all

/-- A handler has its outcome before and after the `Delete` of the closure. -/
theorem outcome?_eq_some {g : Goroutine} {r : HandleResult} :
    g.outcome? = some r ↔ g = .handle (.leave r) ∨ g = .handle (.ended r) := by
  unfold Goroutine.outcome?
  split <;> simp_all

/-- A handler has called `Mirror.Mirror` when it is in the call, or when the call has returned. -/
theorem mirrorCall?_eq_some {g : Goroutine} {req : Option Request} :
    g.mirrorCall? = some req ↔ g = .handle (.mirror req) ∨
      ∃ r err, req = some r ∧
        (g = .handle (.leave (.mirrored r err)) ∨ g = .handle (.ended (.mirrored r err))) := by
  unfold Goroutine.mirrorCall?
  split <;> simp_all [eq_comm]

/-- The vote that `handleTransaction` is about to broadcast. -/
def Goroutine.vote? : Goroutine → Option Ballot
  | .handle (.respond _ ballot) => some ballot
  | _ => none

/-- After its broadcast `Replicate` has been refused, has no peer that it reached, or collects
responses. In the third case some of the sends may have failed. Their errors are kept and returned
after the responses have come. -/
theorem afterBroadcast_cases (peers : List PeerName) (result : Broadcast) :
    (∃ reason, result = .refused reason ∧
      afterBroadcast peers result = .leave (some (.refused reason))) ∨
    (∃ failed reached errs, result = .sent failed reached ∧ (∀ p ∈ peers, p ∈ failed) ∧
      afterBroadcast peers result = .leave (some (.multiErr errs))) ∨
    ∃ expected errs, afterBroadcast peers result = .collect expected errs := by
  cases result with
  | refused reason => exact .inl ⟨reason, rfl, rfl⟩
  | sent failed reached =>
    by_cases hall : peers.filter (· ∈ failed) ≠ [] ∧
        (peers.filter (· ∈ failed)).length = peers.length
    · -- As many failures as peers: the message has reached nobody.
      have hfailed : ∀ p ∈ peers, p ∈ failed := by
        simpa using List.length_filter_eq_length_iff.mp hall.2
      exact .inr (.inl ⟨failed, reached, _, rfl, hfailed, if_pos hall⟩)
    · exact .inr (.inr ⟨_, _, if_neg hall⟩)

section AfterBroadcast
variable (peers : List PeerName) (result : Broadcast)

/-- After the broadcast the `Delete` is still ahead, whatever the broadcast came to. -/
@[simp] theorem alive_afterBroadcast :
    (Goroutine.replicate (afterBroadcast peers result)).alive = true := by
  rcases afterBroadcast_cases peers result with ⟨_, -, h⟩ | ⟨_, _, _, -, -, h⟩ | ⟨_, _, h⟩ <;>
    rw [h] <;> rfl

/-- After the broadcast the peers have been asked, also when it failed: some of them may have got
the request. -/
@[simp] theorem asked_afterBroadcast :
    (Goroutine.replicate (afterBroadcast peers result)).asked = true := by
  rcases afterBroadcast_cases peers result with ⟨_, -, h⟩ | ⟨_, _, _, -, -, h⟩ | ⟨_, _, h⟩ <;>
    simp [h, Goroutine.asked]

/-- A `Replicate` has no vote to broadcast. Only handlers vote. -/
@[simp] theorem vote?_afterBroadcast :
    (Goroutine.replicate (afterBroadcast peers result)).vote? = none := rfl

end AfterBroadcast

/-- The votes of `handleTransaction`, with the one it is about to broadcast. -/
def Task.votes (t : Task) : List Ballot := t.ballots ++ t.goroutine.vote?.toList

/-- `t'` is `t` some steps later. -/
structure TaskExtends (t t' : Task) : Prop where
  tid : t'.trans.tid = t.trans.tid
  kind : t'.goroutine.isReplicate = t.goroutine.isReplicate
  inbox : t.inbox <+: t'.inbox
  ballots : t.ballots <+: t'.ballots
  votes : t.votes <+: t'.votes
  taken : t.taken ≤ t'.taken
  alive : t'.goroutine.alive = true → t.goroutine.alive = true
  asked : t.goroutine.asked = true → t'.goroutine.asked = true
  result : ∀ r, t.goroutine.result? = some r → t'.goroutine.result? = some r
  outcome : ∀ r, t.goroutine.outcome? = some r → t'.goroutine.outcome? = some r
  mirrorCall : ∀ r, t.goroutine.mirrorCall? = some r → t'.goroutine.mirrorCall? = some r
  refused : t.goroutine.asked = true → ∀ e, t'.goroutine.result? = some (some (.refused e)) →
    t.goroutine.result? = some (some (.refused e))
  request : (∀ m ∈ t'.inbox, m.getRequest = none) →
    t'.trans.request = t.trans.request ∧ t'.trans.initiatorName = t.trans.initiatorName

/-- A task extends itself. This is the case of a step that another task makes. -/
theorem TaskExtends.refl (t : Task) : TaskExtends t t :=
  ⟨rfl, rfl, List.prefix_refl _, List.prefix_refl _, List.prefix_refl _, Nat.le_refl _, id, id,
    fun _ => id, fun _ => id, fun _ => id, fun _ _ => id, fun _ => ⟨rfl, rfl⟩⟩

/-- Extending is transitive, so it carries over from the steps to the runs. -/
theorem TaskExtends.trans {t t' t'' : Task} (h : TaskExtends t t') (h' : TaskExtends t' t'') :
    TaskExtends t t'' where
  tid := h'.tid.trans h.tid
  kind := h'.kind.trans h.kind
  inbox := h.inbox.trans h'.inbox
  ballots := h.ballots.trans h'.ballots
  votes := h.votes.trans h'.votes
  taken := h.taken.trans h'.taken
  alive ha := h.alive (h'.alive ha)
  asked ha := h'.asked (h.asked ha)
  result r hr := h'.result r (h.result r hr)
  outcome r hr := h'.outcome r (h.outcome r hr)
  mirrorCall r hr := h'.mirrorCall r (h.mirrorCall r hr)
  refused ha e he := h.refused ha e (h'.refused (h.asked ha) e he)
  request hnone := by
    obtain ⟨hr', hn'⟩ := h'.request hnone
    obtain ⟨hr, hn⟩ := h.request fun m hm => hnone m (h'.inbox.subset hm)
    exact ⟨hr'.trans hr, hn'.trans hn⟩

/-- A task that only moved to another point of its code. What it has decided so far has to stay. -/
private theorem taskExtends_goto {t : Task} {g : Goroutine}
    (hkind : g.isReplicate = t.goroutine.isReplicate)
    (halive : t.goroutine.alive = true)
    (hvote : t.goroutine.vote? = none)
    (hasked : t.goroutine.asked = true → g.asked = true)
    (hresult : ∀ r, t.goroutine.result? = some r → g.result? = some r)
    (houtcome : ∀ r, t.goroutine.outcome? = some r → g.outcome? = some r)
    (hmirror : ∀ r, t.goroutine.mirrorCall? = some r → g.mirrorCall? = some r)
    (hrefused : t.goroutine.asked = true → ∀ e, g.result? = some (some (.refused e)) →
      t.goroutine.result? = some (some (.refused e))) :
    TaskExtends t (t.goto g) :=
  ⟨rfl, hkind, List.prefix_refl _, List.prefix_refl _, by simp [Task.votes, Task.goto, hvote],
    Nat.le_refl _, fun _ => halive, hasked, hresult, houtcome, hmirror, hrefused,
    fun _ => ⟨rfl, rfl⟩⟩

/-- The result of `processResponses` is not the conflict of the local check. -/
theorem processResponses_ne_conflict {rs : List Response} {increment : Bool}
    {result : Option ReplicateError} (h : processResponses rs = .ok (increment, result)) :
    result ≠ some .transactionConflict := by
  rcases processResponses_ok h with ⟨rfl, -⟩ | ⟨rfl, -⟩ <;> simp

/-- A goroutine that can move has not deleted its transaction. Deleting it is the last thing that a
reader does. -/
theorem TaskMove.alive {h : Host} {t : Task} {input : Input} {m : Move}
    (hm : TaskMove h t input m) : t.goroutine.alive = true := by
  cases hm <;> rename_i hg <;> simp_all [Goroutine.alive]

/-- A move takes no message and stores none. Only `listen` does, when it puts a message and hands it
over. -/
theorem TaskMove.data_eq {h : Host} {t : Task} {input : Input} {m : Move}
    (hm : TaskMove h t input m) :
    m.task.trans = t.trans ∧ m.task.taken = t.taken ∧ m.task.inbox = t.inbox := by
  cases hm <;> exact ⟨rfl, rfl, rfl⟩

/-- A move extends its task. Most moves only go to another point of the code, and those that need
more than a look at it are written out: a broadcast adds a ballot, and the end of `Mirror.Mirror`
has to keep what was mirrored. -/
theorem TaskMove.extends {h : Host} {t : Task} {input : Input} {m : Move}
    (hm : TaskMove h t input m) : TaskExtends t m.task := by
  have ha := hm.alive
  cases hm with
  | respond msg ballot result hg =>
    exact ⟨rfl, by simp [hg, Goroutine.isReplicate], List.prefix_refl _,
      List.prefix_append _ _, by simp [Task.votes, hg, Goroutine.vote?], Nat.le_refl _,
      fun _ => ha, by simp [hg, Goroutine.asked],
      by simp [hg, Goroutine.result?], by simp [hg, Goroutine.outcome?],
      by simp [hg, Goroutine.mirrorCall?], by simp [hg, Goroutine.asked],
      fun _ => ⟨rfl, rfl⟩⟩
  | process expected increment result hg hle hp =>
    refine taskExtends_goto (by simp [hg, Goroutine.isReplicate]) ha
      (by simp [hg, Goroutine.vote?]) (fun _ => ?_)
      (by simp [hg, Goroutine.result?]) (by simp [hg, Goroutine.outcome?])
      (by simp [hg, Goroutine.mirrorCall?]) ?_
    · simpa [Goroutine.asked] using processResponses_ne_conflict hp
    · rcases processResponses_ok hp with ⟨rfl, -⟩ | ⟨rfl, -⟩ <;> simp [Goroutine.result?]
  -- A handler that was told to mirror ends with the result of it, and `mirrorCall?` reads it there.
  | finish result hg =>
    refine taskExtends_goto (by simp [hg, Goroutine.isReplicate]) ha
      (by simp [hg, Goroutine.vote?]) (by simp [hg, Goroutine.asked])
      (by simp [hg, Goroutine.result?]) (by simp [hg, Goroutine.outcome?]) ?_
      (by simp [hg, Goroutine.asked])
    cases result <;> simp [hg, Goroutine.mirrorCall?]
  | _ =>
    rename_i hg
    apply taskExtends_goto <;>
      simp_all [Goroutine.isReplicate, Goroutine.asked, Goroutine.result?,
        Goroutine.outcome?, Goroutine.mirrorCall?, Goroutine.vote?]

/-- A reader at a receive has not deleted its transaction, so the map still leads to it. -/
theorem Task.receiving_alive {n : Nat} {t : Task} (h : t.receiving n = true) :
    t.goroutine.alive = true := by
  unfold Task.receiving at h
  split at h <;> simp_all [Goroutine.alive]

/-- Taking a message extends the task. It keeps its id, its inbox and its ballots. -/
theorem Task.notified_extends {n : Nat} {t : Task} {msg : Message}
    (h : t.receiving n = true) : TaskExtends t (t.notified msg) := by
  have ha := t.receiving_alive h
  unfold Task.notified
  split
  · rename_i our request hg hr
    exact ⟨rfl, by simp [hg, Goroutine.isReplicate], List.prefix_refl _, List.prefix_refl _,
      by simp [Task.votes, hg, Goroutine.vote?], Nat.le_succ _, fun _ => ha,
      by simp [hg, Goroutine.asked], by simp [hg, Goroutine.result?],
      by simp [hg, Goroutine.outcome?], by simp [hg, Goroutine.mirrorCall?],
      by simp [hg, Goroutine.asked], fun _ => ⟨rfl, rfl⟩⟩
  · exact ⟨rfl, rfl, List.prefix_refl _, List.prefix_refl _, List.prefix_refl _, Nat.le_succ _,
      id, id, fun _ => id, fun _ => id, fun _ => id, fun _ _ => id, fun _ => ⟨rfl, rfl⟩⟩

/-- A step keeps every task and lets it grow. This is what makes facts about tasks stable: what has
been voted, returned or mirrored stays so for the rest of a run. -/
theorem HostMove.extends {h h' : Host} {e : Event} {sent : Option Sent}
    (hm : HostMove h e h' sent) {i : Nat} {t : Task} (ht : h.tasks[i]? = some t) :
    ∃ t', h'.tasks[i]? = some t' ∧ TaskExtends t t' := by
  cases hm with
  | replicate tid request hfresh =>
    exact ⟨t, getElem?_concat_eq_some.mpr (.inl ht), .refl t⟩
  -- Of all steps only this one changes a transaction from outside its reader.
  | join msg ref hl hlookup =>
    by_cases hi : i = ref
    · refine ⟨_, getElem?_modify_eq_some.mpr (.inl ⟨hi, t, ht, rfl⟩), ?_⟩
      refine ⟨by simp, rfl, List.prefix_append _ _, List.prefix_refl _, List.prefix_refl _,
        Nat.le_refl _, id, id, fun _ => id, fun _ => id, fun _ => id, fun _ _ => id,
        fun hnone => ?_⟩
      have hmsg : msg.getRequest = none := hnone msg (by simp)
      simp [Transaction.put_request, Transaction.put_initiatorName, hmsg]
    · exact ⟨t, getElem?_modify_eq_some.mpr (.inr ⟨hi, ht⟩), .refl t⟩
  | spawn msg hl hlookup => exact ⟨t, getElem?_concat_eq_some.mpr (.inl ht), .refl t⟩
  | notify ref msg t₀ hl ht₀ hr =>
    by_cases hi : i = ref
    · subst hi
      obtain rfl : t₀ = t := Option.some.inj (ht₀.symm.trans ht)
      exact ⟨_, getElem?_set_self ht, t₀.notified_extends hr⟩
    · exact ⟨t, getElem?_set_of_ne hi ht, .refl t⟩
  | task ref input t₀ m ht₀ hm =>
    by_cases hi : i = ref
    · subst hi
      obtain rfl : t₀ = t := Option.some.inj (ht₀.symm.trans ht)
      exact ⟨_, getElem?_set_self ht, hm.extends⟩
    · exact ⟨t, getElem?_set_of_ne hi ht, .refl t⟩
  | panic ref input t₀ p ht₀ hp => exact ⟨t, ht, .refl t⟩

/-- How the task at the index `i` comes about in a step. The first task is the one before the
step, if there was one. -/
inductive TaskChange (h : Host) (i : Nat) : Event → Option Sent → Option Task → Task → Prop
  | same (e : Event) (sent : Option Sent) (t : Task) : TaskChange h i e sent (some t) t
  | call (tid : TransactionID) (request : Request) (hfresh : h.ts.lookup tid = none) :
      TaskChange h i (.replicate tid request) none none
        { trans := ⟨tid, h.name, some request, []⟩
          goroutine := .replicate (.check (newRequestMessage tid h.name request)) }
  | join (msg : Message) (t : Task) (hlookup : h.ts.lookup msg.tid = some i) :
      TaskChange h i (.receive msg) none (some t)
        { t with trans := t.trans.put msg, inbox := t.inbox ++ [msg] }
  | spawn (msg : Message) (hlookup : h.ts.lookup msg.tid = none) :
      TaskChange h i (.receive msg) none none
        { trans := Transaction.put { tid := msg.tid } msg
          goroutine := .handle (.await .ack)
          inbox := [msg] }
  | notify (msg : Message) (t : Task) (hl : h.listen = some (i, msg))
      (hr : t.receiving h.peers.length = true) :
      TaskChange h i .notify none (some t) (t.notified msg)
  | move (input : Input) (t : Task) (m : Move) (hm : TaskMove h t input m) :
      TaskChange h i (.task i input) m.sent (some t) m.task

/-- Every task after a step comes about in one of these ways. Where `HostMove` speaks about the
host, this speaks about one task, so an invariant of all tasks is proved by a case split on it. -/
theorem HostMove.change {h h' : Host} {e : Event} {sent : Option Sent}
    (hm : HostMove h e h' sent) {i : Nat} {t' : Task} (ht' : h'.tasks[i]? = some t') :
    TaskChange h i e sent h.tasks[i]? t' := by
  cases hm with
  | replicate tid request hfresh =>
    rcases getElem?_concat_eq_some.mp ht' with ht | ⟨rfl, rfl⟩
    · rw [ht]
      exact .same _ _ t'
    · rw [List.getElem?_length]
      exact .call tid request hfresh
  | join msg ref hl hlookup =>
    rcases getElem?_modify_eq_some.mp ht' with ⟨rfl, t, ht, rfl⟩ | ⟨-, ht⟩
    · rw [ht]
      exact .join msg t hlookup
    · rw [ht]
      exact .same _ _ t'
  | spawn msg hl hlookup =>
    rcases getElem?_concat_eq_some.mp ht' with ht | ⟨rfl, rfl⟩
    · rw [ht]
      exact .same _ _ t'
    · rw [List.getElem?_length]
      exact .spawn msg hlookup
  | notify ref msg t hl ht hr =>
    rcases getElem?_set_eq_some.mp ht' with ⟨rfl, -, rfl⟩ | ⟨-, ht'⟩
    · rw [ht]
      exact .notify msg t hl hr
    · rw [ht']
      exact .same _ _ t'
  | task ref input t m ht hm =>
    rcases getElem?_set_eq_some.mp ht' with ⟨rfl, -, rfl⟩ | ⟨-, ht'⟩
    · rw [ht]
      exact .move input t m hm
    · rw [ht']
      exact .same _ _ t'
  | panic ref input t₀ p ht₀ hp =>
    rw [show h.tasks[i]? = some t' from ht']
    exact .same _ _ t'

/-- A step changes neither the name nor the peers of the host. All other fields may change. -/
theorem HostMove.config {h h' : Host} {e : Event} {sent : Option Sent}
    (hm : HostMove h e h' sent) : h'.name = h.name ∧ h'.peers = h.peers := by
  cases hm <;> exact ⟨rfl, rfl⟩

/-- A step adds at most one task: that of a new call, or that of a transaction which `listen`
makes. -/
theorem HostMove.length_tasks_le {h h' : Host} {e : Event} {sent : Option Sent}
    (hm : HostMove h e h' sent) : h'.tasks.length ≤ h.tasks.length + 1 := by
  cases hm <;> simp [Host.apply]

/-- A `Conn.Broadcast` is made by a `Replicate` call with its request or by a handler with its vote.
Nothing else sends a message, and both are at the point of their code where they wait for the result
of the broadcast. -/
theorem HostMove.sent_cases {h h' : Host} {e : Event} {b : Sent}
    (hm : HostMove h e h' (some b)) :
    ∃ ref t result, e = .task ref (.broadcast result) ∧ h.tasks[ref]? = some t ∧
      b.reached = result.reached h.peers ∧
      ((∃ message, t.goroutine = .replicate (.broadcast message) ∧ b.msg = message ∧
          h'.tasks[ref]? = some (t.goto (.replicate (afterBroadcast h.peers result)))) ∨
        ∃ msg ballot, t.goroutine = .handle (.respond msg ballot) ∧
          b.msg = newResponseMessage msg.tid h.name ballot.response ∧
          h'.tasks[ref]? = some { t with
            goroutine := .handle (.await ballot.response.type)
            ballots := t.ballots ++ [ballot] }) := by
  -- The index of `HostMove` has to be a variable for the case split.
  generalize hs : some b = sent at hm
  cases hm with
  | task ref input t m ht hm =>
    cases hm with
    | broadcast message result hg =>
      cases hs
      exact ⟨ref, t, result, rfl, ht, rfl, .inl ⟨message, hg, rfl, getElem?_set_self ht⟩⟩
    | respond msg ballot result hg =>
      cases hs
      exact ⟨ref, t, result, rfl, ht, rfl, .inr ⟨msg, ballot, hg, rfl, getElem?_set_self ht⟩⟩
    | _ => cases hs
  | _ => cases hs

end ReplicatedFs.P2p
