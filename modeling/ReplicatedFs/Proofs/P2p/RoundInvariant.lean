import ReplicatedFs.Proofs.P2p.Conflicts

/-!
# `ReplicatedFs.Proofs.P2p.RoundInvariant`: hosts that contend for one path

In a round, every host of a set calls `Replicate` once, on the same paths and with its own
conflicts clock. No fault occurs, and `Mirror.Consult` answers `ACK` to everything. A round
starts in a finished state, so what earlier rounds left behind takes no part in it.

`RoundInv` holds in every state of a round (`RoundInv.run`):

* the tasks and messages of the round have ids of their own (`fresh`, `flight`);
* a call carries the clock that its host had at the start (`calls`);
* the clock of a host grows by one when its call fails, and not otherwise (`clock_failed`,
  `clock_kept`);
* whoever is refused has a smaller rank than another contender (`refused`).
-/

set_option autoImplicit false

namespace ReplicatedFs.P2p

open ReplicatedFs.Protobuf
open Library

/-- The host `x` has called `Replicate` since the state `s₀`. -/
def System.called (s₀ s : System) (x : PeerName) : Bool :=
  ((s.hosts x).tasks.drop (s₀.hosts x).tasks.length).any fun t => t.goroutine.isReplicate

/-- The request is on these paths. -/
def onPaths (path newPath : String) (r : Request) : Bool :=
  r.metadata.any fun m => m.relativePath = path ∧ m.newRelativePath = newPath

/-- What a round that started in `s₀` admits: one call of each contender, on the paths and with
its own clock, and only verdicts `ACK`. -/
def roundGuard (contenders : List PeerName) (path newPath : String) (s₀ s : System) :
    Action → Bool
  | .host x (.replicate _ r) =>
    x ∈ contenders ∧ s₀.called s x = false ∧ onPaths path newPath r = true ∧
      r.clock = (s.hosts x).clock
  | .host _ (.task _ (.consulted response)) => response.type = .ack
  | _ => true

/-- The steps of a round that started in `s₀`. -/
def roundStep (c : Cluster) (contenders : List PeerName) (path newPath : String)
    (s₀ : System) : System → Action → Option System :=
  restrict (System.stepFF c) (roundGuard contenders path newPath s₀)

/-- The call failed. -/
def Task.failed (t : Task) : Bool := t.goroutine.result?.any Option.isSome

/-- The invariant of a round that started in `s₀`. The tasks of the round are those that `s₀`
does not have. -/
structure RoundInv (contenders : List PeerName) (path newPath : String) (s₀ s : System) :
    Prop where
  old : ∀ {x i t}, s₀.task? x i = some t → s.task? x i = some t
  fresh : ∀ {x i t}, s.task? x i = some t → s₀.task? x i = none →
    ∀ y j u, s₀.task? y j = some u → u.trans.tid ≠ t.trans.tid
  flight : ∀ {z m}, (z, m) ∈ s.inFlight →
    ∀ y j u, s₀.task? y j = some u → u.trans.tid ≠ m.tid
  acked : ∀ {x i t}, s.task? x i = some t → s₀.task? x i = none →
    ∀ b ∈ t.votes, b.verdict.type = .ack
  calls : ∀ {x i t}, s.task? x i = some t → s₀.task? x i = none →
    t.goroutine.isReplicate = true → x ∈ contenders ∧ ∃ r, t.trans.request = some r ∧
      onPaths path newPath r = true ∧ r.clock = (s₀.hosts x).clock
  once : ∀ {x i t j u}, s.task? x i = some t → s₀.task? x i = none →
    t.goroutine.isReplicate = true → s.task? x j = some u → s₀.task? x j = none →
    u.goroutine.isReplicate = true → i = j
  clock_failed : ∀ {x i t}, s.task? x i = some t → s₀.task? x i = none → t.failed = true →
    (s.hosts x).clock = (s₀.hosts x).clock + 1
  clock_kept : ∀ {x}, (∀ i t, s.task? x i = some t → s₀.task? x i = none → t.failed = false) →
    (s.hosts x).clock = (s₀.hosts x).clock
  refused : ∀ {x i t}, s.task? x i = some t → s₀.task? x i = none → t.refused = true →
    ∃ p j u q, s.task? p j = some u ∧ u.goroutine.isReplicate = true ∧
      u.trans.tid = t.trans.tid ∧ q ∈ contenders ∧
      priority (s₀.hosts p).clock p < priority (s₀.hosts q).clock q

section Host
variable {h h' : Host} {t : Task} {input : Input} {m : Move}

/-- A `Replicate` failed when it returned an error, whatever the error is. -/
theorem Task.failed_iff : t.failed = true ↔ ∃ e, t.goroutine.result? = some (some e) := by
  simp only [Task.failed, Option.any_eq_true, Option.isSome_iff_exists]
  constructor
  · rintro ⟨r, hr, e, rfl⟩
    exact ⟨e, hr⟩
  · rintro ⟨e, hr⟩
    exact ⟨some e, hr, e, rfl⟩

/-- A failed task is a `Replicate` call. A handler has an outcome, but no result. -/
theorem Task.isReplicate_of_failed (hf : t.failed = true) :
    t.goroutine.isReplicate = true := by
  obtain ⟨e, hr⟩ := Task.failed_iff.mp hf
  rcases result?_eq_some.mp hr with hg | hg <;> rw [hg] <;> rfl

/-- A failure stays, since a result is never changed. -/
theorem TaskExtends.failed {t' : Task} (hext : TaskExtends t t') (hf : t.failed = true) :
    t'.failed = true := by
  obtain ⟨e, hr⟩ := Task.failed_iff.mp hf
  exact Task.failed_iff.mpr ⟨e, hext.result _ hr⟩

/-- A vote of a handler comes from `Mirror.Consult`, directly or through the conflict check. Its
verdict is never made up by the handler. -/
private theorem TaskMove.vote_cases (hm : TaskMove h t input m) {b : Ballot}
    (hb : b ∈ m.task.votes) :
    b ∈ t.votes ∨ input = .consulted b.verdict ∨
      ∃ msg request, t.goroutine = .handle (.detect msg request b.verdict) := by
  cases hm with
  -- The two moves that cast a vote.
  | reject msg request response hg ha =>
    simp only [Task.votes, Task.goto, Goroutine.vote?, Option.toList_some, List.mem_append,
      List.mem_singleton] at hb
    rcases hb with hb | rfl
    · exact .inl (List.mem_append_left _ hb)
    · exact .inr (.inl rfl)
  | detect msg request verdict b' hg hc =>
    simp only [Task.votes, Task.goto, Goroutine.vote?, Option.toList_some, List.mem_append,
      List.mem_singleton] at hb
    rcases hb with hb | rfl
    · exact .inl (List.mem_append_left _ hb)
    · exact .inr (.inr ⟨msg, request, hg⟩)
  | broadcast message result hg =>
    left
    simpa [Task.votes, Task.goto, hg, Goroutine.vote?] using hb
  | _ =>
    left
    simp_all [Task.votes, Task.goto, Goroutine.vote?]

/-- Without a fault, and when every `NACK` blames a conflict, a call increments the clock exactly
when it fails. With another error among the `NACK`s the call fails without an increment, and a
broadcast that fails does not increment it either. -/
private theorem TaskMove.increment_iff (hm : TaskMove h t input m)
    (hfault : m.task.goroutine.faultless = true)
    (hnacks : ∀ r ∈ t.trans.responses, r.type = .nack → r.error = some .transactionConflict) :
    m.increment = true ↔ m.task.failed = true ∧ t.failed = false := by
  cases hm with
  | broadcast message result hg =>
    -- A broadcast that fails is a fault.
    rcases afterBroadcast_cases h.peers result with
      ⟨reason, -, hafter⟩ | ⟨failed, reached, errs, -, -, hafter⟩ | ⟨expected, errs, hafter⟩
    · simp [Task.goto, hafter, Goroutine.faultless] at hfault
    · simp [Task.goto, hafter, Goroutine.faultless] at hfault
    · simp [Task.failed, Task.goto, hafter, Goroutine.result?]
  | process expected increment result hg hle hp =>
    rcases processResponses_ok hp with ⟨rfl, rfl, -⟩ | ⟨rfl, -, hinc⟩
    · simp [Task.failed, Task.goto, Goroutine.result?]
    · simp [Task.failed, Task.goto, hg, Goroutine.result?, hinc hnacks]
  | depart result hg => cases result <;> simp [Task.failed, Task.goto, hg, Goroutine.result?]
  | _ => simp_all [Task.failed, Task.goto, Goroutine.result?, Goroutine.faultless]

/-- What is broadcast belongs to a transaction whose reader is alive. -/
private theorem HostMove.sent_tid {e : Event} {b : Sent} (hi : HostInv h)
    (hm : HostMove h e h' (some b)) :
    ∃ (i : Nat) (t : Task), h.tasks[i]? = some t ∧ t.goroutine.alive = true ∧
      t.trans.tid = b.msg.tid := by
  obtain ⟨i, t, result, -, ht, -, ⟨message, hg, hmsg, -⟩ | ⟨msg, ballot, hg, hmsg, -⟩⟩ :=
    hm.sent_cases
  · -- The message of a call is made from its own transaction.
    have hpoint := (hi.tasks i t ht).point
    rw [hg] at hpoint
    obtain ⟨-, -, r, rfl, -⟩ := hpoint
    exact ⟨i, t, ht, by rw [hg]; rfl, by rw [hmsg]; rfl⟩
  · have hpoint := (hi.tasks i t ht).point
    rw [hg] at hpoint
    refine ⟨i, t, ht, by rw [hg]; rfl, ?_⟩
    rw [hmsg, newResponseMessage_tid, (hi.tasks i t ht).tids msg hpoint.2.2.1]

end Host

section Step
variable {c : Cluster} {contenders : List PeerName} {path newPath : String}
variable {s₀ s s' : System} {a : Action}

/-- A task whose reader has returned does not change any more. No message is put into it, as its id
is not in the map. -/
theorem SystemInv.returned_stays (hi : SystemInv c s) (hm : SystemMove c s a s') {x : PeerName}
    {i : Nat} {t : Task} (ht : s.task? x i = some t) (hdead : t.goroutine.alive = false) :
    s'.task? x i = some t := by
  obtain ⟨t', ht', -⟩ := hm.extends.tasks ht
  rcases hm.change ht' with hsame | ⟨e, sent, -, -, -, -, hchange⟩
  · rw [ht', ← hsame, ht]
  · rw [ht] at hchange
    cases hchange with
    | same e sent t => exact ht'
    | join msg t hlookup =>
      -- The map only holds transactions with a live reader.
      obtain ⟨u, hu, hutid⟩ := (hi.hosts x).listed _ _ hlookup
      obtain rfl : u = t := Option.some.inj (hu.symm.trans ht)
      have halive := ((hi.hosts x).table i u hu).mpr (by rw [hutid]; exact hlookup)
      rw [hdead] at halive
      cases halive
    | notify msg t hl hr =>
      rw [t.receiving_alive hr] at hdead
      cases hdead
    | move input t m hmove =>
      rw [hmove.alive] at hdead
      cases hdead

/-- A task of the round existed before the step, or a call or a message of the round created
it. -/
private theorem RoundInv.step_fresh (hr : RoundInv contenders path newPath s₀ s)
    (hi : SystemInv c s) (hm : SystemMove c s a s') {x : PeerName} {i : Nat} {t' : Task}
    (ht' : s'.task? x i = some t') (hnew : s₀.task? x i = none) :
    ∀ y j u, s₀.task? y j = some u → u.trans.tid ≠ t'.trans.tid := by
  intro y j u hu
  -- A task that is new in this step, or one that was there and keeps its id.
  cases hold : s.task? x i with
  | some t =>
    obtain ⟨t'', ht'', hext⟩ := hm.extends.tasks hold
    obtain rfl : t' = t'' := Option.some.inj (ht'.symm.trans ht'')
    rw [hext.tid]
    exact hr.fresh hold hnew y j u hu
  | none =>
    rcases hm.change ht' with hsame | ⟨e, sent, -, -, ha, -, hchange⟩
    · rw [hold] at hsame
      cases hsame
    · rw [hold] at hchange
      cases hchange with
      | call tid request hfresh =>
        simp only [System.admits, Bool.and_eq_true, Bool.not_eq_true'] at ha
        exact hi.fresh_tid ha.1 (hr.old hu)
      | spawn msg hlookup =>
        rw [Transaction.put_tid]
        exact hr.flight (by simpa [System.admits] using ha) y j u hu

/-- A live task belongs to the round. The tasks from before the round had all returned at its
start. -/
theorem RoundInv.new_of_alive (hr : RoundInv contenders path newPath s₀ s)
    (hstart : s₀.Finished) {x : PeerName} {i : Nat} {t : Task} (ht : s.task? x i = some t)
    (halive : t.goroutine.alive = true) : s₀.task? x i = none := by
  cases hold : s₀.task? x i with
  | none => rfl
  | some u =>
    obtain rfl : t = u := Option.some.inj (ht.symm.trans (hr.old hold))
    rw [hstart.1 x i t hold] at halive
    cases halive

/-- A task with the id of a task of the round belongs to the round. -/
theorem RoundInv.new_of_tid (hr : RoundInv contenders path newPath s₀ s) {x y : PeerName}
    {i j : Nat} {t u : Task} (ht : s.task? x i = some t) (hnew : s₀.task? x i = none)
    (hu : s.task? y j = some u) (htid : u.trans.tid = t.trans.tid) : s₀.task? y j = none := by
  cases hold : s₀.task? y j with
  | none => rfl
  | some u' =>
    obtain rfl : u = u' := Option.some.inj (hu.symm.trans (hr.old hold))
    exact absurd htid (hr.fresh ht hnew y j u hold)

/-- The messages of the round belong to its tasks. Nothing is left in flight from the rounds
before. -/
private theorem RoundInv.step_flight (hr : RoundInv contenders path newPath s₀ s)
    (hi : SystemInv c s) (hstart : s₀.Finished) (hm : SystemMove c s a s') {z : PeerName}
    {m : Message} (hmem : (z, m) ∈ s'.inFlight) :
    ∀ y j u, s₀.task? y j = some u → u.trans.tid ≠ m.tid := by
  cases hm with
  | lose x msg hmsg => exact hr.flight (List.mem_of_mem_erase hmem)
  | host x e h' sent hx ha hp hm =>
    rcases List.mem_append.mp hmem with hold | hsent
    · refine hr.flight (z := z) ?_
      cases e with
      | receive msg => exact List.mem_of_mem_erase hold
      | _ => exact hold
    · obtain ⟨b, hb, hzm⟩ := List.mem_flatMap.mp hsent
      obtain ⟨y, -, heq⟩ := List.mem_map.mp hzm
      obtain ⟨rfl, rfl⟩ := Prod.mk.inj heq
      rw [Option.mem_toList] at hb
      subst hb
      -- The sender is alive, and at the start of the round nobody was: so it belongs to the round.
      obtain ⟨i, t, ht, halive, htid⟩ := hm.sent_tid (hi.hosts x)
      have htask : s.task? x i = some t := ht
      rw [← htid]
      exact hr.fresh htask (hr.new_of_alive hstart htask halive)

/-- The votes of the round follow `Mirror.Consult`, which answers `ACK`. So the only reason left for
a NACK is a conflict. -/
private theorem RoundInv.step_acked (hr : RoundInv contenders path newPath s₀ s)
    (hi : SystemInv c s) (hguard : roundGuard contenders path newPath s₀ s a = true)
    (hm : SystemMove c s a s') {x : PeerName} {i : Nat} {t' : Task}
    (ht' : s'.task? x i = some t') (hnew : s₀.task? x i = none) :
    ∀ b ∈ t'.votes, b.verdict.type = .ack := by
  intro b hb
  rcases hm.change ht' with hsame | ⟨e, sent, rfl, -, -, -, hchange⟩
  · exact hr.acked hsame hnew b hb
  · generalize ht : s.task? x i = old at hchange
    cases hchange with
    | same e sent t => exact hr.acked ht hnew b hb
    | call tid request hfresh => simp [Task.votes, Goroutine.vote?] at hb
    | join msg t hlookup => exact hr.acked ht hnew b hb
    -- New tasks have not voted.
    | spawn msg hlookup => simp [Task.votes, Goroutine.vote?] at hb
    | notify msg t hl hrec =>
      refine hr.acked ht hnew b ?_
      unfold Task.notified at hb
      split at hb
      · rename_i our request hg hreq
        simpa [Task.votes, hg, Goroutine.vote?] using hb
      · exact hb
    | move input t m hmove =>
      rcases hmove.vote_cases hb with hold | rfl | ⟨msg, request, hg⟩
      · exact hr.acked ht hnew b hold
      · simpa [roundGuard] using hguard
      · have hpoint := (hi.taskInv ht).point
        rw [hg] at hpoint
        exact hpoint.2.2.2.2

/-- A host that has not called `Replicate` in the round has no call among its tasks. -/
theorem isReplicate_of_not_called {x : PeerName} {i : Nat} {t : Task}
    (hcalled : s₀.called s x = false) (ht : s.task? x i = some t)
    (hnew : s₀.task? x i = none) : t.goroutine.isReplicate = false := by
  by_contra hrep
  have hle : (s₀.hosts x).tasks.length ≤ i := List.getElem?_eq_none_iff.mp hnew
  have hmem : t ∈ (s.hosts x).tasks.drop (s₀.hosts x).tasks.length := by
    refine List.mem_of_getElem? (i := i - (s₀.hosts x).tasks.length) ?_
    rw [List.getElem?_drop, Nat.add_sub_cancel' hle]
    exact ht
  have htrue : s₀.called s x = true := List.any_eq_true.mpr ⟨t, hmem, by simpa using hrep⟩
  rw [htrue] at hcalled
  cases hcalled

/-- A call that was not there before the step is what the step made. -/
private theorem SystemMove.call_of_new (hm : SystemMove c s a s') {x : PeerName} {i : Nat}
    {t : Task} (hnone : s.task? x i = none) (ht : s'.task? x i = some t)
    (hrep : t.goroutine.isReplicate = true) :
    ∃ request, a = .host x (.replicate t.trans.tid request) ∧
      t.trans.request = some request := by
  rcases hm.change ht with hsame | ⟨e, sent, rfl, -, -, -, hchange⟩
  · rw [hnone] at hsame
    cases hsame
  · rw [hnone] at hchange
    cases hchange with
    | call tid request hfresh => exact ⟨request, rfl, rfl⟩
    | spawn msg hlookup => cases hrep

/-- A call of the round is a call of a contender, with its clock. The clock of the host does not
change before its call, because only a failed call of its own would change it. -/
private theorem RoundInv.step_calls (hr : RoundInv contenders path newPath s₀ s)
    (hi : SystemInv c s) (hguard : roundGuard contenders path newPath s₀ s a = true)
    (hs : s.step c a = some s') {x : PeerName} {i : Nat} {t' : Task}
    (ht' : s'.task? x i = some t') (hnew : s₀.task? x i = none)
    (hrep : t'.goroutine.isReplicate = true) :
    x ∈ contenders ∧ ∃ r, t'.trans.request = some r ∧ onPaths path newPath r = true ∧
      r.clock = (s₀.hosts x).clock := by
  have hm := System.step_move hs
  cases hold : s.task? x i with
  | some t =>
    obtain ⟨t'', ht'', hext⟩ := hm.extends.tasks hold
    obtain rfl : t' = t'' := Option.some.inj (ht'.symm.trans ht'')
    have hrep' : t.goroutine.isReplicate = true := hext.kind.symm.trans hrep
    have htids := ((hi.step hs).taskInv ht').tids
    rw [(hi.request_stable hm hold ht' hext hrep' htids).1]
    exact hr.calls hold hnew hrep'
  | none =>
    obtain ⟨request, rfl, hreq⟩ := hm.call_of_new hold ht' hrep
    simp only [roundGuard, decide_eq_true_eq] at hguard
    obtain ⟨hmem, hcalled, hon, hclock⟩ := hguard
    refine ⟨hmem, request, hreq, hon, hclock.trans (hr.clock_kept fun j u hu hunew => ?_)⟩
    -- The contender has not called in this round, so none of its calls has failed.
    by_contra hfailed
    have hurep := Task.isReplicate_of_failed (by simpa using hfailed)
    rw [isReplicate_of_not_called hcalled hu hunew] at hurep
    cases hurep

/-- A contender makes one call. The guard of the round does not let it start a second one. It looks
at whether the host has a task of the round that is a `Replicate`, so the first call is found again
after it has returned. -/
private theorem RoundInv.step_once (hr : RoundInv contenders path newPath s₀ s)
    (hi : SystemInv c s) (hguard : roundGuard contenders path newPath s₀ s a = true)
    (hs : s.step c a = some s') {x : PeerName} {i j : Nat} {t u : Task}
    (ht : s'.task? x i = some t) (hnew : s₀.task? x i = none)
    (hrep : t.goroutine.isReplicate = true) (hu : s'.task? x j = some u)
    (hunew : s₀.task? x j = none) (hurep : u.goroutine.isReplicate = true) : i = j := by
  have hm := System.step_move hs
  -- When the step makes a call, no call of the host was there before.
  have hfirst : ∀ {k v k' v'}, s.task? x k = none → s'.task? x k = some v →
      v.goroutine.isReplicate = true → s'.task? x k' = some v' → s₀.task? x k' = none →
      v'.goroutine.isReplicate = true → s.task? x k' = none := by
    intro k v k' v' hnone hv hvrep hv' hvnew' hvrep'
    obtain ⟨request, rfl, -⟩ := hm.call_of_new hnone hv hvrep
    simp only [roundGuard, decide_eq_true_eq] at hguard
    cases hold : s.task? x k' with
    | none => rfl
    | some w =>
      obtain ⟨w', hw', hext⟩ := hm.extends.tasks hold
      obtain rfl : v' = w' := Option.some.inj (hv'.symm.trans hw')
      have hwrep := isReplicate_of_not_called hguard.2.1 hold hvnew'
      rw [← hext.kind, hvrep'] at hwrep
      cases hwrep
  cases hi₁ : s.task? x i with
  | none =>
    have hj₁ := hfirst hi₁ ht hrep hu hunew hurep
    obtain ⟨request, rfl, -⟩ := hm.call_of_new hi₁ ht hrep
    obtain ⟨request', heq, -⟩ := hm.call_of_new hj₁ hu hurep
    simp only [Action.host.injEq, Event.replicate.injEq, true_and] at heq
    exact ((hi.step hs).initiators ht hu hrep hurep heq.1).2
  | some t₁ =>
    cases hj₁ : s.task? x j with
    | none =>
      rw [hfirst hj₁ hu hurep ht hnew hrep] at hi₁
      cases hi₁
    | some u₁ =>
      obtain ⟨t', ht', hext⟩ := hm.extends.tasks hi₁
      obtain ⟨u', hu', hext'⟩ := hm.extends.tasks hj₁
      obtain rfl : t = t' := Option.some.inj (ht.symm.trans ht')
      obtain rfl : u = u' := Option.some.inj (hu.symm.trans hu')
      exact hr.once hi₁ hnew (hext.kind.symm.trans hrep) hj₁ hunew
        (hext'.kind.symm.trans hurep)

/-- The responses of the round that are `NACK` blame a conflict. In a round all verdicts of the
mirrors are `ACK`, so a host can only be against a request for a conflict. This is what makes the
clock of the loser go up. -/
private theorem RoundInv.nack_error (hr : RoundInv contenders path newPath s₀ s)
    (hi : SystemInv c s) {x : PeerName} {i : Nat} {t : Task} (ht : s.task? x i = some t)
    (hnew : s₀.task? x i = none) :
    ∀ r ∈ t.trans.responses, r.type = .nack → r.error = some .transactionConflict := by
  intro r hmem htype
  rw [(hi.taskInv ht).responses] at hmem
  obtain ⟨m, hm, hmr⟩ := mem_responsesOf.mp hmem
  obtain ⟨b, hb, rfl⟩ := hi.voted_of_response (mem_arrived_of_inbox ht hm) hmr
  have hverdict := hi.voted_verdict hb
  refine (Ballot.response_error hverdict htype).2.mpr ?_
  -- The verdict of the voter was `ACK`, so its `NACK` is for a conflict.
  obtain ⟨j, u, hu, hutid, hbu⟩ := hb
  have hunew := hr.new_of_tid ht hnew hu (hutid.trans ((hi.taskInv ht).tids m hm))
  have hack := hr.acked hu hunew b (u.ballots_subset_votes hbu)
  cases hconflict : b.conflict with
  | true => rfl
  | false =>
    have happroves : b.approves = true := by simp [Ballot.approves, hack, hconflict]
    rw [(Ballot.response_ack hverdict).mpr happroves] at htype
    cases htype

/-- A step of a host other than a move of a reader fails no call. A result is set by the `Replicate`
itself, when it leaves. A new call has no result, and a message that comes in does not set one. -/
private theorem TaskChange.failed_of_ne_task {h : Host} {i : Nat} {e : Event}
    {sent : Option Sent} {old : Option Task} {t' : Task}
    (hchange : TaskChange h i e sent old t') (he : ∀ input, e ≠ .task i input)
    (hfailed : t'.failed = true) : ∃ t, old = some t ∧ t.failed = true := by
  cases hchange with
  | same e sent t => exact ⟨t', rfl, hfailed⟩
  | call tid request hfresh => simp [Task.failed, Goroutine.result?] at hfailed
  | join msg t hlookup => exact ⟨t, rfl, hfailed⟩
  | spawn msg hlookup => simp [Task.failed, Goroutine.result?] at hfailed
  | notify msg t hl hr =>
    refine ⟨t, rfl, ?_⟩
    unfold Task.notified at hfailed
    split at hfailed
    · simp [Task.failed, Goroutine.result?] at hfailed
    · exact hfailed
  -- A result is set by a move of the reader itself.
  | move input t m hmove => exact absurd rfl (he input)

/-- A step of the round keeps the clock of a host and fails none of its calls, or it increments the
clock and fails a call. So the clock counts the failed calls of the host. A `Replicate` increments
it exactly when it leaves with an error. -/
private theorem RoundInv.clock_cases (hr : RoundInv contenders path newPath s₀ s)
    (hi : SystemInv c s) (hf' : FaultFreeInv c s') (hstart : s₀.Finished)
    (hm : SystemMove c s a s') (x : PeerName) :
    ((s'.hosts x).clock = (s.hosts x).clock ∧
      ∀ i t', s'.task? x i = some t' → t'.failed = true →
        ∃ t, s.task? x i = some t ∧ t.failed = true) ∨
    (s'.hosts x).clock = (s.hosts x).clock + 1 ∧
      ∃ i t t', s.task? x i = some t ∧ s₀.task? x i = none ∧ s'.task? x i = some t' ∧
        t.failed = false ∧ t'.failed = true := by
  cases hm with
  | lose y msg hmem => exact .inl ⟨rfl, fun i t' ht' hfailed => ⟨t', ht', hfailed⟩⟩
  | host y e h' sent hy ha hp hm =>
    by_cases hxy : x = y
    · subst hxy
      simp only [Function.update_self, task?_update_self]
      have hother : (∀ i input, e ≠ .task i input) → ∀ (i : Nat) (t' : Task),
          h'.tasks[i]? = some t' → t'.failed = true →
          ∃ t, s.task? x i = some t ∧ t.failed = true := by
        intro he i t' ht' hfailed
        exact (hm.change ht').failed_of_ne_task (he i) hfailed
      cases hm with
      | task ref input t m ht hmv =>
        have ht' : ((s.hosts x).apply ref m).tasks[ref]? = some m.task := getElem?_set_self ht
        have hnew := hr.new_of_alive hstart ht hmv.alive
        -- `IncrementClock` is called exactly when the step makes the call fail.
        have hiff := hmv.increment_iff
          (hf'.faultless (x := x) (i := ref) (by rw [task?_update_self]; exact ht'))
          (hr.nack_error hi ht hnew)
        cases hinc : m.increment with
        | true =>
          obtain ⟨hfailed, hold⟩ := hiff.mp hinc
          exact .inr ⟨by simp [Host.apply, hinc], ref, t, m.task, ht, hnew, ht', hold, hfailed⟩
        | false =>
          refine .inl ⟨by simp [Host.apply, hinc], fun i t' hti hfailed => ?_⟩
          rcases getElem?_set_eq_some.mp hti with ⟨rfl, -, rfl⟩ | ⟨-, hti⟩
          · refine ⟨t, ht, ?_⟩
            cases hold : t.failed with
            | true => rfl
            | false =>
              rw [hiff.mpr ⟨hfailed, hold⟩] at hinc
              cases hinc
          · exact ⟨t', hti, hfailed⟩
      | panic ref input t p ht hp => exact .inl ⟨rfl, fun i t' ht' hfailed => ⟨t', ht', hfailed⟩⟩
      | _ =>
        refine .inl ⟨rfl, hother ?_⟩
        intro i input he
        cases he
    · -- A step of another host.
      simp only [Function.update_of_ne hxy, task?_update_of_ne hxy]
      exact .inl ⟨trivial, fun i t' ht' hfailed => ⟨t', ht', hfailed⟩⟩

/-- After a step, the clock of a host with a failed call is one greater than at the start. A
contender calls once, so only one call can fail, and the clock goes up once. A host without a call
of its own keeps its clock. -/
private theorem RoundInv.step_clock_failed (hr : RoundInv contenders path newPath s₀ s)
    (hi : SystemInv c s) (hf' : FaultFreeInv c s') (hstart : s₀.Finished)
    (hm : SystemMove c s a s') {x : PeerName} {i : Nat} {t' : Task}
    (ht' : s'.task? x i = some t') (hnew : s₀.task? x i = none) (hfailed : t'.failed = true) :
    (s'.hosts x).clock = (s₀.hosts x).clock + 1 := by
  rcases hr.clock_cases hi hf' hstart hm x with
    ⟨hclock, hold⟩ | ⟨hclock, j, u, u', hu, hunew, hu', hufailed, hufailed'⟩
  · obtain ⟨t, ht, htfailed⟩ := hold i t' ht' hfailed
    rw [hclock]
    exact hr.clock_failed ht hnew htfailed
  · -- The call that fails in this step is the only one, so none had failed before.
    rw [hclock, hr.clock_kept fun k v hv hvnew => ?_]
    cases hvfailed : v.failed with
    | false => rfl
    | true =>
      obtain ⟨u'', hu'', hext⟩ := hm.extends.tasks hu
      obtain rfl : u' = u'' := Option.some.inj (hu'.symm.trans hu'')
      have hurep := hext.kind.symm.trans (Task.isReplicate_of_failed hufailed')
      have hkj := hr.once hv hvnew (Task.isReplicate_of_failed hvfailed) hu hunew hurep
      subst hkj
      obtain rfl : v = u := Option.some.inj (hv.symm.trans hu)
      rw [hvfailed] at hufailed
      cases hufailed

/-- After a step, the clock of a host without a failed call is the one of the start. So the winner
of a round enters the next one with its old clock, and the losers with theirs increased by one. -/
private theorem RoundInv.step_clock_kept (hr : RoundInv contenders path newPath s₀ s)
    (hi : SystemInv c s) (hf' : FaultFreeInv c s') (hstart : s₀.Finished)
    (hm : SystemMove c s a s') {x : PeerName}
    (hnone : ∀ i t, s'.task? x i = some t → s₀.task? x i = none → t.failed = false) :
    (s'.hosts x).clock = (s₀.hosts x).clock := by
  -- The clock stays, or a call fails in this step. The latter is excluded by the hypothesis.
  rcases hr.clock_cases hi hf' hstart hm x with
    ⟨hclock, -⟩ | ⟨-, j, u, u', -, hunew, hu', -, hufailed'⟩
  · rw [hclock]
    refine hr.clock_kept fun i t ht hnew => ?_
    obtain ⟨t', ht', hext⟩ := hm.extends.tasks ht
    cases hfailed : t.failed with
    | false => rfl
    | true => rw [← hnone i t' ht' hnew, hext.failed hfailed]
  · rw [hnone j u' hu' hunew] at hufailed'
    cases hufailed'

/-- Two requests on the same paths. The round is about one pair of paths, so all its requests
conflict. -/
theorem onPaths_samePaths {r r' : Request} (h : onPaths path newPath r = true)
    (h' : onPaths path newPath r' = true) : SamePaths r r' := by
  simp only [onPaths, Option.any_eq_true, decide_eq_true_eq] at h h'
  obtain ⟨m, hm, hp, hn⟩ := h
  obtain ⟨m', hm', hp', hn'⟩ := h'
  exact ⟨m, m', hm, hm', hp.trans hp'.symm, hn.trans hn'.symm⟩

/-- A request in the map of a host belongs to a call of the round. -/
theorem RoundInv.table_call (hr : RoundInv contenders path newPath s₀ s) (hi : SystemInv c s)
    (hstart : s₀.Finished) {x : PeerName} {tr : Transaction} {r : Request}
    (htr : tr ∈ (s.hosts x).table) (hreq : tr.request = some r) :
    tr.initiatorName ∈ contenders ∧ onPaths path newPath r = true ∧
      r.clock = (s₀.hosts tr.initiatorName).clock := by
  obtain ⟨k, w, hw, halive, rfl⟩ := (hi.hosts x).mem_table.mp htr
  obtain ⟨j, u, hu, hurep, hutid, hureq⟩ := hi.trans_request hw hreq
  have hunew := hr.new_of_tid hw (hr.new_of_alive hstart hw halive) hu hutid
  obtain ⟨hmem, r', hr', hon, hclock⟩ := hr.calls hu hunew hurep
  obtain rfl : r = r' := Option.some.inj (hureq.symm.trans hr')
  exact ⟨hmem, hon, hclock⟩

/-- Who is refused in a step has a smaller rank than another contender. -/
private theorem RoundInv.step_refused (hr : RoundInv contenders path newPath s₀ s)
    (hi : SystemInv c s) (hstart : s₀.Finished) (hs : s.step c a = some s') {x : PeerName}
    {i : Nat} {t' : Task} (ht' : s'.task? x i = some t') (hnew : s₀.task? x i = none)
    (href : t'.refused = true) :
    ∃ p j u q, s'.task? p j = some u ∧ u.goroutine.isReplicate = true ∧
      u.trans.tid = t'.trans.tid ∧ q ∈ contenders ∧
      priority (s₀.hosts p).clock p < priority (s₀.hosts q).clock q := by
  have hm := System.step_move hs
  obtain ⟨t, ht, hcase⟩ := hm.refused_cases ht' href
  obtain ⟨t'', ht'', hext⟩ := hm.extends.tasks ht
  obtain rfl : t' = t'' := Option.some.inj (ht'.symm.trans ht'')
  -- The call is already there before the step.
  suffices h : ∃ p j u q, s.task? p j = some u ∧ u.goroutine.isReplicate = true ∧
      u.trans.tid = t.trans.tid ∧ q ∈ contenders ∧
      priority (s₀.hosts p).clock p < priority (s₀.hosts q).clock q by
    obtain ⟨p, j, u, q, hu, hurep, hutid, hq, hlt⟩ := h
    obtain ⟨u', hu', hext'⟩ := hm.extends.tasks hu
    exact ⟨p, j, u', q, hu', hext'.kind.trans hurep, by rw [hext'.tid, hutid, hext.tid], hq,
      hlt⟩
  rcases hcase with hold | ⟨msg, hg, hc⟩
  · exact hr.refused ht hnew hold
  · obtain ⟨p, j, u, r, hu, hurep, hutid, hureq, ⟨tr, htr, r', hr', -, -, hlt⟩, -⟩ :=
      hi.refusal ht hg hc
    obtain ⟨-, r₁, hr₁, -, hclock⟩ := hr.calls hu (hr.new_of_tid ht hnew hu hutid) hurep
    obtain rfl : r = r₁ := Option.some.inj (hureq.symm.trans hr₁)
    obtain ⟨hmem, -, hclock'⟩ := hr.table_call hi hstart htr hr'
    rw [hclock, hclock'] at hlt
    exact ⟨p, j, u, tr.initiatorName, hu, hurep, hutid, hmem, hlt⟩

/-- The round starts with its invariant. There is no task of the round yet. -/
theorem RoundInv.start (hstart : s.Finished) : RoundInv contenders path newPath s s where
  old ht := ht
  fresh ht hnew := by simp [ht] at hnew
  flight hmem := by simp [hstart.2] at hmem
  acked ht hnew := by simp [ht] at hnew
  calls ht hnew := by simp [ht] at hnew
  once ht hnew := by simp [ht] at hnew
  clock_failed ht hnew := by simp [ht] at hnew
  clock_kept _ := rfl
  refused ht hnew := by simp [ht] at hnew

/-- Every step of the round keeps the invariant, field by field. The fields on the clocks need that
the state after the step is one of a fault-free run, because a fault could fail a call without an
increment. -/
theorem RoundInv.step (hr : RoundInv contenders path newPath s₀ s) (hi : SystemInv c s)
    (hf : FaultFreeInv c s) (hstart : s₀.Finished)
    (hs : roundStep c contenders path newPath s₀ s a = some s') :
    RoundInv contenders path newPath s₀ s' := by
  obtain ⟨hguard, hff⟩ := restrict_eq_some.mp hs
  have hstep := (restrict_eq_some.mp hff).2
  have hm := System.step_move hstep
  have hf' := hf.step hi hff
  exact {
    old := fun hu => hi.returned_stays hm (hr.old hu) (hstart.1 _ _ _ hu)
    fresh := hr.step_fresh hi hm
    flight := hr.step_flight hi hstart hm
    acked := hr.step_acked hi hguard hm
    calls := hr.step_calls hi hguard hstep
    once := hr.step_once hi hguard hstep
    clock_failed := hr.step_clock_failed hi hf' hstart hm
    clock_kept := hr.step_clock_kept hi hf' hstart hm
    refused := hr.step_refused hi hstart hstep }

/-- The invariant holds in every state of the round, along with those of the system and of
fault-free runs. -/
theorem RoundInv.run {as : List Action} (hs : ReachableFF c s₀) (hstart : s₀.Finished)
    (hrun : Library.run (roundStep c contenders path newPath s₀) s₀ as = some s) :
    RoundInv contenders path newPath s₀ s ∧ SystemInv c s ∧ FaultFreeInv c s := by
  refine run_invariant (I := fun s => RoundInv contenders path newPath s₀ s ∧ SystemInv c s ∧
    FaultFreeInv c s) ?_ hrun ⟨.start hstart, hs.inv⟩
  rintro s a s' hstep ⟨hr, hi, hf⟩
  have hff := (restrict_eq_some.mp hstep).2
  exact ⟨hr.step hi hf hstart hstep, hi.step (restrict_eq_some.mp hff).2, hf.step hi hff⟩

end Step

end ReplicatedFs.P2p
