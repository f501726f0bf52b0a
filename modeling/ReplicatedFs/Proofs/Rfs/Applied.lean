import ReplicatedFs.Proofs.Rfs.FleetStep

/-!
# `ReplicatedFs.Proofs.Rfs.Applied`: which transactions a host has behind it

A transaction changes the files of a host in one of two places. On the host that made the call, the
call goes on after `Replicate` returned nil. On the others, a handler calls `Mirror.Mirror`. Both
are steps of a goroutine that then moves to another point of its code, so whether the change has
been made can be read off the tasks. `Fleet.Applied` does that.

* `no_revival`: after everything has ended, no task of an earlier transaction starts again. A
  message that came late would create one, but none is left in flight.
* `FleetInv.applied_of_step`, `Fleet.applied_answered`, `Fleet.applied_replicate`: what each kind of
  step adds to the transactions that a host has applied.
-/

set_option autoImplicit false

namespace ReplicatedFs.Rfs

open Library Library.Posix Protobuf P2p

section Revival
variable {c : Cluster} {s s' : System} {x y : PeerName} {i j : Nat} {t v : Task}

/-- When everything is finished and a call has been made before, every task of its transaction is
over for good. Only a message with its id could make a new task. All of them were put before, so
there is none left. Both states are those of fault-free runs, as a late message is a matter of
timeouts. -/
theorem no_revival (hi : SystemInv c s) (hf : FaultFreeInv c s)
    (hdead : ∀ x i t, s.task? x i = some t → t.goroutine.alive = false)
    (hi' : SystemInv c s') (hf' : FaultFreeInv c s') (hext : s.Extends s')
    (ht : s.task? x i = some t) (hrep : t.goroutine.isReplicate = true)
    (hv : s'.task? y j = some v) (htid : v.trans.tid = t.trans.tid) :
    v.goroutine.alive = false := by
  obtain ⟨t', ht', htext⟩ := hext.tasks ht
  have hrep' : t'.goroutine.isReplicate = true := htext.kind.trans hrep
  -- A task that was there before has ended before.
  have hold : ∀ {u}, s.task? y j = some u → v.goroutine.alive = false := by
    intro u hu
    obtain ⟨v', hv', hvext⟩ := hext.tasks hu
    obtain rfl : v' = v := Option.some.inj (hv'.symm.trans hv)
    by_contra halive
    have hbefore := hvext.alive (by simpa using halive)
    rw [hdead y j u hu] at hbefore
    cases hbefore
  cases hvrep : v.goroutine.isReplicate with
  | true =>
    obtain ⟨rfl, rfl⟩ := hi'.initiators hv ht' hvrep hrep' (htid.trans htext.tid.symm)
    exact hold ht
  | false =>
    have hyx : y ≠ x := by
      rintro rfl
      exact hf'.apart ht' hv hrep' hvrep (htext.tid.trans htid.symm)
    -- The handler has a message of the transaction, so the call had asked its peers.
    obtain ⟨m, hm⟩ := List.exists_mem_of_ne_nil _ (hi'.gathered hv hvrep)
    have hasked' := hi'.asked_of_arrived ht' hrep' (mem_arrived_of_inbox hv hm)
      (((hi'.taskInv hv).tids m hm).trans (htid.trans htext.tid.symm))
    have hended := hdead x i t ht
    cases hg : t.goroutine with
    | handle pc => simp [hg, Goroutine.isReplicate] at hrep
    | replicate pc =>
      cases pc with
      | returned r =>
        have hne : r ≠ some .transactionConflict := by
          rintro rfl
          have hresult := htext.result (some .transactionConflict) (by rw [hg]; rfl)
          rcases result?_eq_some.mp hresult with hg' | hg' <;> rw [hg'] at hasked' <;>
            cases hasked'
        -- It has a vote of every peer, so the peer had a handler, and has no second one.
        have hfull := hf.call_full hi ht (r := r) (by rw [hg]; rfl) hne
        obtain ⟨m', hm', hname⟩ := hi.full ht hfull
          (Cluster.mem_peers.mpr ⟨hi'.members hv, hyx⟩)
        have harrived := mem_arrived_of_inbox ht (t.seen_subset m' hm')
        have hmtid := (hi.taskInv ht).tids m' (t.seen_subset m' hm')
        have hnone := hi.no_request ht hrep harrived hmtid
        obtain ⟨response, hresponse⟩ := Option.isSome_iff_exists.mp
          ((hi.request_or_response harrived).resolve_left (by simp [hnone]))
        obtain ⟨b, ⟨k, w, hw, hwtid, -⟩, -⟩ := hi.voted_of_response harrived hresponse
        rw [hname] at hw
        obtain ⟨w', hw', hwext⟩ := hext.tasks hw
        have hsame := hf'.task_unique hi' hw' hv
          (hwext.tid.trans (hwtid.trans (hmtid.trans htid.symm)))
        subst hsame
        exact hold hw
      | _ => simp [hg, Goroutine.alive] at hended

end Revival

section Applied
variable {c : Cluster} {s s' : Fleet} {y : PeerName} {tid : TransactionID}

/-- The host has made the change of the transaction: its handler has called `Mirror.Mirror`, or
its own FUSE call has gone on after the permission. -/
def Fleet.Applied (s : Fleet) (y : PeerName) (tid : TransactionID) : Prop :=
  ∃ i t, s.system.task? y i = some t ∧ t.trans.tid = tid ∧
    ((∃ request err, t.goroutine.outcome? = some (.mirrored request err)) ∨
      t.goroutine = .replicate (.returned none) ∧ ∀ w ∈ s.waiting y, w.ref ≠ i)

/-- A call that has returned stays so, with its result. What a FUSE call was told is therefore
final. -/
theorem TaskExtends.returned {t t' : Task} (h : TaskExtends t t')
    {r : Option ReplicateError} (hg : t.goroutine = .replicate (.returned r)) :
    t'.goroutine = .replicate (.returned r) := by
  rcases result?_eq_some.mp (h.result r (by rw [hg]; rfl)) with hg' | hg'
  · have halive := h.alive (by rw [hg']; rfl)
    rw [hg] at halive
    cases halive
  · exact hg'

/-- A `Mirror.Mirror` returns in its own step only, so every other step of the network leaves what
is applied alone. -/
private theorem mirrored_cases {s s' : System} {a : Action} (hm : SystemMove c s a s') {i : Nat}
    {t' : Task} (ht' : s'.task? y i = some t') {request : Request} {err : Option String}
    (hout : t'.goroutine.outcome? = some (.mirrored request err)) :
    ∃ t, s.task? y i = some t ∧ t.trans.tid = t'.trans.tid ∧
      (t.goroutine.outcome? = some (.mirrored request err) ∨
        a = .host y (.task i (.mirrored err))) := by
  rcases hm.change ht' with hsame | ⟨e, sent, rfl, -, -, -, hchange⟩
  · exact ⟨t', hsame, rfl, .inl hout⟩
  · generalize ht : s.task? y i = old at hchange
    cases hchange with
    | same e sent t => exact ⟨t', rfl, rfl, .inl hout⟩
    | call tid request hfresh => cases hout
    | join msg t hlookup => exact ⟨t, rfl, (Transaction.put_tid _ _).symm, .inl hout⟩
    | spawn msg hlookup => cases hout
    | notify msg t hl hr =>
      -- A reader that takes a message has not ended.
      unfold Task.notified at hout
      split at hout
      · cases hout
      · refine ⟨t, rfl, ?_, .inl hout⟩
        unfold Task.notified
        split <;> rfl
    | move input t m hmove =>
      cases hmove with
      | finish result hg =>
        refine ⟨t, rfl, rfl, .inl ?_⟩
        rw [hg]
        exact hout
      | mirror request' err' hg =>
        cases hout
        exact ⟨t, rfl, rfl, .inr rfl⟩
      | broadcast message result hg =>
        rcases afterBroadcast_cases (s.hosts y).peers result with
          ⟨_, -, hafter⟩ | ⟨_, _, _, -, -, hafter⟩ | ⟨_, _, hafter⟩ <;>
          simp [Task.goto, hafter, Goroutine.outcome?] at hout
      | _ => cases hout

/-- What was applied stays so in a step that makes no call wait. -/
theorem Fleet.Applied.mono (h : s.Applied y tid) (hext : s.system.Extends s'.system)
    (hwaiting : ∀ w ∈ s'.waiting y, w ∈ s.waiting y ∨
      s.system.task? y w.ref = none) : s'.Applied y tid := by
  obtain ⟨i, t, ht, htid, hdone⟩ := h
  obtain ⟨t', ht', htext⟩ := hext.tasks ht
  refine ⟨i, t', ht', htext.tid.trans htid, ?_⟩
  rcases hdone with ⟨request, err, hout⟩ | ⟨hg, hnot⟩
  · exact .inl ⟨request, err, htext.outcome _ hout⟩
  · refine .inr ⟨TaskExtends.returned htext hg, fun w hw href => ?_⟩
    rcases hwaiting w hw with hold | hnone
    · exact hnot w hold href
    · rw [href, ht] at hnone
      cases hnone

/-- What is applied in a step of the network that starts no call. -/
theorem FleetInv.applied_of_step (hi : FleetInv c s) (s' : Fleet) {a : Action}
    (hstep : s.system.step c a = some s'.system) (hcall : a.isCall = false)
    (hwaiting : s'.waiting = s.waiting) (h : s'.Applied y tid) :
    s.Applied y tid ∨ ∃ i t err, s.system.task? y i = some t ∧ t.trans.tid = tid ∧
      a = .host y (.task i (.mirrored err)) := by
  have hm := System.step_move hstep
  obtain ⟨i, t', ht', htid, ⟨request, err, hout⟩ | ⟨hg, hnot⟩⟩ := h
  · obtain ⟨t, ht, hsame, hold | hmirror⟩ := mirrored_cases hm ht' hout
    · exact .inl ⟨i, t, ht, hsame.trans htid, .inl ⟨request, err, hold⟩⟩
    · exact .inr ⟨i, t, err, ht, hsame.trans htid, hmirror⟩
  · -- The call was over before, as it no longer waits.
    have hrep : t'.goroutine.isReplicate = true := by rw [hg]; rfl
    obtain ⟨t, ht, htext⟩ := old_of_isReplicate hm hcall ht' hrep
    have hrepold : t.goroutine.isReplicate = true := htext.kind.symm.trans hrep
    refine .inl ⟨i, t, ht, htext.tid.symm.trans htid, .inr ⟨?_, by rwa [hwaiting] at hnot⟩⟩
    cases hgold : t.goroutine with
    | handle pc => simp [hgold, Goroutine.isReplicate] at hrepold
    | replicate pc =>
      cases pc with
      | returned r =>
        have := TaskExtends.returned htext hgold
        rw [hg] at this
        cases this
        rfl
      | _ =>
        obtain ⟨w, hw, href⟩ := hi.alive ht hrepold (by rw [hgold]; rfl)
        rw [hwaiting] at hnot
        exact absurd href (hnot w hw)

/-- What is applied once the call of the task at `ref` has its answer: what was applied before, and
the call itself if it was permitted. A call that was permitted but still waits is not counted, since
its own operation is yet to come. -/
theorem Fleet.applied_answered (tid : TransactionID) (s' : Fleet) {x : PeerName} {ref : Nat}
    {t : Task} {r : Option ReplicateError} (ht : s.system.task? x ref = some t)
    (hg : t.goroutine = .replicate (.returned r))
    (hsystem : s'.system = s.system)
    (hwaiting : s'.waiting =
      Function.update s.waiting x ((s.waiting x).filter (·.ref ≠ ref))) :
    s'.Applied y tid ↔ s.Applied y tid ∨ y = x ∧ t.trans.tid = tid ∧ r = none := by
  constructor
  · rintro ⟨i, u, hu, hutid, hdone⟩
    rw [hsystem] at hu
    rcases hdone with hout | ⟨hgu, hnot⟩
    · exact .inl ⟨i, u, hu, hutid, .inl hout⟩
    · -- Another call, or the one that gets its answer.
      by_cases hsame : y = x ∧ i = ref
      · obtain ⟨rfl, rfl⟩ := hsame
        obtain rfl : t = u := Option.some.inj (ht.symm.trans hu)
        rw [hg] at hgu
        cases hgu
        exact .inr ⟨rfl, hutid, rfl⟩
      · refine .inl ⟨i, u, hu, hutid, .inr ⟨hgu, fun w hw href => ?_⟩⟩
        refine hnot w ?_ href
        rw [hwaiting]
        by_cases hy : y = x
        · subst hy
          rw [Function.update_self, List.mem_filter]
          exact ⟨hw, decide_eq_true fun heq => hsame ⟨rfl, href.symm.trans heq⟩⟩
        · rwa [Function.update_of_ne hy]
  · rintro (h | ⟨rfl, htid, rfl⟩)
    · refine h.mono (by rw [hsystem]; exact .refl _) fun w hw => .inl ?_
      rw [hwaiting] at hw
      by_cases hy : y = x
      · subst hy
        rw [Function.update_self] at hw
        exact List.mem_of_mem_filter hw
      · rwa [Function.update_of_ne hy] at hw
    · -- It waits no longer.
      refine ⟨ref, t, by rw [hsystem]; exact ht, htid, .inr ⟨hg, fun w hw => ?_⟩⟩
      rw [hwaiting, Function.update_self, List.mem_filter] at hw
      exact of_decide_eq_true hw.2

/-- What is applied when a new call starts. The new call has not gone on yet, and the other ones
are not touched. The call is appended to those that wait, so at its own host it counts as not
applied. -/
theorem Fleet.applied_replicate {x : PeerName} {request : Request} {new : TransactionID}
    {call : Call}
    (hstep : s.system.step c (.host x (.replicate new request)) = some s'.system)
    (hwaiting : s'.waiting = Function.update s.waiting x
      (s.waiting x ++ [⟨(s.system.hosts x).tasks.length, call⟩])) :
    s'.Applied y tid ↔ s.Applied y tid := by
  obtain ⟨⟨n, hn, -, -, hnrep, hnalive⟩, htasks⟩ := replicate_tasks hstep
  have hmem : ∀ {w}, w ∈ s'.waiting y ↔ w ∈ s.waiting y ∨
      y = x ∧ w = ⟨(s.system.hosts x).tasks.length, call⟩ := by
    intro w
    rw [hwaiting]
    by_cases hy : y = x
    · subst hy
      simp
    · simp [hy]
  constructor
  · rintro ⟨i, u, hu, hutid, hdone⟩
    rcases htasks hu with hold | ⟨rfl, rfl⟩
    · refine ⟨i, u, hold, hutid, hdone.imp_right fun ⟨hg, hnot⟩ => ⟨hg, fun w hw => ?_⟩⟩
      exact hnot w (hmem.mpr (.inl hw))
    · -- The new task has not returned.
      obtain rfl : n = u := Option.some.inj (hn.symm.trans hu)
      rcases hdone with ⟨request, err, hout⟩ | ⟨hg, -⟩
      · rcases outcome?_eq_some.mp hout with hg | hg <;> rw [hg] at hnrep <;> cases hnrep
      · rw [hg] at hnalive
        cases hnalive
  · intro h
    refine h.mono (System.step_move hstep).extends fun w hw => ?_
    rcases hmem.mp hw with hold | ⟨rfl, rfl⟩
    · exact .inl hold
    · exact .inr (by simp [System.task?])

end Applied

end ReplicatedFs.Rfs
