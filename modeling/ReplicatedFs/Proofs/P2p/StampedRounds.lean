import ReplicatedFs.Proofs.P2p.Rounds

/-!
# `ReplicatedFs.Proofs.P2p.StampedRounds`: rounds whose requests carry a fixed clock

`Host.Replicate` sends the clock that its caller put into the request. It does not put in the
clock of the host. So a round can be played with any stamps.

No step reads the clock of a host (`System.step_shift`): the same run is one of hosts whose
clocks are other ones. With the stamps as clocks it is a round, and what is known of rounds
holds for it (`RoundInv.stamped`). The stamps decide it, whatever the clocks are.

* `stamped_nil`, `stamped_fails`: who wins and who loses.
-/

set_option autoImplicit false

namespace ReplicatedFs.P2p

open ReplicatedFs.Protobuf
open Library

/-- The host with its clock moved by `d`. -/
def Host.shift (d : UInt64) (h : Host) : Host := { h with clock := h.clock + d }

/-- The system with all clocks moved. -/
def System.shift (d : PeerName → UInt64) (s : System) : System :=
  { s with hosts := fun x => (s.hosts x).shift (d x) }

section Shift
variable {c : Cluster} {d : PeerName → UInt64}

/-- The steps of a reader do not depend on the clock. The stamps that they compare are those of the
requests. -/
theorem Task.step_shift (h : Host) (d : UInt64) (t : Task) (input : Input) :
    t.step (h.shift d) input = t.step h input := by
  unfold Task.step
  cases t.goroutine with
  | replicate pc => cases pc <;> cases input <;> rfl
  | handle pc => cases pc <;> cases input <;> rfl

/-- `Put` reads no clock: it does the same when the clock is moved. -/
theorem Host.put_shift (h : Host) (d : UInt64) (msg : Message) (reader : Goroutine) :
    (h.shift d).put msg reader = ((h.put msg reader).1.shift d, (h.put msg reader).2) := by
  unfold Host.put
  simp only [Host.shift]
  split <;> rfl

/-- Neither does `listen` on its way to `Put`, which stores the message as it came. -/
theorem Host.deliver_shift (h : Host) (d : UInt64) (msg : Message) :
    (h.shift d).deliver msg = (h.deliver msg).shift d := by
  unfold Host.deliver
  rw [Host.put_shift]
  rfl

/-- The effect of a move of a reader on its host. `processResponses` adds to the clock, and it adds
the same to a clock that is moved. -/
theorem Host.apply_shift (h : Host) (d : UInt64) (ref : Nat) (m : Move) :
    (h.shift d).apply ref m = (h.apply ref m).shift d := by
  simp only [Host.apply, Host.shift, Host.mk.injEq, true_and, and_true]
  split
  · rw [UInt64.add_assoc, UInt64.add_comm d 1, ← UInt64.add_assoc]
  · rfl

/-- A step of a host with another clock. No step reads the clock, and those that add to it keep the
difference. -/
theorem Host.step_shift (h : Host) (d : UInt64) (e : Event) :
    (h.shift d).step e = (h.step e).map fun r => (r.1.shift d, r.2) := by
  unfold Host.step
  show (if h.panicked.isSome then none else _) = _
  split
  · rfl
  -- No branch reads the clock, and only `apply` adds to it.
  cases e with
  | replicate tid request =>
    show (if (h.ts.lookup tid).isSome then none else _) = _
    simp only [Host.put_shift]
    split <;> rfl
  | receive msg =>
    show (if h.listen.isSome then none else _) = _
    simp only [Host.deliver_shift]
    split <;> rfl
  | notify =>
    simp only [Host.shift]
    cases h.listen with
    | none => rfl
    | some p =>
      cases htask : h.tasks[p.1]? with
      | none => simp [htask]
      | some t =>
        by_cases hrec : t.receiving h.peers.length = true <;> simp [htask, hrec]
  | task ref input =>
    have htasks : (h.shift d).tasks = h.tasks := rfl
    simp only [htasks]
    cases htask : h.tasks[ref]? with
    | none => rfl
    | some t =>
      simp only [Task.step_shift, Host.apply_shift]
      cases hstep : t.step h input with
      | none => rfl
      | some result =>
        cases result with
        | error p => rfl
        | ok m => rfl

/-- A step of the system with other clocks. Each host may be shifted by a difference of its own. -/
theorem System.step_shift (d : PeerName → UInt64) (s : System) (a : Action) :
    (s.shift d).step c a = (s.step c a).map (System.shift d) := by
  cases a with
  | lose x msg =>
    by_cases hmem : (x, msg) ∈ s.inFlight <;> simp [System.step, System.shift, hmem]
  | host x e =>
    -- What the system lets in depends on the log and the network, and not on the clocks.
    have hadmits : (s.shift d).admits c x e = s.admits c x e := by cases e <;> rfl
    have hstep : ((s.shift d).hosts x).step e = ((s.hosts x).step e).map _ :=
      Host.step_shift (s.hosts x) (d x) e
    simp only [System.step, hadmits, hstep]
    split
    · simp only [Option.map_map]
      congr 1
      funext r
      show System.mk _ _ _ = System.mk _ _ _
      rw [System.mk.injEq]
      refine ⟨?_, by cases e <;> rfl, rfl⟩
      funext y
      by_cases hy : y = x
      · subst hy
        simp
      · simp [hy, System.shift]
    · rfl

/-- So the system takes the same steps with its clocks moved, each by its own amount. The guard of
the fault-free steps does not look at them either. -/
theorem System.stepFF_shift (d : PeerName → UInt64) (s : System) (a : Action) :
    System.stepFF c (s.shift d) a = (System.stepFF c s a).map (System.shift d) := by
  show (if faultFree c s a then _ else _) = Option.map _ (if faultFree c s a then _ else _)
  split
  · exact System.step_shift d s a
  · rfl

/-- The states of fault-free runs stay so with other clocks: the run starts with clocks that are
shifted in the same way. -/
theorem ReachableFF.shift {s : System} (h : ReachableFF c s) (d : PeerName → UInt64) :
    ReachableFF c (s.shift d) := by
  obtain ⟨clocks, as, has⟩ := h
  refine ⟨fun x => clocks x + d x, as, ?_⟩
  show run (System.stepFF c) ((System.init c clocks).shift d) as = _
  rw [run_map (System.shift d) (System.stepFF_shift d), has]
  rfl

end Shift

/-- What a round admits, whatever clock its requests carry. -/
def contendGuard (contenders : List PeerName) (path newPath : String) (s₀ s : System) :
    Action → Bool
  | .host x (.replicate _ r) =>
    x ∈ contenders ∧ s₀.called s x = false ∧ onPaths path newPath r = true
  | .host _ (.task _ (.consulted response)) => response.type = .ack
  | _ => true

/-- The steps of a round that started in `s₀`, whatever clock its requests carry. -/
def contendStep (c : Cluster) (contenders : List PeerName) (path newPath : String)
    (s₀ : System) : System → Action → Option System :=
  restrict (System.stepFF c) (contendGuard contenders path newPath s₀)

/-- A request carries the stamp of its host. -/
def stamped (stamps : PeerName → UInt64) (_ : System) : Action → Bool
  | .host x (.replicate _ r) => r.clock = stamps x
  | _ => true

/-- The result of a call that the host `x` made between the two states. -/
def System.Returned (s s' : System) (x : PeerName) (res : Option ReplicateError) : Prop :=
  ∃ i t, s'.task? x i = some t ∧ s.task? x i = none ∧
    t.goroutine = .replicate (.returned res)

section Stamped
variable {c : Cluster} {contenders : List PeerName} {path newPath : String}
variable {stamps : PeerName → UInt64} {s s' : System} {as : List Action}

/-- How far the clocks of a state are from the stamps. -/
def System.lag (s : System) (stamps : PeerName → UInt64) (x : PeerName) : UInt64 :=
  stamps x - (s.hosts x).clock

/-- The clocks that are moved by the lag show the stamps. This turns a round on stamps into one on
clocks. -/
@[simp] theorem System.shift_lag_clock (s : System) (stamps : PeerName → UInt64)
    (x : PeerName) : ((s.shift (s.lag stamps)).hosts x).clock = stamps x := by
  show (s.hosts x).clock + (stamps x - (s.hosts x).clock) = stamps x
  rw [UInt64.add_comm, UInt64.sub_add_cancel]

/-- With the stamps as the clocks at its start, a stamped round is a round. The clocks are shifted
by the difference, and the steps are the same. A host calls once in a round, at a time when its
clock is still the one of the start. -/
theorem reaches_stamped (hs : ReachableFF c s) (hstart : s.Finished)
    (hrun : run (restrict (contendStep c contenders path newPath s) (stamped stamps)) s as =
      some s') :
    Reaches (roundStep c contenders path newPath (s.shift (s.lag stamps)))
      (s.shift (s.lag stamps)) (s'.shift (s.lag stamps)) := by
  refine run_invariant (I := fun m => Reaches (roundStep c contenders path newPath
    (s.shift (s.lag stamps))) (s.shift (s.lag stamps)) (m.shift (s.lag stamps))) ?_ hrun
    (Reaches.refl _)
  intro m a m' hstep hreach
  obtain ⟨hstamp, hcontend⟩ := restrict_eq_some.mp hstep
  obtain ⟨hguard, hff⟩ := restrict_eq_some.mp hcontend
  refine hreach.trans (.single (a := a) (restrict_eq_some.mpr ⟨?_, ?_⟩))
  · obtain ⟨bs, hbs⟩ := hreach
    obtain ⟨hr, -, -⟩ := RoundInv.run (hs.shift _) hstart hbs
    match a with
    | .host x (.replicate tid r) =>
      simp only [contendGuard, stamped, decide_eq_true_eq] at hguard hstamp
      obtain ⟨hmem, hcalled, hon⟩ := hguard
      refine decide_eq_true ⟨hmem, hcalled, hon, ?_⟩
      -- A host that has not called has no failed call, so its clock is the one of the start.
      rw [hr.clock_kept, System.shift_lag_clock, hstamp]
      intro i t ht hnew
      cases hfailed : t.failed with
      | false => rfl
      | true =>
        have hrep := isReplicate_of_not_called hcalled ht hnew
        rw [Task.isReplicate_of_failed hfailed] at hrep
        cases hrep
    | .host x (.task ref (.consulted response)) => exact hguard
    | .host x (.task ref .run) => rfl
    | .host x (.task ref (.broadcast result)) => rfl
    | .host x (.task ref (.contextDone err)) => rfl
    | .host x (.task ref (.mirrored err)) => rfl
    | .host x (.receive msg) => rfl
    | .host x .notify => rfl
    | .lose x msg => rfl
  · rw [System.stepFF_shift, hff]
    rfl

/-- The invariant of rounds holds in a stamped round, with the stamps for the clocks. -/
theorem RoundInv.stamped (hs : ReachableFF c s) (hstart : s.Finished)
    (hrun : Library.run (restrict (contendStep c contenders path newPath s)
      (P2p.stamped stamps)) s as = some s') :
    RoundInv contenders path newPath (s.shift (s.lag stamps)) (s'.shift (s.lag stamps)) ∧
      SystemInv c (s'.shift (s.lag stamps)) ∧ FaultFreeInv c (s'.shift (s.lag stamps)) := by
  obtain ⟨bs, hbs⟩ := reaches_stamped hs hstart hrun
  exact RoundInv.run (hs.shift _) hstart hbs

/-- A host that called has a result at the end of the round, because the round has come to its
end. -/
theorem System.returned_of_called (hfinish : s'.Finished) {x : PeerName}
    (hcalled : s.called s' x = true) : ∃ res, s.Returned s' x res := by
  obtain ⟨i, t, res, ht, hnew, hg⟩ := exists_returned hfinish hcalled
  exact ⟨res, i, t, ht, hnew, hg⟩

/-- The call of a contender that no other outranks does not fail. The stamps are those that the
requests carry, whatever the clocks of the hosts are. The statement on rounds is about clocks, so it
is used with the clocks shifted to the stamps. -/
theorem stamped_nil (hs : ReachableFF c s) (hstart : s.Finished)
    (hrun : run (restrict (contendStep c contenders path newPath s) (stamped stamps)) s as =
      some s') {x : PeerName}
    (hfirst : ∀ q ∈ contenders, ¬ priority (stamps x) x < priority (stamps q) q)
    {res : Option ReplicateError} (hres : s.Returned s' x res) : res = none := by
  obtain ⟨hr, hi, hf⟩ := RoundInv.stamped hs hstart hrun
  obtain ⟨i, t, ht, hnew, hg⟩ := hres
  have htask : (s'.shift (s.lag stamps)).task? x i = some t := ht
  refine hr.nil_of_not_refused hi hf htask hnew hg fun q k v hv htid => ?_
  cases href : v.refused with
  | false => rfl
  | true =>
    have hrep : t.goroutine.isReplicate = true := by rw [hg]; rfl
    -- A refusal names a contender that outranks the caller, which is `x`.
    obtain ⟨p, j, u, q, hu, hurep, hutid, hq, hlt⟩ :=
      hr.refused hv (hr.new_of_tid htask hnew hv htid) href
    obtain ⟨rfl, -⟩ := hi.initiators hu htask hurep hrep (hutid.trans htid)
    simp only [System.shift_lag_clock] at hlt
    exact absurd hlt (hfirst q hq)

/-- When some request is refused, the call of a contender fails that another one outranks. Which one
it is depends on the run, since a request is refused only if it meets a greater one in some map. -/
theorem stamped_fails (hs : ReachableFF c s) (hstart : s.Finished)
    (hrun : run (restrict (contendStep c contenders path newPath s) (stamped stamps)) s as =
      some s') {z : PeerName} {k : Nat} {v : Task} (hv : s'.task? z k = some v)
    (hvnew : s.task? z k = none) (href : v.refused = true) :
    ∃ p ∈ contenders, ∃ q ∈ contenders,
      priority (stamps p) p < priority (stamps q) q ∧ ¬ s.Returned s' p none := by
  obtain ⟨hr, hi, -⟩ := RoundInv.stamped hs hstart hrun
  obtain ⟨p, j, u, q, hu, hurep, hutid, hq, hlt⟩ := hr.refused hv hvnew href
  have hunew := hr.new_of_tid hv hvnew hu hutid
  refine ⟨p, (hr.calls hu hunew hurep).1, q, hq, by simpa using hlt, ?_⟩
  rintro ⟨i, t, ht, hnew, hg⟩
  -- The refused call is the only one of its host.
  have hrep : t.goroutine.isReplicate = true := by rw [hg]; rfl
  obtain rfl := hr.once hu hunew hurep ht hnew hrep
  obtain rfl : u = t := Option.some.inj (hu.symm.trans ht)
  exact hi.result_of_refused hv href hu hurep hutid (by rw [hg]; rfl)

end Stamped

end ReplicatedFs.P2p
