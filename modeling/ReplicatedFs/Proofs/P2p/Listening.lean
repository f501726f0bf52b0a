import Mathlib.Data.Finset.Card
import ReplicatedFs.P2p.Listening
import ReplicatedFs.Proofs.P2p.Progress

/-!
# `ReplicatedFs.Proofs.P2p.Listening`: `listen` with the variable `err`

`ListeningMove` lists the steps of a `ListeningSystem`, and `ListeningSystem.step_move` says that
there are no others. Every one of them is a step of its `System`, or leaves that alone, so whatever
holds in all runs of `System` holds here (`ListeningSystem.reachable`). What takes care is the
fault-free runs: a test that drops a message is a `lose`, which no fault-free run of `System` has.

* `ListeningInv`: when no closure disturbs `listen`, what it has read is in flight, and `err` is
  nil.
* `ReachableClean.system`: such a run is a fault-free run of the `System`.
* `ListeningSystem.settles`: without new calls it comes to an end, and every reader has returned
  then.
* `ListeningSystem.quiet_of_idle`: when nothing can happen any more.
-/

set_option autoImplicit false

namespace ReplicatedFs.P2p

open ReplicatedFs.Protobuf
open Library

/-- The steps of the system with the variables of `listen`. -/
inductive ListeningMove (c : Cluster) (s : ListeningSystem) :
    ListeningAction → ListeningSystem → Prop
  | read (x : PeerName) (msg : Message) (hx : x ∈ c.names) (hmem : (x, msg) ∈ s.system.inFlight)
      (hl : (s.system.hosts x).listen = none) (hidle : (s.listeners x).reading = none) :
      ListeningMove c s (.read x msg) (s.setListener x ((s.listeners x).read (.ok msg)))
  | test (x : PeerName) (r : Reading) (action : Action) (system : System)
      (hr : (s.listeners x).reading = some r) (ha : r.action? x = some action)
      (hs : s.system.step c action = some system) :
      ListeningMove c s (.test x) { s.setListener x (s.listeners x).next with system }
  | assign (x : PeerName) (ref : Nat) (l : Listener) (hx : x ∈ c.names)
      (hl : (s.listeners x).assign (s.system.hosts x) ref = some l) :
      ListeningMove c s (.assign x ref) (s.setListener x l)
  | other (action : Action) (system : System) (ha : s.admits action = true)
      (hs : s.system.step c action = some system) :
      ListeningMove c s (.other action) { s with system }

section Steps
variable {c : Cluster} {s s' : ListeningSystem} {a : ListeningAction}

/-- The variables of `listen` are its own: to set them changes no host and no message. -/
@[simp] theorem ListeningSystem.setListener_system (x : PeerName) (l : Listener) :
    (s.setListener x l).system = s.system := rfl

/-- The `listen` whose variables are set has these. With this and the next one the steps of `listen`
are computed. -/
@[simp] theorem ListeningSystem.setListener_self (x : PeerName) (l : Listener) :
    (s.setListener x l).listeners x = l := Function.update_self ..

/-- The `listen` of any other host keeps its own. Each host has one `listen`. -/
theorem ListeningSystem.setListener_of_ne {x y : PeerName} (hy : y ≠ x) (l : Listener) :
    (s.setListener x l).listeners y = s.listeners y := Function.update_of_ne hy ..

/-- The system has no other steps. The cases are the four labels. In a test it depends on `err`
whether the message is delivered or lost, and this is left open in the move, as the invariant
decides it. -/
theorem ListeningSystem.step_move (h : s.step c a = some s') : ListeningMove c s a s' := by
  cases a with
  | read x msg =>
    simp only [ListeningSystem.step] at h
    split at h <;> cases h
    rename_i hguard
    obtain ⟨⟨hx, hmem⟩, -, hl, hidle⟩ := hguard
    exact .read x msg hx (by simpa [System.admits] using hmem) (Option.isNone_iff_eq_none.mp hl)
      (Option.isNone_iff_eq_none.mp hidle)
  | test x =>
    simp only [ListeningSystem.step] at h
    obtain ⟨action, haction, h⟩ := Option.bind_eq_some_iff.mp h
    -- The reading decides whether the test delivers the message or loses it.
    obtain ⟨r, hr, ha⟩ := Option.bind_eq_some_iff.mp haction
    obtain ⟨system, hs, rfl⟩ := Option.map_eq_some_iff.mp h
    exact .test x r action system hr ha hs
  | assign x ref =>
    simp only [ListeningSystem.step] at h
    split at h
    · rename_i hguard
      obtain ⟨l, hl, rfl⟩ := Option.map_eq_some_iff.mp h
      exact .assign x ref l hguard.1 hl
    · cases h
  | other action =>
    simp only [ListeningSystem.step] at h
    split at h
    · rename_i ha
      obtain ⟨system, hs, rfl⟩ := Option.map_eq_some_iff.mp h
      exact .other action system ha hs
    · cases h

/-- A step is one of the `System`, or leaves it alone. The steps that leave it alone only set
variables of `listen`. -/
theorem ListeningMove.system_step (hm : ListeningMove c s a s') :
    s'.system = s.system ∨ ∃ action, s.system.step c action = some s'.system := by
  cases hm with
  | read | assign => exact .inl rfl
  | test x r action system hr ha hs => exact .inr ⟨action, hs⟩
  | other action system ha hs => exact .inr ⟨action, hs⟩

/-- Every run is one of the `System`. So what holds in all states of the `System` holds here. -/
theorem ListeningSystem.reachable {clocks : PeerName → UInt64}
    (hs : Reaches (ListeningSystem.step c) (ListeningSystem.init c clocks) s) :
    Reachable c s.system := by
  refine hs.invariant (I := fun s => Reachable c s.system) ?_ ⟨clocks, Reaches.refl _⟩
  rintro s a s' hstep ⟨clocks, hreach⟩
  rcases (ListeningSystem.step_move hstep).system_step with hsame | ⟨action, haction⟩
  · exact ⟨clocks, hsame ▸ hreach⟩
  · exact ⟨clocks, hreach.trans (.single haction)⟩

/-- What a fault-free step does to the listeners of the host `x`, when it is no delivery to `x`: the
messages in flight to `x` stay there, and `listen` stays where it waits for the next message. -/
private theorem System.frame {sys sys' : System} {action : Action} {x : PeerName}
    (hs : sys.stepFF c action = some sys') (hne : ∀ msg, action ≠ .host x (.receive msg))
    (hl : (sys.hosts x).listen = none) :
    (sys'.hosts x).listen = none ∧
      ∀ msg, (x, msg) ∈ sys.inFlight → (x, msg) ∈ sys'.inFlight := by
  obtain ⟨hfree, hstep⟩ := restrict_eq_some.mp hs
  cases System.step_move hstep with
  | lose y msg hmem => cases hfree
  | host y e h' sent hy ha hp hm =>
    constructor
    · by_cases hyx : x = y
      · subst hyx
        show (Function.update sys.hosts x h' x).listen = none
        rw [Function.update_self]
        cases hm with
        -- These two are the deliveries.
        | join msg ref | spawn msg => exact absurd rfl (hne msg)
        | notify => rfl
        | _ => exact hl
      · show (Function.update sys.hosts y h' x).listen = none
        rw [Function.update_of_ne hyx]
        exact hl
    · intro msg hmem
      refine List.mem_append_left _ ?_
      cases e with
      | receive msg' =>
        -- The delivery is to another host, and takes another message out of the network.
        have hyx : x ≠ y := by
          rintro rfl
          exact hne msg' rfl
        exact (List.mem_erase_of_ne fun heq => hyx (congrArg Prod.fst heq)).mpr hmem
      | _ => exact hmem

/-- While no closure disturbs it: a message that `listen` has read is in flight to it, `err` is nil,
and `listen` does not wait for a reader. -/
def ListeningInv (c : Cluster) (s : ListeningSystem) : Prop :=
  ∀ x r, (s.listeners x).reading = some r →
    x ∈ c.names ∧ (s.system.hosts x).listen = none ∧
      ∃ msg, r = ⟨some msg, false⟩ ∧ (x, msg) ∈ s.system.inFlight

/-- A clean step is a fault-free one of the `System`, or leaves it alone. -/
theorem ListeningInv.system_step (hi : ListeningInv c s) (h : s.stepClean c a = some s') :
    s'.system = s.system ∨ ∃ action, s.system.stepFF c action = some s'.system := by
  obtain ⟨-, hff⟩ := restrict_eq_some.mp h
  obtain ⟨hfree, hstep⟩ := restrict_eq_some.mp hff
  cases ListeningSystem.step_move hstep with
  | read | assign => exact .inl rfl
  | other action system ha hs => exact .inr ⟨action, restrict_eq_some.mpr ⟨hfree, hs⟩⟩
  | test x r action system hr ha hs =>
    -- The message is delivered, since `err` is nil.
    obtain ⟨-, -, msg, rfl, -⟩ := hi x r hr
    obtain rfl : Action.host x (.receive msg) = action := by simpa [Reading.action?] using ha
    exact .inr ⟨_, restrict_eq_some.mpr ⟨rfl, hs⟩⟩

/-- A step that neither touches the listener of `x` nor delivers a message to `x`. -/
private theorem ListeningInv.keep (hi : ListeningInv c s) (s' : ListeningSystem) {x : PeerName}
    (action : Action)
    (hl : s'.listeners x = s.listeners x) (hs : s.system.stepFF c action = some s'.system)
    (hne : ∀ msg, action ≠ .host x (.receive msg)) {r : Reading}
    (hr : (s'.listeners x).reading = some r) :
    x ∈ c.names ∧ (s'.system.hosts x).listen = none ∧
      ∃ msg, r = ⟨some msg, false⟩ ∧ (x, msg) ∈ s'.system.inFlight := by
  rw [hl] at hr
  obtain ⟨hx, hlisten, msg, hmsg, hmem⟩ := hi x r hr
  obtain ⟨hlisten', hflight⟩ := System.frame hs hne hlisten
  exact ⟨hx, hlisten', msg, hmsg, hflight msg hmem⟩

/-- Every clean step keeps the invariant. A message that was read stays in flight until the step
that tests it, so it cannot be lost in between. -/
theorem ListeningInv.step (hi : ListeningInv c s) (h : s.stepClean c a = some s') :
    ListeningInv c s' := by
  obtain ⟨hclean, hff⟩ := restrict_eq_some.mp h
  obtain ⟨hfree, hstep⟩ := restrict_eq_some.mp hff
  intro y r hr
  cases ListeningSystem.step_move hstep with
  | read x msg hx hmem hl hidle =>
    by_cases hy : y = x
    · subst hy
      rw [ListeningSystem.setListener_self] at hr
      cases hr
      exact ⟨hx, hl, msg, rfl, hmem⟩
    · rw [ListeningSystem.setListener_of_ne hy] at hr
      exact hi y r hr
  | test x r' action system hr' ha hs =>
    obtain ⟨-, -, msg, rfl, -⟩ := hi x r' hr'
    obtain rfl : Action.host x (.receive msg) = action := by simpa [Reading.action?] using ha
    by_cases hy : y = x
    · subst hy
      rw [show ({ s.setListener y (s.listeners y).next with system } :
        ListeningSystem).listeners y = (s.listeners y).next from Function.update_self ..] at hr
      cases hr
    · refine hi.keep _ (.host x (.receive msg)) (Function.update_of_ne hy ..)
        (restrict_eq_some.mpr ⟨rfl, hs⟩) ?_ hr
      rintro msg' heq
      cases heq
      exact hy rfl
  | assign x ref l hx hl =>
    by_cases hy : y = x
    · subst hy
      rw [ListeningSystem.setListener_self] at hr
      obtain ⟨result, hresult, -, rfl⟩ := Listener.assign_eq_some hl
      obtain ⟨old, hold, rfl⟩ := Option.map_eq_some_iff.mp hr
      obtain ⟨hx, hlisten, msg, rfl, hmem⟩ := hi y old hold
      -- The closure assigns nil, since there is a message.
      have hnil : result.failed = false := by
        simpa [ListeningSystem.undisturbed, Listener.undisturbed, Listener.message?, hold,
          hresult] using hclean
      exact ⟨hx, hlisten, msg, by rw [hnil], hmem⟩
    · rw [ListeningSystem.setListener_of_ne hy] at hr
      exact hi y r hr
  | other action system ha hs =>
    refine hi.keep { s with system } action rfl (restrict_eq_some.mpr ⟨hfree, hs⟩) ?_ hr
    rintro msg rfl
    cases ha

end Steps

/-- A clean run is a fault-free run of the `System`, when the steps that only set variables of
`listen` are left out. -/
theorem ReachableClean.system {c : Cluster} {s : ListeningSystem} (hs : ReachableClean c s) :
    ListeningInv c s ∧ ReachableFF c s.system := by
  obtain ⟨clocks, hreach⟩ := hs
  refine hreach.invariant (I := fun s => ListeningInv c s ∧ ReachableFF c s.system) ?_
    ⟨nofun, clocks, Reaches.refl _⟩
  rintro s a s' hstep ⟨hi, hff⟩
  refine ⟨hi.step hstep, ?_⟩
  rcases hi.system_step hstep with hsame | ⟨action, haction⟩
  · rw [hsame]
    exact hff
  · exact hff.trans (.single haction)

/-- The clean steps other than new calls. -/
def ListeningSystem.settleStep (c : Cluster) :
    ListeningSystem → ListeningAction → Option ListeningSystem :=
  restrict (ListeningSystem.stepClean c) fun _ a => !a.isCall

/-- Nothing but a new call is possible without a fault of the network or of a context. -/
def ListeningSystem.Quiet (c : Cluster) (s : ListeningSystem) : Prop :=
  ∀ a, a.isCall = false → s.stepFF c a = none

/-- What is left for `listen` to read and for the closures to assign. -/
def Listener.work (l : Listener) (h : Host) : Nat :=
  l.reading.isNone.toNat + (Finset.range h.tasks.length \ l.assigned.toFinset).card

/-- The steps that are left for the system. A step of `System` is worth three, one for itself, one
for the next message that can be read, and one for the assignment of a new closure. -/
def ListeningSystem.work (c : Cluster) (s : ListeningSystem) : Nat :=
  3 * s.system.work c + (c.names.map fun x => (s.listeners x).work (s.system.hosts x)).sum

section Settle
variable {c : Cluster} {s s' : ListeningSystem} {a : ListeningAction}

/-- One closure more may be left to assign: the one that a new handler comes with. -/
private theorem Listener.work_le {l l' : Listener} {h h' : Host} {k : Nat}
    (hlen : h'.tasks.length ≤ h.tasks.length + 1) (hassigned : l'.assigned = l.assigned)
    (hreading : l'.reading.isNone.toNat ≤ l.reading.isNone.toNat + k) :
    l'.work h' ≤ l.work h + k + 1 := by
  -- The goroutines that have not assigned yet, and the new one.
  have hsub : Finset.range h'.tasks.length \ l'.assigned.toFinset ⊆
      insert h.tasks.length (Finset.range h.tasks.length \ l.assigned.toFinset) := by
    intro i hi
    simp only [hassigned, Finset.mem_sdiff, Finset.mem_insert, Finset.mem_range] at hi ⊢
    by_cases hlast : i = h.tasks.length
    · exact .inl hlast
    · exact .inr ⟨by omega, hi.2⟩
  have hcard := (Finset.card_le_card hsub).trans (Finset.card_insert_le ..)
  unfold Listener.work
  omega

/-- An assignment is done once, so the work that is left for `listen` goes down by one. -/
private theorem Listener.work_assign {l l' : Listener} {h : Host} {ref : Nat}
    (ha : l.assign h ref = some l') : l'.work h + 1 = l.work h := by
  obtain ⟨result, hresult, hnew, rfl⟩ := Listener.assign_eq_some ha
  obtain ⟨t, ht, -⟩ := Host.result?_eq_some.mp hresult
  have hmem : ref ∈ Finset.range h.tasks.length \ l.assigned.toFinset := by
    simp [lt_length_of_getElem? ht, hnew]
  have hcard := Finset.card_erase_add_one hmem
  rw [← Finset.sdiff_insert, ← List.toFinset_cons] at hcard
  simp only [Listener.work, Option.isNone_map]
  omega

/-- A step of one listener changes one term of the sum. Stated without a difference of natural
numbers. -/
private theorem ListeningSystem.sum_setListener {x : PeerName} (hx : x ∈ c.names) (l : Listener) :
    (c.names.map fun y => ((s.setListener x l).listeners y).work (s.system.hosts y)).sum +
        (s.listeners x).work (s.system.hosts x) =
      (c.names.map fun y => (s.listeners y).work (s.system.hosts y)).sum +
        l.work (s.system.hosts x) := by
  have hsum := sum_map_update c.nodup hx
    (f := fun y => (s.listeners y).work (s.system.hosts y))
    (g := fun y => ((s.setListener x l).listeners y).work (s.system.hosts y))
    (fun y _ hy => by rw [ListeningSystem.setListener_of_ne hy])
  simp only [ListeningSystem.setListener_self] at hsum
  omega

/-- A step of the host `x`, with what it means for its listener. The listeners of the other hosts
have as much to do as before. -/
private theorem ListeningSystem.sum_host (s' : ListeningSystem) {x : PeerName} {e : Event}
    {k : Nat} (hs : s.system.step c (.host x e) = some s'.system)
    (hothers : ∀ y, y ≠ x → s'.listeners y = s.listeners y)
    (hassigned : (s'.listeners x).assigned = (s.listeners x).assigned)
    (hreading : (s'.listeners x).reading.isNone.toNat ≤
      (s.listeners x).reading.isNone.toNat + k) :
    (c.names.map fun y => (s'.listeners y).work (s'.system.hosts y)).sum ≤
      (c.names.map fun y => (s.listeners y).work (s.system.hosts y)).sum + k + 1 := by
  have hm := System.step_move hs
  generalize s'.system = system at hm ⊢
  cases hm with
  | host x e h' sent hx ha hp hm =>
    have hwork := Listener.work_le hm.length_tasks_le hassigned hreading
    have hsum := sum_map_update c.nodup hx
      (f := fun y => (s.listeners y).work (s.system.hosts y))
      (g := fun y => (s'.listeners y).work (Function.update s.system.hosts x h' y))
      (fun y _ hy => by rw [hothers y hy, Function.update_of_ne hy])
    simp only [Function.update_self] at hsum
    show (c.names.map fun y =>
      (s'.listeners y).work (Function.update s.system.hosts x h' y)).sum ≤ _
    omega

/-- Every clean step other than a call lowers the work. So the steps after the last call come to an
end. A step of the `System` may enable one more reading and one more assignment, which is why it
counts three times. -/
theorem ListeningSystem.settleStep_work (hl : ListeningInv c s) (hi : SystemInv c s.system)
    (hf : FaultFreeInv c s.system) (h : s.settleStep c a = some s') : s'.work c < s.work c := by
  obtain ⟨hcall, hclean⟩ := restrict_eq_some.mp h
  obtain ⟨-, hff⟩ := restrict_eq_some.mp hclean
  obtain ⟨hfree, hstep⟩ := restrict_eq_some.mp hff
  cases ListeningSystem.step_move hstep with
  | read x msg hx hmem hlisten hidle =>
    have hsum := s.sum_setListener hx ((s.listeners x).read (.ok msg))
    have hread : ((s.listeners x).read (.ok msg)).work (s.system.hosts x) + 1 =
        (s.listeners x).work (s.system.hosts x) := by
      simp only [Listener.work, Listener.read, hidle, Option.isNone_some, Option.isNone_none,
        Bool.toNat_false, Bool.toNat_true]
      omega
    simp only [ListeningSystem.work, ListeningSystem.setListener_system]
    omega
  | assign x ref l hx hassign =>
    have hsum := s.sum_setListener hx l
    have hone := Listener.work_assign hassign
    simp only [ListeningSystem.work, ListeningSystem.setListener_system]
    omega
  | test x r action system hr ha hs =>
    -- In a clean run the test always delivers.
    obtain ⟨-, -, msg, rfl, -⟩ := hl x r hr
    obtain rfl : Action.host x (.receive msg) = action := by simpa [Reading.action?] using ha
    have hwork := P2p.settleStep_work hi hf
      (restrict_eq_some.mpr ⟨rfl, restrict_eq_some.mpr ⟨rfl, hs⟩⟩)
    have hsum := sum_host (k := 1) { s.setListener x (s.listeners x).next with system } hs
      (fun y hy => Function.update_of_ne hy ..)
      (by simp [ListeningSystem.setListener, Listener.next])
      (by simp [ListeningSystem.setListener, Listener.next])
    simp only [ListeningSystem.work] at hsum ⊢
    omega
  | other action system ha hs =>
    have hwork := P2p.settleStep_work hi hf
      (restrict_eq_some.mpr ⟨hcall, restrict_eq_some.mpr ⟨hfree, hs⟩⟩)
    cases action with
    | lose x msg => cases hfree
    | host x e =>
      have hsum := sum_host (k := 0) { s with system } hs (fun y _ => rfl) rfl
        (Nat.le_refl _)
      simp only [ListeningSystem.work] at hsum ⊢
      omega

/-- In a quiet state `listen` has tested what it read, since the test is a step that is always
possible. -/
private theorem ListeningInv.idle_of_quiet (hl : ListeningInv c s)
    (hf : FaultFreeInv c s.system) (hq : s.Quiet c) (x : PeerName) :
    (s.listeners x).reading = none := by
  cases hr : (s.listeners x).reading with
  | none => rfl
  | some r =>
    obtain ⟨hx, hlisten, msg, rfl, hmem⟩ := hl x r hr
    have hnone := hq (.test x) rfl
    simp [ListeningSystem.stepFF, restrict, ListeningSystem.faultFree, ListeningSystem.step, hr,
      Reading.action?, System.step, hx, System.admits, hmem, Host.step, hf.running x,
      hlisten] at hnone

/-- A quiet state of the system with the variables of `listen` is quiet without them. If the
`System` had a step, the larger system would have the same one, or one of `listen` that comes before
it: to read the message, or to assign the variable. -/
private theorem ListeningInv.system_quiet (hl : ListeningInv c s) (hf : FaultFreeInv c s.system)
    (hq : s.Quiet c) : s.system.Quiet c := by
  intro action
  by_contra hsome
  obtain ⟨system, hsettle⟩ := Option.ne_none_iff_exists'.mp hsome
  obtain ⟨hcall, hff⟩ := restrict_eq_some.mp hsettle
  obtain ⟨hfree, hstep⟩ := restrict_eq_some.mp hff
  cases System.step_move hstep with
  | lose x msg hmem => cases hfree
  | host x e h' sent hx ha hp hm =>
    have hidle := hl.idle_of_quiet hf hq x
    have hother := hq (.other (.host x e)) (by simpa [ListeningAction.isCall] using hcall)
    simp only [ListeningSystem.stepFF, restrict, ListeningSystem.faultFree, hfree, if_true,
      ListeningSystem.step, hstep, Option.map_some, ite_eq_right_iff, reduceCtorEq, imp_false]
      at hother
    cases e with
    | replicate tid request => cases hcall
    | notify => exact hother rfl
    | receive msg =>
      -- `listen` can read the message.
      have hlisten : (s.system.hosts x).listen = none := by cases hm <;> assumption
      have hread := hq (.read x msg) rfl
      simp [ListeningSystem.stepFF, restrict, ListeningSystem.faultFree, ListeningSystem.step, hx,
        ha, hp, hlisten, hidle] at hread
    | task ref input =>
      -- Only a closure that has not assigned yet is held back, and it can assign.
      simp only [ListeningSystem.admits, Listener.allows, Bool.or_eq_true, not_or,
        decide_eq_true_eq] at hother
      obtain ⟨hresult, hnew⟩ := hother
      obtain ⟨result, hresult⟩ : ∃ result, (s.system.hosts x).result? ref = some result := by
        simpa [Option.isNone_iff_eq_none, Option.ne_none_iff_exists'] using hresult
      have hassign := hq (.assign x ref) rfl
      simp [ListeningSystem.stepFF, restrict, ListeningSystem.faultFree, ListeningSystem.step,
        hx, hp,
        Listener.assign, hresult, hnew] at hassign

/-- From a state of a clean run, without new calls: the run is bounded, and when nothing can happen
any more, every reader has returned. The second part is the one of the system without the variables
of `listen`, whose quiet states are the same. -/
theorem ListeningSystem.settles (hs : ReachableClean c s) {as : List ListeningAction}
    (hrun : run (ListeningSystem.settleStep c) s as = some s') :
    as.length ≤ s.work c ∧ (s'.Quiet c → s'.system.Finished) := by
  -- A step of the settling run is one of a clean run.
  have hinv : ∀ s a s', ListeningSystem.settleStep c s a = some s' → ReachableClean c s →
      ReachableClean c s' := by
    rintro s a s' hstep ⟨clocks, hreach⟩
    exact ⟨clocks, hreach.trans (.single (restrict_eq_some.mp hstep).2)⟩
  constructor
  · have hle := run_length_add_le (μ := ListeningSystem.work c) hinv (fun s a s' hstep hs => by
      obtain ⟨hl, hff⟩ := hs.system
      obtain ⟨hi, hf⟩ := hff.inv
      exact ListeningSystem.settleStep_work hl hi hf hstep) hrun hs
    omega
  · intro hq
    obtain ⟨hl, hff⟩ := (run_invariant hinv hrun hs).system
    obtain ⟨hi, hf⟩ := hff.inv
    exact (P2p.settles hi hf (run_nil _)).2 (hl.system_quiet hf hq)

end Settle

/-- No message is on its way, and every reader has returned or waits for a message. -/
def ListeningSystem.idle (c : Cluster) (s : ListeningSystem) : Bool :=
  s.system.inFlight.isEmpty && c.names.all fun x =>
    (s.system.hosts x).listen.isNone && (s.listeners x).reading.isNone &&
      (s.system.hosts x).tasks.all fun t =>
        !t.goroutine.alive || t.receiving (s.system.hosts x).peers.length

/-- A reader that has returned does nothing, and one that waits for a message goes on without it
only when its context is done. -/
private theorem Task.step_of_idle {h : Host} {t : Task} (input : Input)
    (hidle : t.goroutine.alive = false ∨ t.receiving h.peers.length = true)
    (hinput : ∀ err, input ≠ .contextDone err) : t.step h input = none := by
  unfold Task.step
  rcases hg : t.goroutine with pc | pc <;> cases pc <;>
    simp only [hg, Goroutine.alive, Task.receiving, Bool.false_eq_true, reduceCtorEq, false_or,
      or_false, decide_eq_true_eq] at hidle <;>
    cases input <;> first | exact absurd rfl (hinput _) | simp [replicateStep, handleStep, hidle]

/-- In an idle state nothing but a new call is possible. What `idle` computes is enough for this,
since each step needs a message, a reading or a goroutine that can move. -/
theorem ListeningSystem.quiet_of_idle {c : Cluster} {s : ListeningSystem}
    (hidle : s.idle c = true) : s.Quiet c := by
  simp only [ListeningSystem.idle, Bool.and_eq_true, List.isEmpty_iff, List.all_eq_true,
    Option.isNone_iff_eq_none, Bool.or_eq_true, Bool.not_eq_true'] at hidle
  obtain ⟨hflight, hhosts⟩ := hidle
  intro a hcall
  by_contra hsome
  obtain ⟨s', hff⟩ := Option.ne_none_iff_exists'.mp hsome
  obtain ⟨hfree, hstep⟩ := restrict_eq_some.mp hff
  cases ListeningSystem.step_move hstep with
  | read x msg hx hmem hl hread => simp [hflight] at hmem
  | test x r action system hr ha hs =>
    cases System.step_move hs with
    | lose y msg hmem => simp [hflight] at hmem
    | host y e h' sent hy hadmit hp hm =>
      obtain ⟨msg, -, rfl⟩ : ∃ msg, r.msg = some msg ∧ Event.receive msg = e := by
        obtain ⟨msg, hmsg, haction⟩ := Option.map_eq_some_iff.mp ha
        split at haction <;> cases haction
        exact ⟨msg, hmsg, rfl⟩
      -- Whatever the test does needs the message in flight.
      simp [System.admits, hflight] at hadmit
  | assign x ref l hx hl =>
    obtain ⟨result, hresult, -⟩ := Listener.assign_eq_some hl
    obtain ⟨t, ht, hg⟩ := Host.result?_eq_some.mp hresult
    -- A closure that can assign has a handler that has returned and is not gone.
    have hwait := (hhosts x hx).2 t (List.mem_of_getElem? ht)
    simp [hg, Goroutine.alive, Task.receiving] at hwait
  | other action system ha hs =>
    cases System.step_move hs with
    | lose y msg hmem => simp [hflight] at hmem
    | host x e h' sent hx hadmit hp hm =>
      obtain ⟨⟨hlisten, -⟩, htasks⟩ := hhosts x hx
      cases e with
      | replicate tid request => cases hcall
      | receive msg => cases ha
      | notify => simp [System.step, Host.step, hlisten] at hs
      | task ref input =>
        have hnone : (s.system.hosts x).step (.task ref input) = none := by
          cases ht : (s.system.hosts x).tasks[ref]? with
          | none => simp [Host.step, ht]
          | some t =>
            have hstuck := Task.step_of_idle input (htasks t (List.mem_of_getElem? ht))
              (by rintro err rfl; cases hfree)
            simp [Host.step, ht, hstuck]
        simp [System.step, hnone] at hs

end ReplicatedFs.P2p
