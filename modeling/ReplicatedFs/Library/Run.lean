import Mathlib.Algebra.GroupWithZero.Nat
import Mathlib.Data.List.Basic
import Mathlib.Logic.Basic

/-!
# `ReplicatedFs.Library.Run`: runs of a partial step function

A transition system is a function `step : σ → α → Option σ`. The label `α` resolves every
choice of the system and of its environment, so one label list is one interleaving, and a
concrete run can be evaluated. `none` means that the label is not enabled.

* `run`: the fold of `step` over a list of labels.
* `restrict`: the same system with only the labels that a guard admits.
* `run_invariant`: what every step preserves, every run preserves.
* `run_history`: the same, for what depends on the labels so far.
* `Passes`: a run passes a state with some property.
* `run_map`: a map of the states that every step respects takes runs to runs.
* `run_reaches`: a part of the state that every step takes through a run of another system.
* `run_relation`: a preorder that every step respects relates the two ends of a run.
* `run_length_add_le`, `run_length_add_le_cost`: a measure that every step lowers bounds the length
  of a run.
-/

set_option autoImplicit false

namespace Library

variable {σ α : Type}

/-- The state after the labels, in order. `none` when some label is not enabled. -/
def run (step : σ → α → Option σ) : σ → List α → Option σ
  | s, [] => some s
  | s, a :: as => (step s a).bind fun s' => run step s' as

/-- The system that takes a step only when the guard admits it. -/
def restrict (step : σ → α → Option σ) (guard : σ → α → Bool) (s : σ) (a : α) : Option σ :=
  if guard s a then step s a else none

/-- Some run leads from `s` to `s'`. -/
def Reaches (step : σ → α → Option σ) (s s' : σ) : Prop :=
  ∃ as, run step s as = some s'

variable {step : σ → α → Option σ} {guard : σ → α → Bool}

/-- The run without steps. It ends where it starts. -/
@[simp] theorem run_nil (s : σ) : run step s [] = some s := rfl

/-- A run is its first step and the rest. All inductions over runs peel off the first step by
this. -/
theorem run_cons_eq_some {s s' : σ} {a : α} {as : List α} :
    run step s (a :: as) = some s' ↔ ∃ m, step s a = some m ∧ run step m as = some s' := by
  simp [run, Option.bind_eq_some_iff]

/-- A run can be cut anywhere, and two runs can be put together where the one ends and the other
begins. -/
theorem run_append_eq_some {s s' : σ} {as bs : List α} :
    run step s (as ++ bs) = some s' ↔
      ∃ m, run step s as = some m ∧ run step m bs = some s' := by
  induction as generalizing s with
  | nil => simp
  | cons a as ih =>
    rw [List.cons_append, run_cons_eq_some]
    constructor
    · rintro ⟨m, hm, h⟩
      obtain ⟨m', hm', h'⟩ := ih.mp h
      exact ⟨m', run_cons_eq_some.mpr ⟨m, hm, hm'⟩, h'⟩
    · rintro ⟨m', h, h'⟩
      obtain ⟨m, hm, hm'⟩ := run_cons_eq_some.mp h
      exact ⟨m, hm, ih.mpr ⟨m', hm', h'⟩⟩

/-- A run that goes on by one step. The way in which the run of a system grows while it is
observed. -/
theorem run_concat {s m s' : σ} {a : α} {as : List α} (h : run step s as = some m)
    (hstep : step m a = some s') : run step s (as ++ [a]) = some s' :=
  run_append_eq_some.mpr ⟨m, h, run_cons_eq_some.mpr ⟨s', hstep, rfl⟩⟩

/-- A restricted step is a step with a guard that holds before it. -/
theorem restrict_eq_some {s s' : σ} {a : α} :
    restrict step guard s a = some s' ↔ guard s a = true ∧ step s a = some s' := by
  unfold restrict
  split <;> simp_all

/-- A run of the restricted system is a run of the system. So what holds of all runs holds of those
that keep to the guard. -/
theorem run_of_restrict {s s' : σ} {as : List α}
    (h : run (restrict step guard) s as = some s') : run step s as = some s' := by
  induction as generalizing s with
  | nil => exact h
  | cons a as ih =>
    obtain ⟨m, hm, h'⟩ := run_cons_eq_some.mp h
    exact run_cons_eq_some.mpr ⟨m, (restrict_eq_some.mp hm).2, ih h'⟩

/-- A run whose labels all meet the guard is a run of the restricted system. -/
theorem run_restrict {s s' : σ} {as : List α} (hguard : ∀ s, ∀ a ∈ as, guard s a = true)
    (h : run step s as = some s') : run (restrict step guard) s as = some s' := by
  induction as generalizing s with
  | nil => exact h
  | cons a as ih =>
    obtain ⟨m, hm, h'⟩ := run_cons_eq_some.mp h
    have hstep := restrict_eq_some.mpr ⟨hguard s a (by simp), hm⟩
    exact run_cons_eq_some.mpr ⟨m, hstep, ih (fun u b hb => hguard u b (by simp [hb])) h'⟩

/-- What every step preserves, every run preserves. This is the rule by which all invariants are
proved. -/
theorem run_invariant {I : σ → Prop}
    (hstep : ∀ s a s', step s a = some s' → I s → I s') {s s' : σ} {as : List α}
    (h : run step s as = some s') (hs : I s) : I s' := by
  induction as generalizing s with
  | nil =>
    cases h
    exact hs
  | cons a as ih =>
    obtain ⟨m, hm, h'⟩ := run_cons_eq_some.mp h
    exact ih h' (hstep s a m hm hs)

/-- An invariant that may speak of the labels so far. The labels are those from the start of the
run, so the induction is over all beginnings. Used for statements such as "this was certified by an
event of the run". -/
theorem run_history {I : List α → σ → Prop}
    (hstep : ∀ as s a s', step s a = some s' → I as s → I (as ++ [a]) s') {s s' : σ}
    {as : List α} (h : run step s as = some s') (hs : I [] s) : I as s' := by
  -- The statement has to be about any labels before the run, since the induction peels the run off
  -- from its front.
  suffices hgen : ∀ before, I before s → I (before ++ as) s' from hgen [] hs
  clear hs
  induction as generalizing s with
  | nil =>
    intro before hbefore
    cases h
    rwa [List.append_nil]
  | cons a as ih =>
    intro before hbefore
    obtain ⟨m, hm, h'⟩ := run_cons_eq_some.mp h
    rw [List.append_cons]
    exact ih h' (before ++ [a]) (hstep before s a m hm hbefore)

/-- A preorder that holds across every step holds across every run. The steps may use an
invariant of the system. -/
theorem run_relation {I : σ → Prop} {R : σ → σ → Prop} (hrefl : ∀ s, R s s)
    (htrans : ∀ s s' s'', R s s' → R s' s'' → R s s'')
    (hinv : ∀ s a s', step s a = some s' → I s → I s')
    (hstep : ∀ s a s', step s a = some s' → I s → R s s') {s s' : σ} {as : List α}
    (h : run step s as = some s') (hs : I s) : R s s' := by
  induction as generalizing s with
  | nil =>
    cases h
    exact hrefl _
  | cons a as ih =>
    obtain ⟨m, hm, h'⟩ := run_cons_eq_some.mp h
    exact htrans _ _ _ (hstep s a m hm hs) (ih h' (hinv s a m hm hs))

/-- The run of the labels passes a state with the property. -/
def Passes (step : σ → α → Option σ) (s : σ) (as : List α) (p : σ → Prop) : Prop :=
  ∃ bs m, bs <+: as ∧ run step s bs = some m ∧ p m

/-- The state that the run is in has been passed, as the last one of the run. -/
theorem Passes.last {p : σ → Prop} {s s' : σ} {as : List α} (h : run step s as = some s')
    (hp : p s') : Passes step s as p :=
  ⟨as, s', List.prefix_rfl, h, hp⟩

/-- What has been passed stays so when the run goes on. This makes statements about the past
stable. -/
theorem Passes.concat {p : σ → Prop} {s : σ} {as : List α} (h : Passes step s as p) (a : α) :
    Passes step s (as ++ [a]) p := by
  obtain ⟨bs, m, hprefix, hm, hp⟩ := h
  exact ⟨bs, m, hprefix.trans (List.prefix_append as [a]), hm, hp⟩

/-- A map of the states that every step respects takes runs to runs. -/
theorem run_map {τ : Type} {step' : τ → α → Option τ} (f : σ → τ)
    (hstep : ∀ s a, step' (f s) a = (step s a).map f) (s : σ) (as : List α) :
    run step' (f s) as = (run step s as).map f := by
  induction as generalizing s with
  | nil => rfl
  | cons a as ih =>
    simp only [run, hstep]
    cases step s a with
    | none => rfl
    | some m => exact ih m

/-- When every step lowers a measure, up to what its label costs, the measure at the start and the
costs bound the length of a run. The steps may use an invariant of the system. This is how runs are
bounded that new calls can prolong. -/
theorem run_length_add_le_cost {I : σ → Prop} {μ : σ → Nat} (cost : α → Nat)
    (hinv : ∀ s a s', step s a = some s' → I s → I s')
    (hstep : ∀ s a s', step s a = some s' → I s → μ s' < μ s + cost a) {s s' : σ} {as : List α}
    (h : run step s as = some s') (hs : I s) : as.length + μ s' ≤ μ s + (as.map cost).sum := by
  induction as generalizing s with
  | nil =>
    cases h
    simp
  | cons a as ih =>
    obtain ⟨m, hm, h'⟩ := run_cons_eq_some.mp h
    -- The first step, and by induction the rest.
    have hlt := hstep s a m hm hs
    have hle := ih h' (hinv s a m hm hs)
    rw [List.length_cons, List.map_cons, List.sum_cons]
    omega

/-- When every step lowers a measure, the measure at the start bounds the length of a run. The
steps may use an invariant of the system. -/
theorem run_length_add_le {I : σ → Prop} {μ : σ → Nat}
    (hinv : ∀ s a s', step s a = some s' → I s → I s')
    (hstep : ∀ s a s', step s a = some s' → I s → μ s' < μ s) {s s' : σ} {as : List α}
    (h : run step s as = some s') (hs : I s) : as.length + μ s' ≤ μ s := by
  have hle := run_length_add_le_cost (fun _ => 0) hinv hstep h hs
  simpa using hle

/-- A state reaches itself, by the run without steps. -/
theorem Reaches.refl (s : σ) : Reaches step s s := ⟨[], rfl⟩

/-- Runs can be put together, and so can their reachability. -/
theorem Reaches.trans {s s' s'' : σ} (h : Reaches step s s') (h' : Reaches step s' s'') :
    Reaches step s s'' := by
  obtain ⟨as, has⟩ := h
  obtain ⟨bs, hbs⟩ := h'
  exact ⟨as ++ bs, run_append_eq_some.mpr ⟨s', has, hbs⟩⟩

/-- One step is a run. It turns what a step does into reachability. -/
theorem Reaches.single {s s' : σ} {a : α} (h : step s a = some s') : Reaches step s s' :=
  ⟨[a], run_cons_eq_some.mpr ⟨s', h, rfl⟩⟩

/-- A part of the state that every step takes through a run of another system is taken through one
by every run. -/
theorem run_reaches {τ β : Type} {step' : τ → β → Option τ} (f : σ → τ)
    (hstep : ∀ s a s', step s a = some s' → Reaches step' (f s) (f s')) {s s' : σ} {as : List α}
    (h : run step s as = some s') : Reaches step' (f s) (f s') :=
  run_relation (I := fun _ => True) (R := fun s s' => Reaches step' (f s) (f s'))
    (fun _ => .refl _) (fun _ _ _ => Reaches.trans) (fun _ _ _ _ _ => trivial)
    (fun s a s' hs _ => hstep s a s' hs) h trivial

/-- A reachable state is reachable without the guard, by the same run. -/
theorem Reaches.of_restrict {s s' : σ} (h : Reaches (restrict step guard) s s') :
    Reaches step s s' := by
  obtain ⟨as, has⟩ := h
  exact ⟨as, run_of_restrict has⟩

/-- A run that can be evaluated, with what is observed at its end. -/
theorem Reaches.of_any (s : σ) (as : List α) (p : σ → Bool)
    (h : (run step s as).any p = true) : ∃ s', Reaches step s s' ∧ p s' = true := by
  cases hrun : run step s as with
  | none => simp [hrun] at h
  | some s' => exact ⟨s', ⟨as, hrun⟩, by simpa [hrun] using h⟩

/-- An invariant that holds at the start holds at every reachable state. -/
theorem Reaches.invariant {I : σ → Prop}
    (hstep : ∀ s a s', step s a = some s' → I s → I s') {s s' : σ}
    (h : Reaches step s s') (hs : I s) : I s' := by
  obtain ⟨as, has⟩ := h
  exact run_invariant hstep has hs

end Library
