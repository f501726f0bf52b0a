import Mathlib.Data.List.Induction
import Mathlib.Data.Set.BooleanAlgebra
import Mathlib.Data.Set.Function
import Mathlib.Order.CompletePartialOrder

/-!
# `ReplicatedFs.Library.Footprint`: operations that touch a part of a store

A store maps keys to values. `LocalAt` says that an operation reads a part of it and writes a
part of it. Two operations commute when neither writes what the other reads or writes
(`LocalAt.commute`). A sequence of such operations can be carried out in any order
(`LocalAt.foldl_perm`).
-/

set_option autoImplicit false

namespace Library

variable {σ κ β : Type}

/-- From `s`, and from every store that agrees with it on the keys the operation reads, the
operation changes only the keys it writes, and it gives them the same values. -/
def LocalAt (view : σ → κ → β) (op : σ → σ) (reads writes : Set κ) (s : σ) : Prop :=
  ∀ s', Set.EqOn (view s) (view s') reads →
    (∀ k ∉ writes, view (op s') k = view s' k) ∧
      Set.EqOn (view (op s)) (view (op s')) writes

variable {view : σ → κ → β} {op op' : σ → σ} {reads reads' writes writes' : Set κ} {s : σ}

/-- The operation changes only the keys it writes. This part of locality needs no other state to
compare with. -/
theorem LocalAt.frame (h : LocalAt view op reads writes s) {k : κ} (hk : k ∉ writes) :
    view (op s) k = view s k :=
  (h s fun _ _ => rfl).1 k hk

/-- An operation that writes none of the keys is not visible there. -/
theorem LocalAt.eqOn (h : LocalAt view op reads writes s) {keys : Set κ}
    (hdisj : Disjoint writes keys) : Set.EqOn (view s) (view (op s)) keys :=
  fun _ hk => (h.frame (Set.disjoint_right.mp hdisj hk)).symm

/-- What the second operation writes is not changed by the first one, which has the same effect
as without it. -/
private theorem LocalAt.after (h : LocalAt view op reads writes s)
    (h' : LocalAt view op' reads' writes' s) (hwr : Disjoint writes reads')
    (hrw : Disjoint writes' reads) (hww : Disjoint writes writes') {k : κ} (hk : k ∈ writes) :
    view (op' (op s)) k = view (op (op' s)) k := by
  have hk' : k ∉ writes' := Set.disjoint_left.mp hww hk
  calc view (op' (op s)) k = view (op s) k := (h' (op s) (h.eqOn hwr)).1 k hk'
    _ = view (op (op' s)) k := (h (op' s) (h'.eqOn hrw)).2 hk

/-- Operations commute when neither writes what the other reads or writes. -/
theorem LocalAt.commute (h : LocalAt view op reads writes s)
    (h' : LocalAt view op' reads' writes' s) (hwr : Disjoint writes reads')
    (hrw : Disjoint writes' reads) (hww : Disjoint writes writes') :
    view (op' (op s)) = view (op (op' s)) := by
  funext k
  by_cases hk : k ∈ writes
  · exact h.after h' hwr hrw hww hk
  · by_cases hk' : k ∈ writes'
    · exact (h'.after h hrw hwr hww.symm hk').symm
    · -- Neither operation writes the key.
      rw [(h' (op s) (h.eqOn hwr)).1 k hk', (h (op' s) (h'.eqOn hrw)).1 k hk, h.frame hk,
        h'.frame hk']

section Sequence
variable {ι : Type} {op : ι → σ → σ} {reads writes : ι → Set κ} {is is' : List ι}

/-- Neither operation writes what the other one reads. -/
def Independent (reads writes : ι → Set κ) (i j : ι) : Prop :=
  Disjoint (writes i) (reads j) ∧ Disjoint (writes j) (reads i)

/-- The condition is on both footprints alike: none of the two operations writes what the other one
reads or writes. -/
theorem Independent.symm {i j : ι} (h : Independent reads writes i j) :
    Independent reads writes j i :=
  ⟨h.2, h.1⟩

/-- An operation that is independent of the whole sequence reads the same after it. -/
theorem eqOn_of_frame {s' : σ} (reads : ι → Set κ) (j : ι)
    (hframe : ∀ k, (∀ i ∈ is, k ∉ writes i) → view s' k = view s k)
    (hind : ∀ i ∈ is, Independent reads writes i j) :
    Set.EqOn (view s) (view s') (reads j) := by
  intro k hk
  exact (hframe k fun i hi hki => Set.disjoint_left.mp (hind i hi).1 hki hk).symm

/-- After a sequence of independent operations, each key has the value that the one operation
that writes it would have given it at the start. -/
theorem LocalAt.foldl (op : ι → σ → σ) (hsub : ∀ i ∈ is, writes i ⊆ reads i)
    (hlocal : ∀ i ∈ is, LocalAt view (op i) (reads i) (writes i) s)
    (hind : is.Pairwise (Independent reads writes)) :
    (∀ k, (∀ i ∈ is, k ∉ writes i) → view (is.foldl (fun s i => op i s) s) k = view s k) ∧
      ∀ i ∈ is, Set.EqOn (view (is.foldl (fun s i => op i s) s)) (view (op i s)) (writes i) := by
  induction is using List.reverseRecOn with
  | nil => exact ⟨fun k _ => rfl, nofun⟩
  | append_singleton is j ih =>
    obtain ⟨hpre, -, hcross⟩ := List.pairwise_append.mp hind
    have hj : ∀ i ∈ is, Independent reads writes i j := fun i hi => hcross i hi j (.head _)
    obtain ⟨hframe, hwritten⟩ := ih (fun i hi => hsub i (List.mem_append_left _ hi))
      (fun i hi => hlocal i (List.mem_append_left _ hi)) hpre
    have hmem : j ∈ is ++ [j] := List.mem_append_right _ (.head _)
    -- The last operation finds what it reads as it was at the start.
    obtain ⟨hkeep, hlast⟩ := hlocal j hmem _ (eqOn_of_frame reads j hframe hj)
    rw [List.foldl_append, List.foldl_cons, List.foldl_nil]
    constructor
    · intro k hk
      rw [hkeep k (hk j hmem), hframe k fun i hi => hk i (List.mem_append_left _ hi)]
    · intro i hi k hk
      rcases List.mem_append.mp hi with hi | hi
      · have hkj : k ∉ writes j := fun hkj =>
          Set.disjoint_left.mp (hj i hi).1 hk (hsub j hmem hkj)
        rw [hkeep k hkj]
        exact hwritten i hi hk
      · obtain rfl := List.mem_singleton.mp hi
        exact (hlast hk).symm

/-- Independent operations give the same result in any order. Each place of the view is written by
at most one of them, or by none. In the first case it holds what this operation makes of the start,
since none of the others has touched what it reads. -/
theorem LocalAt.foldl_perm (op : ι → σ → σ) (hperm : is.Perm is')
    (hsub : ∀ i ∈ is, writes i ⊆ reads i)
    (hlocal : ∀ i ∈ is, LocalAt view (op i) (reads i) (writes i) s)
    (hind : is.Pairwise (Independent reads writes)) :
    view (is.foldl (fun s i => op i s) s) = view (is'.foldl (fun s i => op i s) s) := by
  obtain ⟨hframe, hwritten⟩ := LocalAt.foldl op hsub hlocal hind
  have hmem : ∀ i, i ∈ is' ↔ i ∈ is := fun i => hperm.mem_iff.symm
  obtain ⟨hframe', hwritten'⟩ := LocalAt.foldl op
    (fun i hi => hsub i ((hmem i).mp hi)) (fun i hi => hlocal i ((hmem i).mp hi))
    (hperm.pairwise hind fun h => h.symm)
  funext k
  -- What is written by one operation is what that operation makes of the start, in both orders.
  by_cases hk : ∃ i ∈ is, k ∈ writes i
  · obtain ⟨i, hi, hki⟩ := hk
    rw [hwritten i hi hki, hwritten' i ((hmem i).mpr hi) hki]
  · have hnone : ∀ i ∈ is, k ∉ writes i := fun i hi hki => hk ⟨i, hi, hki⟩
    rw [hframe k hnone, hframe' k fun i hi => hnone i ((hmem i).mp hi)]

end Sequence

end Library
