import Mathlib.Data.List.Nodup
import Mathlib.Data.List.Perm.Basic
import Mathlib.Algebra.BigOperators.Group.List.Basic
import Mathlib.Algebra.GroupWithZero.Nat

/-!
# `ReplicatedFs.Library.Indexed`: lists read through their indices

A heap is a list, and a pointer is an index into it. These are the lookup lemmas of the three
ways a heap changes: an element is replaced, changed in place, or appended. Each one is an
`iff` on `l[i]? = some a`, the form in which invariants quantify over a heap.

The second part is about collecting the contents of all elements with `flatMap`. When the
collected keys are distinct, a key determines the element it sits in (`flatMap_key_unique`).

`mem_of_length_le_of_subset` is the pigeonhole: a list without repetition inside a list that
is no longer covers it.
-/

set_option autoImplicit false

namespace Library

variable {α β κ : Type}

/-- Lookup after `set`: the element that was written, if the place exists, and what was there
everywhere else. -/
theorem getElem?_set_eq_some {l : List α} {ref i : Nat} {a b : α} :
    (l.set ref a)[i]? = some b ↔
      (i = ref ∧ ref < l.length ∧ b = a) ∨ (i ≠ ref ∧ l[i]? = some b) := by
  rw [List.getElem?_set]
  by_cases h : ref = i
  · subst h
    by_cases hl : ref < l.length <;> simp [hl, eq_comm]
  · simp [h, Ne.symm h]

/-- Lookup after `modify`: the image of the old element at its place, and what was there everywhere
else. -/
theorem getElem?_modify_eq_some {l : List α} {ref i : Nat} {f : α → α} {b : α} :
    (l.modify ref f)[i]? = some b ↔
      (i = ref ∧ ∃ a, l[i]? = some a ∧ b = f a) ∨ (i ≠ ref ∧ l[i]? = some b) := by
  rw [List.getElem?_modify]
  by_cases h : ref = i
  · subst h
    cases hl : l[ref]? <;> simp [eq_comm]
  · simp [h, Ne.symm h]

/-- Lookup after appending one element: an old one, or the new one at the end. This is how a table
grows whose entries are never removed. -/
theorem getElem?_concat_eq_some {l : List α} {i : Nat} {a b : α} :
    (l ++ [a])[i]? = some b ↔ l[i]? = some b ∨ (i = l.length ∧ b = a) := by
  rw [List.getElem?_append]
  by_cases h : i < l.length
  · simp [h, Nat.ne_of_lt h]
  · rw [if_neg h, List.getElem?_eq_none (Nat.le_of_not_lt h)]
    by_cases he : i = l.length
    · subst he
      simp [eq_comm]
    · have : i - l.length ≠ 0 := by omega
      simp [he, this]

/-- What is found at an index is inside the list, so an index behind the end is a new one. -/
theorem lt_length_of_getElem? {l : List α} {i : Nat} {a : α} (h : l[i]? = some a) :
    i < l.length :=
  (List.getElem?_eq_some_iff.mp h).1

/-- A distinct element elsewhere does not change under `set`. The direction of
`getElem?_set_eq_some` that frame arguments need. -/
theorem getElem?_set_of_ne {l : List α} {ref i : Nat} {a b : α} (hne : i ≠ ref)
    (h : l[i]? = some b) : (l.set ref a)[i]? = some b :=
  getElem?_set_eq_some.mpr (.inr ⟨hne, h⟩)

/-- The element that `set` writes, at a place that exists. The old element is only there to say
so. -/
theorem getElem?_set_self {l : List α} {ref : Nat} {a b : α} (h : l[ref]? = some b) :
    (l.set ref a)[ref]? = some a :=
  getElem?_set_eq_some.mpr (.inl ⟨rfl, lt_length_of_getElem? h, rfl⟩)

/-- Replacing an element by one with the same contents keeps the collected list. -/
theorem flatMap_set_of_eq {l : List α} {ref : Nat} {a b : α} {g : α → List β}
    (h : l[ref]? = some a) (hg : g b = g a) : (l.set ref b).flatMap g = l.flatMap g := by
  induction l generalizing ref with
  | nil => rfl
  | cons c l ih =>
    cases ref with
    | zero =>
      obtain rfl : c = a := by simpa using h
      simp [hg]
    -- The element is further back, and the head is in both sums.
    | succ ref =>
      have hl : (l.set ref b).flatMap g = l.flatMap g := ih (by simpa using h)
      simp [hl]

/-- Replacing an element changes a sum over the list by the difference of the two. It is stated with
sums on both sides, as the difference may be negative. -/
theorem sum_map_set {l : List α} {ref : Nat} {a b : α} {g : α → Nat} (h : l[ref]? = some a) :
    ((l.set ref b).map g).sum + g a = (l.map g).sum + g b := by
  induction l generalizing ref with
  | nil => simp at h
  | cons d l ih =>
    cases ref with
    | zero =>
      obtain rfl : d = a := by simpa using h
      simp only [List.set_cons_zero, List.map_cons, List.sum_cons]
      omega
    | succ ref =>
      have hl : ((l.set ref b).map g).sum + g a = (l.map g).sum + g b := ih (by simpa using h)
      simp only [List.set_cons_succ, List.map_cons, List.sum_cons]
      omega

/-- Changing the value of a function at one member of a list changes its sum over the list by
the difference of the two values. -/
theorem sum_map_update [DecidableEq α] {l : List α} (hnodup : l.Nodup) {a : α} (ha : a ∈ l)
    {f g : α → Nat} (hf : ∀ b ∈ l, b ≠ a → g b = f b) :
    (l.map g).sum + f a = (l.map f).sum + g a := by
  have hperm := List.perm_cons_erase ha
  have herase : ((l.erase a).map g).sum = ((l.erase a).map f).sum := by
    refine congrArg List.sum (List.map_congr_left fun b hb => ?_)
    obtain ⟨hne, hmem⟩ := (hnodup.mem_erase_iff).mp hb
    exact hf b hmem hne
  have hsum : ∀ k : α → Nat, (l.map k).sum = k a + ((l.erase a).map k).sum := by
    intro k
    simpa using (hperm.map k).sum_eq
  rw [hsum f, hsum g, herase]
  omega

/-- The number of the elements with a property is a sum, to which the lemmas about sums apply. -/
theorem sum_map_toNat (l : List α) (f : α → Bool) :
    (l.map fun a => (f a).toNat).sum = l.countP f := by
  induction l with
  | nil => rfl
  | cons a l ih =>
    rw [List.map_cons, List.sum_cons, ih, List.countP_cons]
    cases f a with
    | false => simp
    | true => simp [Nat.add_comm]

/-- Appending to the contents of one element adds that element to the collected list, up to the
order. -/
theorem flatMap_modify_perm {l : List α} {ref : Nat} {a : α} {f : α → α} {g : α → List β}
    {b : β} (h : l[ref]? = some a) (hg : ∀ x, g (f x) = g x ++ [b]) :
    ((l.modify ref f).flatMap g).Perm (b :: l.flatMap g) := by
  induction l generalizing ref with
  | nil => simp at h
  | cons c l ih =>
    cases ref with
    | zero =>
      simp only [List.modify_zero_cons, List.flatMap_cons, hg]
      rw [List.append_assoc]
      exact List.perm_middle
    | succ ref =>
      have hl : ((l.modify ref f).flatMap g).Perm (b :: l.flatMap g) := ih (by simpa using h)
      simp only [List.modify_succ_cons, List.flatMap_cons]
      exact (hl.append_left (g c)).trans List.perm_middle

/-- When the collected keys are distinct, a key sits in one element only. The proof is by induction
on the list: a key of the head cannot occur in the tail, so either both positions are the head or
both are in the tail. Used for messages, which are kept in the inboxes of tasks and are identified
by sender and id. -/
theorem flatMap_key_unique {l : List α} {g : α → List β} {key : β → κ}
    (hnodup : ((l.flatMap g).map key).Nodup) {i j : Nat} {a a' : α} {b b' : β}
    (hi : l[i]? = some a) (hj : l[j]? = some a') (hb : b ∈ g a) (hb' : b' ∈ g a')
    (hkey : key b = key b') : i = j := by
  induction l generalizing i j with
  | nil => simp at hi
  | cons c l ih =>
    simp only [List.flatMap_cons, List.map_append] at hnodup
    have hdisj := List.disjoint_of_nodup_append hnodup
    -- A key of the head cannot occur in the tail.
    have hmem : ∀ {k : Nat} {x : α} {y : β}, l[k]? = some x → y ∈ g x →
        key y ∈ (l.flatMap g).map key := by
      intro k x y hk hy
      exact List.mem_map_of_mem (List.mem_flatMap.mpr ⟨x, List.mem_of_getElem? hk, hy⟩)
    cases i with
    | zero =>
      obtain rfl : c = a := by simpa using hi
      cases j with
      | zero => rfl
      | succ j =>
        have hj' : l[j]? = some a' := by simpa using hj
        exact absurd (hkey ▸ hmem hj' hb') (hdisj (List.mem_map_of_mem hb))
    | succ i =>
      have hi' : l[i]? = some a := by simpa using hi
      cases j with
      | zero =>
        obtain rfl : c = a' := by simpa using hj
        exact absurd (hkey ▸ hmem hi' hb) (hdisj (List.mem_map_of_mem hb'))
      | succ j =>
        have hj' : l[j]? = some a' := by simpa using hj
        rw [ih (List.Nodup.of_append_right hnodup) hi' hj']

/-- The contents of one element have distinct keys when all collected keys are distinct. -/
theorem nodup_of_flatMap {l : List α} {g : α → List β} {key : β → κ}
    (hnodup : ((l.flatMap g).map key).Nodup) {i : Nat} {a : α} (hi : l[i]? = some a) :
    ((g a).map key).Nodup := by
  have hsub : List.Sublist (g a) (l.flatMap g) := by
    rw [List.flatMap]
    exact List.sublist_flatten_of_mem (List.mem_map_of_mem (List.mem_of_getElem? hi))
  exact hnodup.sublist (hsub.map key)

/-- When the keys of a list are distinct, searching for a key finds the element that has it. -/
theorem find?_key_eq_some [DecidableEq κ] {l : List α} {key : α → κ}
    (hnodup : (l.map key).Nodup) {k : κ} {a : α} :
    (l.find? fun b => key b = k) = some a ↔ a ∈ l ∧ key a = k := by
  constructor
  · intro h
    exact ⟨List.mem_of_find?_eq_some h, by simpa using List.find?_some h⟩
  · rintro ⟨ha, rfl⟩
    obtain ⟨b, hb⟩ : ∃ b, (l.find? fun b => key b = key a) = some b := by
      rw [← Option.isSome_iff_exists, List.find?_isSome]
      exact ⟨a, ha, by simp⟩
    have hkey : key b = key a := by simpa using List.find?_some hb
    rw [hb, List.inj_on_of_nodup_map hnodup (List.mem_of_find?_eq_some hb) ha hkey]

/-- When the keys of a list are distinct and all its selected elements share one key, at most
one is selected. -/
theorem length_filterMap_le_one {l : List α} {f : α → Option β} {key : α → κ}
    (hnodup : (l.map key).Nodup)
    (hkey : ∀ a ∈ l, ∀ b ∈ l, (f a).isSome → (f b).isSome → key a = key b) :
    (l.filterMap f).length ≤ 1 := by
  induction l with
  | nil => simp
  | cons a l ih =>
    obtain ⟨ha, hl⟩ := List.nodup_cons.mp hnodup
    have ih' := ih hl fun b hb d hd => hkey b (by simp [hb]) d (by simp [hd])
    cases hfa : f a with
    | none => simpa [hfa] using ih'
    | some y =>
      -- No later element is selected, since it would have the key of `a`.
      have hnil : l.filterMap f = [] := by
        rw [List.filterMap_eq_nil_iff]
        intro b hb
        by_contra hfb
        have hab := hkey a (by simp) b (by simp [hb]) (by simp [hfa])
          (Option.isSome_iff_ne_none.mpr hfb)
        exact ha (hab ▸ List.mem_map_of_mem hb)
      simp [hfa, hnil]

/-- A list with at most one element has no two different ones. Used to get uniqueness from a
count. -/
theorem eq_of_length_le_one {l : List α} (hlen : l.length ≤ 1) {a b : α} (ha : a ∈ l)
    (hb : b ∈ l) : a = b := by
  cases l with
  | nil => cases ha
  | cons d l =>
    obtain rfl : l = [] := List.eq_nil_of_length_eq_zero (by simpa using hlen)
    rw [List.mem_singleton.mp ha, List.mem_singleton.mp hb]

/-- A list without repetition, inside a list that is no longer, covers it. -/
theorem mem_of_length_le_of_subset [DecidableEq α] {l l' : List α} (hnodup : l.Nodup)
    (hsub : ∀ a ∈ l, a ∈ l') (hlen : l'.length ≤ l.length) {a : α} (ha : a ∈ l') : a ∈ l := by
  have hperm := (List.subperm_of_subset hnodup hsub).perm_of_length_le hlen
  exact hperm.mem_iff.mpr ha

end Library
