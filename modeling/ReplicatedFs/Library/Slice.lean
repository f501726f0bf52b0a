import Mathlib.Data.List.Nodup

/-!
# `ReplicatedFs.Library.Slice`: slices of arrays

A slice of Go is a window on an array that other slices may share. `Heap` holds the arrays, and a
`Slice` says which part of which array it is, and how far it may grow.

`append` writes into the array of its slice when the window may grow so far. All slices of this
array see what it wrote (`Slice.read_append_of_le`). Otherwise it makes a new array.
-/

set_option autoImplicit false

namespace Library

/-- The arrays, by their addresses. -/
abbrev Heap (α : Type) := List (List α)

/-- A window on an array. -/
structure Slice where
  array : Nat
  offset : Nat
  len : Nat
  cap : Nat
  len_le : len ≤ cap
  deriving DecidableEq

namespace Slice
variable {α : Type}

/-- What the slice shows. -/
def read (s : Slice) (h : Heap α) : List α := ((h.getD s.array []).drop s.offset).take s.len

/-- The array has room for the slice. -/
def In (s : Slice) (h : Heap α) : Prop := s.offset + s.cap ≤ (h.getD s.array []).length

instance (s : Slice) (h : Heap α) : Decidable (s.In h) :=
  inferInstanceAs (Decidable (s.offset + s.cap ≤ _))

/-- `s[:high]`, none when it panics. -/
def upTo (s : Slice) (high : Nat) : Option Slice :=
  if h : high ≤ s.cap then some { s with len := high, len_le := h } else none

/-- `s[low:]`, none when it panics. -/
def since (s : Slice) (low : Nat) : Option Slice :=
  if low ≤ s.len then
    some ⟨s.array, s.offset + low, s.len - low, s.cap - low, Nat.sub_le_sub_right s.len_le low⟩
  else none

variable {s t : Slice} {h : Heap α}

/-- A slice inside the heap reads as many elements as it has. Outside of the heap it would read
fewer. -/
theorem length_read (hs : s.In h) : (s.read h).length = s.len := by
  have hlen := s.len_le
  simp only [In] at hs
  simp only [read, List.length_take, List.length_drop]
  omega

/-- `s[:high]` is the same window with another length. Its capacity still reaches to the end, so an
`append` to it writes over what comes after `high`. -/
theorem upTo_eq_some {high : Nat} (ht : s.upTo high = some t) :
    t.array = s.array ∧ t.offset = s.offset ∧ t.cap = s.cap ∧ t.len = high := by
  obtain ⟨_, ht⟩ := Option.dite_none_right_eq_some.mp ht
  cases ht
  exact ⟨rfl, rfl, rfl, rfl⟩

/-- The part of a slice below its length reads the first elements of the whole. -/
theorem read_upTo {high : Nat} (ht : s.upTo high = some t) (hhigh : high ≤ s.len) :
    t.read h = (s.read h).take high := by
  obtain ⟨harray, hoffset, -, hlen⟩ := upTo_eq_some ht
  rw [read, read, harray, hoffset, hlen, List.take_take, Nat.min_eq_left hhigh]

/-- What `s[low:]` shows: the elements from `low` on. -/
theorem read_since {low : Nat} (ht : s.since low = some t) : t.read h = (s.read h).drop low := by
  obtain ⟨_, ht⟩ := Option.ite_none_right_eq_some.mp ht
  cases ht
  simp [read, List.drop_take]

end Slice

/-- The array with other values from an index on. -/
def splice {α : Type} (cells : List α) (start : Nat) (xs : List α) : List α :=
  cells.take start ++ xs ++ cells.drop (start + xs.length)

/-- `append`. A new array is as long as it has to be. -/
def append {α : Type} (h : Heap α) (s : Slice) (xs : List α) : Heap α × Slice :=
  if hcap : s.len + xs.length ≤ s.cap then
    (h.modify s.array (splice · (s.offset + s.len) xs),
      { s with len := s.len + xs.length, len_le := hcap })
  else (h ++ [s.read h ++ xs], ⟨h.length, 0, s.len + xs.length, s.len + xs.length, Nat.le_refl _⟩)

section Append
variable {α : Type} {h : Heap α} {s t : Slice} {xs : List α}

/-- A window that covers what `splice` writes sees it at the place it has in the window. This is how
a slice sees a write through another slice of the same array. -/
theorem take_drop_splice (cells : List α) {offset start len : Nat} (hlen : start + xs.length ≤ len)
    (hcells : offset + len ≤ cells.length) :
    ((splice cells (offset + start) xs).drop offset).take len =
      splice ((cells.drop offset).take len) start xs := by
  have hfront : (cells.take (offset + start)).length = offset + start := by
    rw [List.length_take]
    omega
  have hwindow : ((cells.drop offset).take start).length = start := by
    rw [List.length_take, List.length_drop]
    omega
  -- The window begins inside the part before the write.
  have hdrop : (splice cells (offset + start) xs).drop offset =
      (cells.drop offset).take start ++ xs ++ (cells.drop offset).drop (start + xs.length) := by
    simp only [splice, List.append_assoc]
    rw [List.drop_append_of_le_length (by omega), List.drop_take, List.drop_drop,
      Nat.add_sub_cancel_left, Nat.add_assoc]
  rw [hdrop, splice, List.take_append, List.take_of_length_le (by rw [List.length_append]; omega),
    List.length_append, hwindow, List.take_take, Nat.min_eq_left (by omega), List.drop_take]

/-- An append in place, as a slice sees it that starts where its slice does and covers it. `append`
writes into the array when the capacity is enough, and a longer slice of the same array sees the new
elements in the place of its own. -/
theorem Slice.read_append_of_le (ht : t.In h) (harray : t.array = s.array)
    (hoffset : t.offset = s.offset) (hcap : s.len + xs.length ≤ s.cap)
    (hlen : s.len + xs.length ≤ t.len) :
    t.read (append h s xs).1 = splice (t.read h) s.len xs := by
  have hle := t.len_le
  simp only [In] at ht
  have hcells : (append h s xs).1.getD t.array [] =
      splice (h.getD t.array []) (t.offset + s.len) xs := by
    simp only [append, hcap, dif_pos, ← harray, ← hoffset, List.getD_eq_getElem?_getD,
      List.getElem?_modify_eq]
    cases hget : h[t.array]? with
    | some cells => rfl
    | none =>
      -- There is no array, so the slices are empty and so is what is written.
      simp only [List.getD_eq_getElem?_getD, hget, Option.getD_none, List.length_nil] at ht
      have hxs : xs = [] := List.length_eq_zero_iff.mp (by omega)
      simp [hxs, splice]
  rw [read, hcells, take_drop_splice _ hlen (by omega), ← read]

/-- What `append` returns shows the elements of the slice and then the new ones. -/
theorem Slice.read_append (hs : s.In h) (hcap : s.len + xs.length ≤ s.cap) :
    (append h s xs).2.read (append h s xs).1 = s.read h ++ xs := by
  have hresult : (append h s xs).2 = { s with len := s.len + xs.length, len_le := hcap } := by
    simp [append, hcap]
  have hgrown : Slice.In { s with len := s.len + xs.length, len_le := hcap } h := hs
  rw [hresult, read_append_of_le (s := s) hgrown rfl rfl hcap (Nat.le_refl _), splice,
    List.drop_of_length_le (Nat.le_of_eq (length_read hgrown)), List.append_nil]
  simp [read, List.take_take]

end Append

end Library
