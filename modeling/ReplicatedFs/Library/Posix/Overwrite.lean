import Mathlib.Algebra.Group.Int.Defs
import Mathlib.Algebra.GroupWithZero.Nat
import ReplicatedFs.Library.Posix.Calls

/-!
# `ReplicatedFs.Library.Posix.Overwrite`: bytes over bytes

What `overwrite` does to each byte of a content (`getElem?_overwrite`), and from it:

* `overwrite_take_drop`: writing a part of the data from its start, and then the rest from any point
  before the end of that part, is writing all of the data.
* `drop_take_overwrite`: a range that the data does not touch.

`copyCount_eq_ok_iff` says when `copy_file_range` copies, and how many bytes, for offsets and a
length that are unsigned numbers.
-/

set_option autoImplicit false

namespace Library.Posix

variable {content data : List UInt8} {offset : Nat}

/-- A write of no bytes changes nothing, not even behind the end of the file. -/
@[simp] theorem overwrite_nil : overwrite content [] offset = content := by
  simp [overwrite]

/-- The bytes after `pwrite`: the old ones before the offset, with zeros where the file was too
short, then the data, and behind it what was there. -/
theorem getElem?_overwrite (hdata : data ≠ []) (i : Nat) :
    (overwrite content data offset)[i]? =
      if i < offset then some (content[i]?.getD 0)
      else if i < offset + data.length then data[i - offset]?
      else content[i]? := by
  -- The part before the data has the length of the offset, by the zeros that fill it up.
  have hlen : ((content ++ List.replicate (offset - content.length) 0).take offset).length =
      offset := by
    simp
    omega
  unfold overwrite
  rw [if_neg hdata, List.append_assoc, List.getElem?_append, hlen]
  by_cases hbefore : i < offset
  · rw [if_pos hbefore, if_pos hbefore, List.getElem?_take_of_lt hbefore, List.getElem?_append]
    by_cases hi : i < content.length
    · simp [hi]
    · rw [if_neg hi, List.getElem?_eq_none (Nat.le_of_not_lt hi), List.getElem?_replicate,
        if_pos (by omega)]
      rfl
  · rw [if_neg hbefore, if_neg hbefore, List.getElem?_append]
    by_cases hin : i < offset + data.length
    · rw [if_pos (by omega), if_pos hin]
    · rw [if_neg (by omega), if_neg hin, List.getElem?_drop]
      congr 1
      omega

/-- A part of the data, and the rest of it from a point before the end of that part. Writing the
overlap twice does no harm, as the same bytes are written. A copy goes on like this when `n` bytes
were copied and the number that was returned is `m`, the lower 32 bits of it. -/
theorem overwrite_take_drop {m n : Nat} (hm : m ≤ n) (hn : n ≤ data.length) :
    overwrite (overwrite content (data.take n) offset) (data.drop m) (offset + m) =
      overwrite content data offset := by
  by_cases hrest : data.drop m = []
  · -- There is no rest, so the part is everything.
    have hlen : data.length ≤ m := List.drop_eq_nil_iff.mp hrest
    rw [hrest, overwrite_nil, List.take_of_length_le (by omega)]
  have hdata : data ≠ [] := by
    rintro rfl
    simp at hrest
  have hmlt : m < data.length := by
    simpa using hrest
  refine List.ext_getElem? fun i => ?_
  rw [getElem?_overwrite hrest, getElem?_overwrite hdata]
  by_cases hpart : data.take n = []
  · have hzero : n = 0 := by simpa [hdata] using hpart
    obtain rfl : m = 0 := by omega
    simp [hpart, overwrite_nil]
  · rw [getElem?_overwrite hpart]
    have hlen : (data.take n).length = n := by simp; omega
    have hlen' : (data.drop m).length = data.length - m := by simp
    rw [hlen, hlen']
    by_cases h1 : i < offset
    · rw [if_pos (by omega), if_pos h1, if_pos h1]
      simp
    by_cases h2 : i < offset + m
    · rw [if_pos h2, if_neg h1, if_pos (by omega), if_neg h1, if_pos (by omega),
        List.getElem?_take_of_lt (by omega), List.getElem?_eq_getElem (by omega)]
      rfl
    by_cases h3 : i < offset + data.length
    · rw [if_neg h2, if_pos (by omega), if_neg h1, if_pos h3, List.getElem?_drop]
      congr 1
      omega
    · rw [if_neg h2, if_neg (by omega), if_neg h1, if_neg (by omega), if_neg h1, if_neg h3]

/-- A range of the content that the data does not touch. This is what lets a copy inside one file go
on after the first turn. -/
theorem drop_take_overwrite {start len : Nat} (hinside : start + len ≤ content.length)
    (hapart : start + len ≤ offset ∨ offset + data.length ≤ start) :
    ((overwrite content data offset).drop start).take len = (content.drop start).take len := by
  by_cases hdata : data = []
  · rw [hdata, overwrite_nil]
  refine List.ext_getElem? fun i => ?_
  rw [List.getElem?_take, List.getElem?_take, List.getElem?_drop, List.getElem?_drop]
  by_cases hi : i < len
  · rw [if_pos hi, if_pos hi, getElem?_overwrite hdata]
    -- The range lies in front of the data, or behind it.
    by_cases hbefore : start + i < offset
    · rw [if_pos hbefore, List.getElem?_eq_getElem (by omega)]
      rfl
    · rw [if_neg hbefore, if_neg (by omega)]
  · rw [if_neg hi, if_neg hi]

/-- An unsigned number as a signed one, which is negative from `2 ^ 63` on. The offsets of FUSE are
converted like this. -/
theorem toInt_toInt64 (x : UInt64) :
    x.toInt64.toInt = if x.toNat < 2 ^ 63 then (x.toNat : Int) else x.toNat - 2 ^ 64 := by
  show x.toBitVec.toInt = _
  rw [BitVec.toInt_eq_toNat_cond]
  simp only [UInt64.toNat_toBitVec]
  split_ifs <;> omega

/-- The bytes that a copy can get from a file with `size` bytes. -/
def available (size : Nat) (r len : UInt64) : Nat := min len.toNat (size - r.toNat)

/-- The offsets and the length are ones that `copy_file_range` takes. -/
structure Clear (sameFile : Prop) (r w len : UInt64) (count : Nat) : Prop where
  readEnd : r.toNat + len.toNat < 2 ^ 64
  writeEnd : w.toNat + len.toNat < 2 ^ 64
  read : r.toNat < 2 ^ 63
  write : w.toNat < 2 ^ 63
  apart : sameFile → w.toNat + count ≤ r.toNat ∨ r.toNat + count ≤ w.toNat

/-- There is no copy at a negative offset, neither of the source nor of the target. -/
theorem copyCount_ne_ok {proc : Process} {size n : Nat} {sameFile : Bool}
    {readOff writeOff len : Int64} (h : readOff.toInt < 0 ∨ writeOff.toInt < 0) :
    copyCount proc size sameFile readOff writeOff len ≠ .ok n := by
  unfold copyCount
  dsimp only
  rw [if_pos h, ite_self]
  split <;> simp

/-- How many bytes `copy_file_range` copies, when it takes the offsets and the length. They come as
unsigned numbers from FUSE and are passed as signed ones, so `Clear` has to exclude those with the
highest bit. Within one file the two ranges must not overlap either. -/
theorem copyCount_eq_ok_iff {proc : Process} {size n : Nat} {sameFile : Bool} {r w len : UInt64} :
    copyCount proc size sameFile r.toInt64 w.toInt64 len.toInt64 = .ok n ↔
      Clear (sameFile = true) r w len (available size r len) ∧
        n = proc.copied (available size r len) := by
  have havail : (if (size : Int) ≤ r.toNat then 0 else min (len.toNat : Int) (size - r.toNat)) =
      (available size r len : Int) := by
    unfold available
    split_ifs <;> omega
  by_cases hread : r.toNat < 2 ^ 63
  · by_cases hwrite : w.toNat < 2 ^ 63
    · -- Both offsets are what they are as unsigned numbers.
      unfold copyCount
      simp only [UInt64.toUInt64_toInt64, toInt_toInt64]
      have hsize : UInt64.size = 2 ^ 64 := rfl
      by_cases hover : UInt64.size ≤ r.toNat + len.toNat ∨ UInt64.size ≤ w.toNat + len.toNat
      · rw [if_pos hover]
        refine iff_of_false (by simp) ?_
        rintro ⟨hclear, -⟩
        have hread := hclear.readEnd
        have hwrite := hclear.writeEnd
        omega
      rw [if_neg hover]
      simp only [if_pos hread, if_pos hwrite, havail, Int.toNat_natCast]
      by_cases hoverlap : sameFile = true ∧ (r.toNat : Int) < w.toNat + available size r len ∧
          (w.toNat : Int) < r.toNat + available size r len
      · rw [if_pos hoverlap]
        refine iff_of_false (by simp) ?_
        rintro ⟨hclear, -⟩
        have hapart := hclear.apart hoverlap.1
        omega
      · rw [if_neg hoverlap, if_neg (by omega), Except.ok.injEq, eq_comm]
        refine ⟨fun hn => ⟨⟨by omega, by omega, hread, hwrite, fun hsame => ?_⟩, hn⟩, fun h => h.2⟩
        have hno : ¬ ((r.toNat : Int) < w.toNat + available size r len ∧
          (w.toNat : Int) < r.toNat + available size r len) := fun h => hoverlap ⟨hsame, h⟩
        omega
    · refine iff_of_false (copyCount_ne_ok (.inr ?_)) (fun h => hwrite h.1.write)
      have hlt := w.toNat_lt
      rw [toInt_toInt64, if_neg hwrite]
      omega
  · refine iff_of_false (copyCount_ne_ok (.inl ?_)) (fun h => hread h.1.read)
    have hlt := r.toNat_lt
    rw [toInt_toInt64, if_neg hread]
    omega

end Library.Posix
