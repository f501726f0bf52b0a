import Mathlib.Algebra.Group.Int.Defs
import ReplicatedFs.Connection.NetOp

/-!
# `ReplicatedFs.Proofs.Connection.Frames`: what `recv` makes of every byte string

The first eight bytes of a stream are a number (`sizeHeader`), and there are four cases. The number
is negative as an `int64`. It is more than the stream has. It is more than `make` can allocate. Or
the body is there (`recv_of_header`). Only the third case is not what the reader of a frame should
do: the size comes from the other peer, and it is not compared with anything before the buffer is
made.

* `recv_decodes_iff`: `recv` decodes the byte strings with any other size, and it rejects what is
  not a frame. What `send` writes is read again for all data that can be in memory.
-/

set_option autoImplicit false

namespace ReplicatedFs.Connection

open Library

/-- The bytes start with the frame of some data: a size that is not negative, and as many bytes. -/
def HasFrame (bytes data : List UInt8) : Prop :=
  ∃ n rest, n < 2 ^ 63 ∧ bytes = bigEndian 8 n ++ rest ∧ n ≤ rest.length ∧ data = rest.take n

/-- The size in the header is not negative, and there is no buffer of that size. -/
def Oversized (bytes : List UInt8) : Prop :=
  8 ≤ bytes.length ∧ maxAlloc < ofBigEndian (bytes.take 8) ∧ ofBigEndian (bytes.take 8) < 2 ^ 63

/-- What a reader of frames does with the bytes of a stream, whatever error comes after them: it
returns the data of the frame, and an error when there is none. -/
def Decodes (bytes : List UInt8) (ending : Err) : Prop :=
  (∀ data, HasFrame bytes data → recv (.accepted bytes ending none) = .data data) ∧
    ((∀ data, ¬ HasFrame bytes data) → ∃ err, recv (.accepted bytes ending none) = .failed err)

section Header
variable {bytes data : List UInt8} {ending : Err}

/-- Eight bytes are a number below `2 ^ 64`, which is what the header of a frame can hold. -/
theorem ofBigEndian_header_lt (h : 8 ≤ bytes.length) :
    ofBigEndian (bytes.take 8) < 2 ^ 64 := by
  have hlt := ofBigEndian_lt (bytes.take 8)
  rw [List.length_take, Nat.min_eq_left h] at hlt
  exact hlt

/-- The size as an `int64`, in which the upper half of the numbers is negative. -/
theorem sizeHeader_toInt (h : 8 ≤ bytes.length) :
    (sizeHeader (bytes.take 8)).toInt =
      if ofBigEndian (bytes.take 8) < 2 ^ 63 then (ofBigEndian (bytes.take 8) : Int)
      else (ofBigEndian (bytes.take 8) : Int) - 2 ^ 64 := by
  have hlt := ofBigEndian_header_lt h
  unfold sizeHeader
  generalize ofBigEndian (bytes.take 8) = n at hlt
  have hnat : (UInt64.ofNat n).toBitVec.toNat = n := by
    show n % 2 ^ 64 = n
    exact Nat.mod_eq_of_lt hlt
  show (UInt64.ofNat n).toBitVec.toInt = _
  rw [BitVec.toInt_eq_toNat_cond, hnat]
  split <;> split <;> omega

/-- The size is negative from `2 ^ 63` on. `recv` tests for this, and for nothing else. -/
theorem sizeHeader_neg_iff (h : 8 ≤ bytes.length) :
    sizeHeader (bytes.take 8) < 0 ↔ 2 ^ 63 ≤ ofBigEndian (bytes.take 8) := by
  have hlt := ofBigEndian_header_lt h
  rw [Int64.lt_iff_toInt_lt, sizeHeader_toInt h, Int64.toInt_zero]
  split <;> omega

/-- What `recv` does with a header, by the number in it. The three cases are a negative size, a size
for which there is no buffer, and the body. -/
theorem recv_of_header {done : Option Bool} (h : 8 ≤ bytes.length) :
    recv (.accepted bytes ending done) =
      if 2 ^ 63 ≤ ofBigEndian (bytes.take 8) then .failed (.stream streamErrInvalidSizeHeader)
      else if maxAlloc < ofBigEndian (bytes.take 8) then .panicked
      else recvBody (ofBigEndian (bytes.take 8)) (bytes.drop 8) ending done := by
  simp only [recv, readFull, if_pos h, sizeHeader_neg_iff h]
  by_cases hneg : 2 ^ 63 ≤ ofBigEndian (bytes.take 8)
  · rw [if_pos hneg, if_pos hneg]
  · have hnat : (sizeHeader (bytes.take 8)).toInt.toNat = ofBigEndian (bytes.take 8) := by
      rw [sizeHeader_toInt h, if_pos (by omega)]
      rfl
    rw [if_neg hneg, if_neg hneg, hnat]

/-- The frames of a byte string, by the number in its header. So there is at most one frame, and it
may be followed by other bytes. The definition is in terms of what is written, and this is how it is
decided from what was read. -/
theorem hasFrame_iff :
    HasFrame bytes data ↔ 8 ≤ bytes.length ∧ ofBigEndian (bytes.take 8) < 2 ^ 63 ∧
      ofBigEndian (bytes.take 8) ≤ (bytes.drop 8).length ∧
      data = (bytes.drop 8).take (ofBigEndian (bytes.take 8)) := by
  constructor
  · rintro ⟨n, rest, hn, rfl, hle, rfl⟩
    have htake : (bigEndian 8 n ++ rest).take 8 = bigEndian 8 n :=
      List.take_left' (length_bigEndian 8 n)
    have hdrop : (bigEndian 8 n ++ rest).drop 8 = rest :=
      List.drop_left' (length_bigEndian 8 n)
    have hread : ofBigEndian (bigEndian 8 n) = n := by
      rw [ofBigEndian_bigEndian]
      exact Nat.mod_eq_of_lt (by omega)
    rw [htake, hdrop, hread]
    refine ⟨?_, hn, hle, rfl⟩
    rw [List.length_append, length_bigEndian]
    omega
  · rintro ⟨hlen, hn, hle, rfl⟩
    refine ⟨ofBigEndian (bytes.take 8), bytes.drop 8, hn, ?_, hle, rfl⟩
    -- The eight bytes are what their number is written as.
    have hheader := bigEndian_ofBigEndian (bytes.take 8)
    rw [List.length_take, Nat.min_eq_left hlen] at hheader
    rw [hheader, List.take_append_drop]

/-- A size that is neither negative nor oversized: `recv` reads the frame or fails. It fails when
the stream ends before the frame does. -/
theorem decodes_of_size (h : 8 ≤ bytes.length) (hle : ofBigEndian (bytes.take 8) ≤ maxAlloc) :
    Decodes bytes ending := by
  have hsmall : ofBigEndian (bytes.take 8) < 2 ^ 63 := by
    have hmax : maxAlloc = 2 ^ 48 := rfl
    omega
  -- The header is complete, and both tests of the size pass.
  have hrecv : recv (.accepted bytes ending none) = _ := recv_of_header h
  rw [if_neg (by omega), if_neg (by omega)] at hrecv
  unfold recvBody readFull at hrecv
  constructor
  · intro data hframe
    obtain ⟨-, -, hbody, rfl⟩ := hasFrame_iff.mp hframe
    rw [hrecv, if_pos hbody]
  · intro hnone
    have hshort : ¬ ofBigEndian (bytes.take 8) ≤ (bytes.drop 8).length := by
      intro hbody
      exact hnone _ (hasFrame_iff.mpr ⟨h, hsmall, hbody, rfl⟩)
    rw [if_neg hshort] at hrecv
    exact ⟨_, hrecv⟩

/-- Every byte string that is not oversized is decoded: a frame is read, and what is none is
rejected. The string may be too short for a header, have a negative size, or end before its body
does. -/
theorem decodes_of_not_oversized (h : ¬ Oversized bytes) : Decodes bytes ending := by
  by_cases hlen : 8 ≤ bytes.length
  · by_cases hneg : 2 ^ 63 ≤ ofBigEndian (bytes.take 8)
    · refine ⟨?_, fun _ => ⟨_, (recv_of_header hlen).trans (if_pos hneg)⟩⟩
      intro data hframe
      obtain ⟨-, hpos, -⟩ := hasFrame_iff.mp hframe
      omega
    · refine decodes_of_size hlen ?_
      by_contra hbig
      exact h ⟨hlen, by omega, by omega⟩
  · -- A stream that ends inside the header.
    refine ⟨?_, fun _ => ?_⟩
    · intro data hframe
      exact absurd (hasFrame_iff.mp hframe).1 hlen
    · simp only [recv, readFull, if_neg hlen]
      exact ⟨_, rfl⟩

/-- An oversized one is neither read nor rejected. `make` panics, and the process stops. -/
theorem recv_of_oversized (h : Oversized bytes) :
    recv (.accepted bytes ending none) = .panicked := by
  obtain ⟨hlen, hbig, hsmall⟩ := h
  rw [recv_of_header hlen, if_neg (by omega), if_pos hbig]

/-- A size that is no size of a buffer makes the reader panic, so it neither returns data nor an
error. -/
theorem not_decodes_of_oversized (h : Oversized bytes) : ¬ Decodes bytes ending := by
  rintro ⟨hdata, hfail⟩
  rw [recv_of_oversized h] at hdata hfail
  have hnone : ∀ data, ¬ HasFrame bytes data := by
    intro data hframe
    cases hdata data hframe
  obtain ⟨err, herr⟩ := hfail hnone
  cases herr

end Header

section RoundTrip
variable (data : List UInt8) (ending : Err)

/-- What `send` writes starts with the length, as far as it fits. -/
theorem take_frame : (frame data).take 8 = bigEndian 8 data.length :=
  List.take_left' (length_bigEndian 8 _)

/-- A frame is never shorter than the header that a reader waits for. -/
theorem eight_le_length_frame : 8 ≤ (frame data).length := by
  rw [frame, List.length_append, length_bigEndian]
  omega

/-- The header of a frame is the length of its data, as far as 64 bits can hold it. -/
theorem ofBigEndian_frame : ofBigEndian ((frame data).take 8) = data.length % 2 ^ 64 := by
  rw [take_frame, ofBigEndian_bigEndian]
  rfl

/-- What is written is a frame of the data, when its length is a size that is not negative. -/
theorem hasFrame_frame (h : data.length < 2 ^ 63) : HasFrame (frame data) data :=
  ⟨data.length, data, h, rfl, Nat.le_refl _, (List.take_length).symm⟩

/-- What `send` writes is read again exactly when there is a buffer for it. -/
theorem recv_frame_iff :
    recv (.accepted (frame data) ending none) = .data data ↔ data.length ≤ maxAlloc := by
  have hmax : maxAlloc = 2 ^ 48 := rfl
  constructor
  · intro hrecv
    -- The buffer has the size of the header, and the data fills it.
    rw [recv_of_header (eight_le_length_frame data), ofBigEndian_frame] at hrecv
    split at hrecv
    · cases hrecv
    split at hrecv
    · cases hrecv
    rename_i hsmall
    unfold recvBody readFull at hrecv
    by_cases hbody : data.length % 2 ^ 64 ≤ ((frame data).drop 8).length
    · rw [if_pos hbody] at hrecv
      have hlen := congrArg List.length (Received.data.inj hrecv)
      rw [List.length_take] at hlen
      omega
    · rw [if_neg hbody] at hrecv
      cases hrecv
  · intro hle
    refine (decodes_of_not_oversized ?_).1 data (hasFrame_frame data (by omega))
    rintro ⟨-, hbig, -⟩
    rw [ofBigEndian_frame, Nat.mod_eq_of_lt (by omega)] at hbig
    omega

/-- A `send` that stops anywhere delivers the data or nothing. A part of the frame is never taken
for data, because the header comes first and has the length. The data has to be short enough for a
buffer, since `recv` panics otherwise. -/
theorem recv_wire (h : data.length ≤ maxAlloc) (outcome : SendOutcome) :
    recv (.accepted (outcome.wire data) ending none) = .data data ∨
      ∃ err, recv (.accepted (outcome.wire data) ending none) = .failed err := by
  obtain ⟨n, hn⟩ : ∃ n, outcome.wire data = (frame data).take n := by
    cases outcome with
    | openFailed err => exact ⟨0, rfl⟩
    | writeFailed written err | contextDone timedOut written => exact ⟨written, rfl⟩
    | complete => exact ⟨_, (List.take_length).symm⟩
  rw [hn]
  have hmax : maxAlloc = 2 ^ 48 := rfl
  -- A header that was written is the one of the frame.
  have hheader : 8 ≤ ((frame data).take n).length →
      ofBigEndian (((frame data).take n).take 8) = data.length := by
    intro hlen
    rw [List.length_take] at hlen
    rw [List.take_take, Nat.min_eq_left (by omega), ofBigEndian_frame, Nat.mod_eq_of_lt (by omega)]
  have hdecodes : Decodes ((frame data).take n) ending := by
    apply decodes_of_not_oversized
    rintro ⟨hlen, hbig, -⟩
    rw [hheader hlen] at hbig
    omega
  by_cases hframe : ∃ data', HasFrame ((frame data).take n) data'
  · obtain ⟨data', hdata'⟩ := hframe
    left
    obtain ⟨hlen, -, hbody, hdata⟩ := hasFrame_iff.mp hdata'
    rw [hheader hlen] at hbody hdata
    rw [List.drop_take, frame, List.drop_left' (length_bigEndian 8 _)] at hbody hdata
    have hall : data.length ≤ n - 8 := by
      rw [List.length_take] at hbody
      omega
    rw [List.take_of_length_le hall, List.take_length] at hdata
    have hread := hdecodes.1 data' hdata'
    rwa [hdata] at hread
  · right
    exact hdecodes.2 fun data' hdata' => hframe ⟨data', hdata'⟩

end RoundTrip

/-- `recv` decodes a byte string, with an error for everything that is not a frame, exactly when
its size is not between `maxAlloc` and `2 ^ 63`. What `send` writes for some data is read again
exactly when the data has at most `maxAlloc` bytes. -/
theorem recv_decodes_iff (bytes data : List UInt8) (ending : Err) :
    (Decodes bytes ending ↔ ¬ Oversized bytes) ∧
      (recv (.accepted (frame data) ending none) = .data data ↔ data.length ≤ maxAlloc) :=
  ⟨⟨fun h hbig => not_decodes_of_oversized hbig h, decodes_of_not_oversized⟩,
    recv_frame_iff data ending⟩

/-- A header with the size `2 ^ 48 + 1` and nothing after it. Eight bytes are enough to stop the
process. -/
theorem oversized_header :
    recv (.accepted [0, 1, 0, 0, 0, 0, 0, 1] .eof none) = .panicked ∧
      ¬ Decodes [0, 1, 0, 0, 0, 0, 0, 1] .eof := by
  have hbig : Oversized [0, 1, 0, 0, 0, 0, 0, 1] := by
    refine ⟨by decide, ?_, ?_⟩ <;> decide
  exact ⟨recv_of_oversized hbig, not_decodes_of_oversized hbig⟩

end ReplicatedFs.Connection
