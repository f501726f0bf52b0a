import ReplicatedFs.Connection.Perspective

/-!
# `ReplicatedFs.Proofs.Connection.Verdict`: what the two ends of a connection conclude

The byte of a resolvent keeps the six lower bits of the counter (`byte_ctr`). The perspective in
its upper bits may be damaged by the counter, but it is never read as the perspective of the other
end (`byte_perspective_ne`). So an end accepts a connection exactly when its own counter is what is
left of the other one, or its fallback applies (`verdict_client`, `verdict_server`). The fallback is
the same for both ends.

`verdicts_agree_iff` says for which counters the two conclusions agree.
-/

set_option autoImplicit false

namespace ReplicatedFs.Connection

open Protobuf

/-- The byte of a resolvent. -/
def Resolvent.byte (r : Resolvent) : UInt8 :=
  ((r.perspective.toByte.toUInt32 <<< 6) ||| r.ctr).toUInt8

section Codec
variable (r : Resolvent)

/-- The byte as a number, for the perspectives with a name. The perspective is in the upper two
bits, and the counter is put over all of them. -/
theorem Resolvent.byte_toNat (h : r.perspective.toByte.toNat < 4) :
    r.byte.toNat = (r.perspective.toByte.toNat * 2 ^ 6 ||| r.ctr.toNat) % 2 ^ 8 := by
  have hshift : UInt32.toNat 6 % 32 = 6 := rfl
  simp only [Resolvent.byte, UInt32.toNat_toUInt8, UInt32.toNat_or, UInt32.toNat_shiftLeft,
    UInt8.toNat_toUInt32, hshift, Nat.shiftLeft_eq]
  rw [Nat.mod_eq_of_lt (a := r.perspective.toByte.toNat * 2 ^ 6) (by omega)]

/-- What is left of the counter are its lower six bits, so counters that differ by 64 look the
same. -/
theorem Resolvent.byte_ctr (h : r.perspective.toByte.toNat < 4) :
    (r.byte &&& 63).toUInt32.toNat = r.ctr.toNat % 64 := by
  have hmask : UInt8.toNat 63 = 2 ^ 6 - 1 := rfl
  rw [UInt8.toNat_toUInt32, UInt8.toNat_and, hmask, Nat.and_two_pow_sub_one_eq_mod,
    r.byte_toNat h, Nat.mod_mod_of_dvd _ (by decide), Nat.or_mod_two_pow,
    Nat.mul_mod_left, Nat.zero_or]

/-- What is left of the perspective: the counter may set bits in it, and clears none. -/
theorem Resolvent.byte_perspective (h : r.perspective.toByte.toNat < 4) :
    (r.byte >>> 6).toNat = r.perspective.toByte.toNat ||| r.ctr.toNat / 64 % 4 := by
  have hshift : UInt8.toNat 6 % 8 = 6 := rfl
  have hhigh : ∀ x : Nat, x % 2 ^ 8 / 2 ^ 6 = x / 2 ^ 6 % 2 ^ 2 := by
    intro x
    omega
  rw [UInt8.toNat_shiftRight, hshift, r.byte_toNat h, Nat.shiftRight_eq_div_pow, hhigh,
    ← Nat.shiftRight_eq_div_pow, Nat.shiftRight_or_distrib, Nat.or_mod_two_pow,
    Nat.shiftRight_eq_div_pow, Nat.shiftRight_eq_div_pow, Nat.mul_div_cancel _ (by decide),
    Nat.mod_eq_of_lt h]

/-- No byte is lost: also one that stands for no perspective comes back as it was. -/
theorem Perspective.toByte_ofByte (value : UInt8) : (Perspective.ofByte value).toByte = value := by
  unfold Perspective.ofByte
  split
  · simp_all [Perspective.toByte]
  split
  · simp_all [Perspective.toByte]
  split <;> simp_all [Perspective.toByte]

/-- A perspective is not read as one that has a bit less, whatever the counter adds. -/
theorem Resolvent.byte_perspective_ne (own : Perspective) (h : r.perspective.toByte.toNat < 4)
    (hbits : ∀ x < 4, r.perspective.toByte.toNat ||| x ≠ own.toByte.toNat) :
    Perspective.ofByte (r.byte >>> 6) ≠ own := by
  intro hread
  have hbyte := r.byte_perspective h
  rw [← Perspective.toByte_ofByte (r.byte >>> 6), hread] at hbyte
  exact hbits _ (Nat.mod_lt _ (by decide)) hbyte.symm

end Codec

section Verdict
variable (host peer : PeerName) (k l : UInt32)

/-- An end accepts when its counter is what is left of the other one, or its fallback applies. Of
the received counter six bits are left. `hne` says that the decoded perspective is not the own one,
which `Establish` would take for an error. -/
theorem verdict_eq_ok {own : Perspective} {r : Resolvent}
    (hlt : r.perspective.toByte.toNat < 4)
    (hne : Perspective.ofByte (r.byte >>> 6) ≠ own) :
    verdict own host peer k r.encode = .ok () ↔
      k.toNat = r.ctr.toNat % 64 ∨ fallback host peer own = true := by
  have hctr : k = (r.byte &&& 63).toUInt32 ↔ k.toNat = r.ctr.toNat % 64 := by
    rw [← UInt32.toNat_inj, r.byte_ctr hlt]
  have hresolve : resolve own k r.encode = .ok (decide (k.toNat = r.ctr.toNat % 64)) := by
    rw [← decide_eq_decide.mpr hctr]
    -- Decoding one byte succeeds, and the perspective is not the own one.
    show (if Perspective.ofByte (r.byte >>> 6) = own then _ else _) = _
    rw [if_neg hne]
    rfl
  unfold verdict
  rw [hresolve]
  by_cases hk : k.toNat = r.ctr.toNat % 64
  · simp [hk]
  · cases hfallback : fallback host peer own <;> simp [hk]

/-- The client accepts when its own counter is the one that it receives, or else by the names. -/
theorem verdict_client :
    verdict .client host peer k (Resolvent.encode ⟨.server, l⟩) = .ok () ↔
      k.toNat = l.toNat % 64 ∨ host < peer := by
  have h := verdict_eq_ok host peer k (r := ⟨.server, l⟩) (show 1 < 4 by decide)
    (Resolvent.byte_perspective_ne _ .client (show 1 < 4 by decide)
      (show ∀ x < 4, 1 ||| x ≠ 2 by decide))
  simpa [fallback] using h

/-- The server accepts by the same rule, seen from the other side. It compares its own full counter
with six bits of the other one. -/
theorem verdict_server :
    verdict .server host peer l (Resolvent.encode ⟨.client, k⟩) = .ok () ↔
      l.toNat = k.toNat % 64 ∨ peer < host := by
  have h := verdict_eq_ok host peer l (r := ⟨.client, k⟩) (show 2 < 4 by decide)
    (Resolvent.byte_perspective_ne _ .server (show 2 < 4 by decide)
      (show ∀ x < 4, 2 ||| x ≠ 1 by decide))
  simpa [fallback] using h

end Verdict

/-- The verdict of the client and the one of the server on one connection. The arguments are the
values that their counters give out. -/
def clientVerdict (client server : PeerName) (k l : UInt32) : Except ResolveError Unit :=
  verdict .client client server k (Resolvent.encode ⟨.server, l⟩)

def serverVerdict (client server : PeerName) (k l : UInt32) : Except ResolveError Unit :=
  verdict .server server client l (Resolvent.encode ⟨.client, k⟩)

/-- For all names and all counters, the two ends accept or refuse together, and accept when their
counters are equal, exactly when the client has the smaller name, or both counters are below 64,
or they differ in what is left of them, or both are at least 64 and different. -/
theorem verdicts_agree_iff (client server : PeerName) (k l : UInt32) :
    ((clientVerdict client server k l = .ok () ↔ serverVerdict client server k l = .ok ()) ∧
      (k = l → clientVerdict client server k l = .ok () ∧
        serverVerdict client server k l = .ok ())) ↔
    client < server ∨ (k < 64 ∧ l < 64) ∨ k % 64 ≠ l % 64 ∨ (64 ≤ k ∧ 64 ≤ l ∧ k ≠ l) := by
  simp only [clientVerdict, serverVerdict, verdict_client, verdict_server]
  by_cases hlt : client < server
  · simp [hlt]
  · simp only [hlt, or_false, false_or, ne_eq, ← UInt32.toNat_inj, UInt32.lt_iff_toNat_lt,
      UInt32.le_iff_toNat_le, UInt32.toNat_mod]
    have hbound : UInt32.toNat 64 = 64 := rfl
    rw [hbound]
    omega

/-- The counters 1 and 65. The client accepts, the server does not, and the name does not decide.
With 64 on both sides no end accepts. -/
theorem verdicts_differ :
    clientVerdict "b" "a" 1 65 = .ok () ∧ serverVerdict "b" "a" 1 65 = .error .notResolved ∧
      clientVerdict "b" "a" 64 64 = .error .notResolved := by
  decide

end ReplicatedFs.Connection
