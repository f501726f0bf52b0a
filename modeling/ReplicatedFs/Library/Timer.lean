import Mathlib.Logic.Basic

/-!
# `ReplicatedFs.Library.Timer`: a timer with a channel

A `time.Timer` of Go before version 1.23. It runs until it fires, and then puts a value into its
channel, which has room for one. Stopping it or setting it anew leaves the channel as it is.

A timer that does not run and has an empty channel is `spent`: whoever waits for its channel waits
until someone sets it anew (`Timer.eq_spent_iff`).
-/

set_option autoImplicit false

namespace Library

/-- A timer. `delay` is what it was set to, as long as it runs. `pending` says that a value is in
its channel. -/
structure Timer where
  delay : Option Int
  pending : Bool
  deriving DecidableEq, Repr

/-- `time.NewTimer`. -/
def newTimer (delay : Int) : Timer := ⟨some delay, false⟩

namespace Timer

/-- The timer has fired, and its value was taken. -/
def spent : Timer := ⟨none, false⟩

variable (t : Timer)

/-- `Reset`. -/
def reset (delay : Int) : Timer := { t with delay := some delay }

/-- `Stop`, which reports whether the timer was still running. -/
def stop : Bool × Timer := (t.delay.isSome, { t with delay := none })

/-- The timer fires. A value that does not fit into the channel is dropped. -/
def fire : Option Timer := if t.delay.isSome then some ⟨none, true⟩ else none

/-- A receive from the channel, which waits for a value. -/
def receive : Option Timer := if t.pending then some { t with pending := false } else none

/-- One value is still to be taken: the timer runs or has it in the channel, not both. -/
def Armed : Prop := t.delay.isSome ≠ t.pending

variable {t} {t' : Timer}

/-- Nothing comes from a timer exactly when it is spent. So a receive from the channel of a spent
timer waits for ever. -/
theorem eq_spent_iff : t = spent ↔ t.fire = none ∧ t.receive = none := by
  obtain ⟨delay, pending⟩ := t
  cases delay <;> cases pending <;> simp [spent, fire, receive]

/-- A new timer runs, and its channel is empty. There is one value to come. -/
theorem armed_newTimer (delay : Int) : (newTimer delay).Armed := by simp [Armed, newTimer]

/-- A timer whose value was taken is armed again by `Reset`. On a timer that still runs, or has its
value waiting, this would not be so. -/
theorem armed_reset_spent (delay : Int) : (spent.reset delay).Armed := by
  simp [Armed, reset, spent]

/-- A timer that fires moves its value to the channel, where it waits to be taken. -/
theorem armed_of_fire (hfire : t.fire = some t') : t'.Armed := by
  obtain ⟨_, h⟩ := Option.ite_none_right_eq_some.mp hfire
  cases h
  simp [Armed]

/-- A timer whose only value was taken is spent. Nothing more comes from it until it is reset. -/
theorem Armed.receive (h : t.Armed) (hrecv : t.receive = some t') : t' = spent := by
  obtain ⟨hpending, hrecv⟩ := Option.ite_none_right_eq_some.mp hrecv
  cases hrecv
  have hdelay : t.delay = none := by simpa [Armed, hpending] using h
  rw [hdelay, spent]

/-- The value of an armed timer can be taken, at once or after the timer fires. -/
theorem Armed.exists_receive (h : t.Armed) :
    (∃ t', t.receive = some t') ∨ ∃ t' t'', t.fire = some t' ∧ t'.receive = some t'' := by
  cases hpending : t.pending with
  | true => exact .inl ⟨_, if_pos hpending⟩
  | false =>
    have hrunning : t.delay.isSome = true := eq_true_of_ne_false (hpending ▸ h)
    exact .inr ⟨_, _, if_pos hrunning, rfl⟩

end Timer

end Library
