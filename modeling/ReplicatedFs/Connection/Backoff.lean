import ReplicatedFs.Config.Config
import ReplicatedFs.Library.Timer

/-!
# `ReplicatedFs.Connection.Backoff`: the delays between two dials

The model of `connection/backoff.go`. `Pool.dial` has one `Backoff` and calls `Next` after a dial
that failed, and `Reset` after one that succeeded. Both may wait for the channel of the timer, so a
call is more than one step. `Pacer` is a backoff with the call that its goroutine is in, and
`PacerEvent` is one step of it: a call begins, the timer fires, a call takes the value of the timer
and returns.

* `float64` numbers are rationals, and their products are exact.
* A `Conversion` is what the platform makes of a `float64` that is turned into an integer. It cuts
  off the fraction of what fits into 64 bits. The language does not say what it makes of a larger
  one.
* `rand.Intn` takes its number from the `draw` of the event. Each number that it may return is the
  one of some draw.
* `delays` is a history of what the timer was set to. No step reads it.
-/

set_option autoImplicit false

namespace ReplicatedFs.Connection

open Library

/-- The integer part of a number. -/
def truncate (x : ℚ) : Int := x.num.tdiv x.den

/-- A conversion to an integer cuts off the fraction, so that only numbers from one on stay
positive. -/
theorem truncate_pos_iff (x : ℚ) : 0 < truncate x ↔ 1 ≤ x := by
  have hden : (0 : Int) < x.den := by exact_mod_cast x.den_pos
  have hone : 1 ≤ x ↔ (x.den : Int) ≤ x.num := by simp [Rat.le_iff]
  rw [hone, truncate]
  -- Towards zero the conversion rounds down for a positive number and up for a negative one.
  cases le_total 0 x.num with
  | inl hnum =>
    have hdiv : 1 ≤ x.num / (x.den : Int) ↔ 1 * (x.den : Int) ≤ x.num :=
      Int.le_ediv_iff_mul_le hden
    rw [Int.tdiv_eq_ediv_of_nonneg hnum]
    omega
  | inr hnum =>
    have hnonneg : 0 ≤ (-x.num).tdiv x.den := Int.tdiv_nonneg (by omega) hden.le
    rw [Int.neg_tdiv] at hnonneg
    omega

/-- `int` and `time.Duration` of a `float64`. -/
structure Conversion where
  toInt : ℚ → Int
  toInt_of_fits : ∀ x, -2 ^ 63 < x → x < 2 ^ 63 → toInt x = truncate x

/-- The conversion that cuts off the fraction of every number. -/
def Conversion.truncation : Conversion := ⟨truncate, fun _ _ _ => rfl⟩

/-- `rand.Intn`, none when it panics. -/
def intn (n : Int) (draw : Nat) : Option Int := if n ≤ 0 then none else some (draw % n)

/-- `Backoff`. -/
structure Backoff where
  conf : Config.Backoff
  attempt : Nat
  val : Int
  timer : Option Timer
  deriving DecidableEq

/-- `NewBackoff`. -/
def newBackoff (conf : Config.Backoff) : Backoff :=
  { conf, attempt := 0, val := conf.initial, timer := none }

/-- The sign that `next` gives to its random number. -/
def signed (jt : Int) : Int := if jt / 2 % 2 = 0 then -jt else jt

/-- The bounds that `next` puts on what it computed. -/
def clamp (conf : Config.Backoff) (dur : Int) : Int :=
  if dur < conf.initial then conf.initial
  else if conf.max < dur then conf.max
  else dur

namespace Backoff
variable (k : Conversion) (b : Backoff)

/-- What `next` multiplies the last delay with, none when it panics. -/
def multiplier (draw : Nat) : Option ℚ :=
  if b.conf.maxFactorJitter = 0 then some b.conf.factor
  else
    (intn (k.toInt (b.conf.maxFactorJitter * 100)) draw).map fun jt =>
      b.conf.factor + b.conf.factor * signed jt / 100

/-- `next`. -/
def next (draw : Nat) : Option Int :=
  -- Fast path when max was already reached.
  if b.conf.max < b.val then some b.conf.max
  else (b.multiplier k draw).map fun m => clamp b.conf (k.toInt (b.val * m))

end Backoff

/-- Where the goroutine is: not in a call, at the end of `Next` or of `Reset` where it waits for
the timer, or after a panic. -/
inductive PacerPc
  | idle
  | next
  | reset
  | panicked
  deriving DecidableEq, Repr

/-- A backoff and the goroutine that uses it. -/
structure Pacer where
  backoff : Backoff
  pc : PacerPc := .idle
  delays : List Int := []
  deriving DecidableEq

/-- `Pool.dial` at its start. -/
def newPacer (conf : Config.Backoff) : Pacer := { backoff := newBackoff conf }

/-- One step of a pacer. -/
inductive PacerEvent
  | next (draw : Nat)
  | reset
  | fire
  | receive
  deriving DecidableEq, Repr

namespace Pacer
variable (k : Conversion) (s : Pacer)

/-- `Next` up to its receive, with the delay and the timer. -/
def await (val dur : Int) (timer : Timer) : Pacer :=
  { backoff := { s.backoff with val, timer := some timer }, pc := .next, delays := dur :: s.delays }

/-- `Next` up to its receive. -/
def callNext (draw : Nat) : Pacer :=
  let b := s.backoff
  match b.attempt with
  | 0 => s.await b.val b.conf.initial (newTimer b.conf.initial)
  | _ + 1 =>
    match b.next k draw, b.timer with
    | some dur, some timer => s.await dur dur (timer.reset dur)
    | _, _ => { s with pc := .panicked }

/-- `Reset` up to its receive. -/
def callReset : Pacer :=
  let b := { s.backoff with attempt := 0, val := s.backoff.conf.initial }
  match b.timer with
  | none => { s with backoff := b }
  | some timer =>
    let (stop, timer) := timer.stop
    { s with backoff := { b with timer := some timer }, pc := if stop then .idle else .reset }

/-- What `Reset` sets, whether it waits or not. The fields are written before the timer is looked
at. -/
theorem callReset_fields :
    s.callReset.backoff.conf = s.backoff.conf ∧ s.callReset.backoff.attempt = 0 ∧
      s.callReset.backoff.val = s.backoff.conf.initial ∧ s.callReset.delays = s.delays := by
  cases htimer : s.backoff.timer <;> simp [callReset, htimer]

/-- A call after its receive. `Next` counts the attempt when it returns. -/
def resume (timer : Timer) : Pacer :=
  let b := s.backoff
  let attempt := if s.pc = .next then b.attempt + 1 else b.attempt
  { s with backoff := { b with attempt, timer := some timer }, pc := .idle }

/-- One step of a pacer. -/
def step : PacerEvent → Option Pacer
  | .next draw => if s.pc = .idle then some (s.callNext k draw) else none
  | .reset => if s.pc = .idle then some s.callReset else none
  | .fire =>
    if s.pc = .panicked then none
    else (s.backoff.timer.bind Timer.fire).map fun timer =>
      { s with backoff := { s.backoff with timer := some timer } }
  | .receive =>
    if s.pc = .next ∨ s.pc = .reset then (s.backoff.timer.bind Timer.receive).map s.resume else none

end Pacer

end ReplicatedFs.Connection
