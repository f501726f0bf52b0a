import Mathlib.Algebra.Order.Field.Rat
import Mathlib.Tactic.Linarith
import ReplicatedFs.Connection.Backoff
import ReplicatedFs.Library.Run

/-!
# `ReplicatedFs.Proofs.Connection.Backoff`: the calls of a backoff

`PacerMove` says what a step of a pacer can do. `Timed` is what the timer is at each point of the
code, in every state that is reached (`timed_of_run`). Two results follow.

* `resets_return_iff`: `Next` takes the value of the timer and returns (`Timed.next_returns`), so
  the timer that `Reset` finds is spent. `Reset` waits for it and nothing sets it anew. `Reset`
  returns only as long as there was no `Next`.
* `in_range_iff_toInt_pos`: the delays lie between the bounds of the configuration, whatever the
  conversion gives, and `rand.Intn` panics when it has nothing to draw. With a plain truncation this
  is a jitter below one percent (`delays_in_range_iff`).
-/

set_option autoImplicit false

namespace ReplicatedFs.Connection

open Library

variable {k : Conversion} {conf : Config.Backoff} {s s' : Pacer} {e : PacerEvent}
  {es : List PacerEvent}

/-- What a step of a pacer can do. -/
inductive PacerMove (k : Conversion) (s : Pacer) : PacerEvent → Pacer → Prop
  | first {draw : Nat} (hpc : s.pc = .idle) (hattempt : s.backoff.attempt = 0) :
      PacerMove k s (.next draw)
        (s.await s.backoff.val s.backoff.conf.initial (newTimer s.backoff.conf.initial))
  | again {draw : Nat} {dur : Int} {timer : Timer} (hpc : s.pc = .idle)
      (hattempt : s.backoff.attempt ≠ 0) (hnext : s.backoff.next k draw = some dur)
      (htimer : s.backoff.timer = some timer) :
      PacerMove k s (.next draw) (s.await dur dur (timer.reset dur))
  | panic {draw : Nat} (hpc : s.pc = .idle) (hattempt : s.backoff.attempt ≠ 0)
      (hnone : s.backoff.next k draw = none ∨ s.backoff.timer = none) :
      PacerMove k s (.next draw) { s with pc := .panicked }
  | reset (hpc : s.pc = .idle) : PacerMove k s .reset s.callReset
  | fire {timer timer' : Timer} (hpc : s.pc ≠ .panicked) (htimer : s.backoff.timer = some timer)
      (hfire : timer.fire = some timer') :
      PacerMove k s .fire { s with backoff := { s.backoff with timer := some timer' } }
  | receive {timer timer' : Timer} (hpc : s.pc = .next ∨ s.pc = .reset)
      (htimer : s.backoff.timer = some timer) (hrecv : timer.receive = some timer') :
      PacerMove k s .receive (s.resume timer')

/-- A backoff has no other steps. The first `Next` after a `Reset` takes the initial delay, and the
later ones compute the delay from the one before. -/
theorem Pacer.step_move (h : s.step k e = some s') : PacerMove k s e s' := by
  cases e with
  | next draw =>
    obtain ⟨hpc, h⟩ := Option.ite_none_right_eq_some.mp h
    cases h
    cases hattempt : s.backoff.attempt with
    | zero =>
      simp only [callNext, hattempt]
      exact .first hpc hattempt
    | succ n =>
      have hne : s.backoff.attempt ≠ 0 := by omega
      cases hnext : s.backoff.next k draw with
      | none =>
        simp only [callNext, hattempt, hnext]
        -- The draw of the jitter has panicked.
        exact .panic hpc hne (.inl hnext)
      | some dur =>
        cases htimer : s.backoff.timer with
        | none =>
          simp only [callNext, hattempt, hnext, htimer]
          -- `Reset` of a timer that is nil.
          exact .panic hpc hne (.inr htimer)
        | some timer =>
          simp only [callNext, hattempt, hnext, htimer]
          exact .again hpc hne hnext htimer
  | reset =>
    obtain ⟨hpc, h⟩ := Option.ite_none_right_eq_some.mp h
    cases h
    exact .reset hpc
  | fire =>
    obtain ⟨hpc, h⟩ := Option.ite_none_left_eq_some.mp h
    obtain ⟨timer', hfire, rfl⟩ := Option.map_eq_some_iff.mp h
    obtain ⟨timer, htimer, hfire⟩ := Option.bind_eq_some_iff.mp hfire
    exact .fire hpc htimer hfire
  | receive =>
    obtain ⟨hpc, h⟩ := Option.ite_none_right_eq_some.mp h
    obtain ⟨timer', hrecv, rfl⟩ := Option.map_eq_some_iff.mp h
    obtain ⟨timer, htimer, hrecv⟩ := Option.bind_eq_some_iff.mp hrecv
    exact .receive hpc htimer hrecv

/-! ### The timer -/

/-- What the timer is at each point of the code. -/
structure Timed (s : Pacer) : Prop where
  attempt : s.backoff.timer = none → s.backoff.attempt = 0
  idle : s.pc = .idle → s.backoff.timer = none ∨ s.backoff.timer = some .spent
  next : s.pc = .next → ∃ timer, s.backoff.timer = some timer ∧ timer.Armed
  reset : s.pc = .reset → s.backoff.timer = some .spent

/-- A new backoff has no timer, and no call is in progress. The first `Next` makes the timer. -/
theorem timed_newPacer (conf : Config.Backoff) : Timed (newPacer conf) where
  attempt _ := rfl
  idle _ := .inl rfl
  next h := nomatch h
  reset h := nomatch h

/-- `Reset` returns at once when there is no timer, and waits for the timer otherwise. -/
theorem Timed.callReset (hs : Timed s) (hpc : s.pc = .idle) :
    (s.backoff.timer = none ∧ s.callReset.backoff.timer = none ∧ s.callReset.pc = .idle) ∨
      (s.backoff.timer = some .spent ∧ s.callReset.backoff.timer = some .spent ∧
        s.callReset.pc = .reset) := by
  cases hs.idle hpc with
  | inl hnone => simp [Pacer.callReset, hnone, hpc]
  | inr hspent => simp [Pacer.callReset, hspent, Timer.stop, Timer.spent]

/-- Every step keeps the timer and the point of the code in line. The timer is started by the first
`Next` and stays from then on. -/
theorem Timed.move (hs : Timed s) (hm : PacerMove k s e s') : Timed s' := by
  cases hm with
  | first => exact ⟨nofun, nofun, fun _ => ⟨_, rfl, Timer.armed_newTimer _⟩, nofun⟩
  | again hpc hattempt hnext htimer =>
    have hspent := (hs.idle hpc).resolve_left (by simp [htimer])
    cases htimer.symm.trans hspent
    exact ⟨nofun, nofun, fun _ => ⟨_, rfl, Timer.armed_reset_spent _⟩, nofun⟩
  | panic => exact ⟨hs.attempt, nofun, nofun, nofun⟩
  | reset hpc =>
    have hattempt : s.callReset.backoff.attempt = 0 := s.callReset_fields.2.1
    obtain ⟨-, htimer, hpc'⟩ | ⟨-, htimer, hpc'⟩ := hs.callReset hpc
    · exact ⟨fun _ => hattempt, fun _ => .inl htimer, by simp [hpc'], by simp [hpc']⟩
    · exact ⟨fun _ => hattempt, by simp [hpc'], by simp [hpc'], fun _ => htimer⟩
  | fire hpc htimer hfire =>
    -- A timer that is spent does not fire, so this is within `Next`.
    have hne : s.backoff.timer ≠ some .spent := by
      intro hspent
      cases htimer.symm.trans hspent
      cases hfire
    refine ⟨nofun, fun hidle => ?_, fun _ => ⟨_, rfl, Timer.armed_of_fire hfire⟩, fun hreset => ?_⟩
    · exact absurd ((hs.idle hidle).resolve_left (by simp [htimer])) hne
    · exact absurd (hs.reset hreset) hne
  | receive hpc htimer hrecv =>
    cases hpc with
    | inl hnext =>
      obtain ⟨timer, hsome, harmed⟩ := hs.next hnext
      cases htimer.symm.trans hsome
      cases harmed.receive hrecv
      exact ⟨nofun, fun _ => .inr rfl, nofun, nofun⟩
    | inr hreset =>
      cases htimer.symm.trans (hs.reset hreset)
      cases hrecv

/-- `Timed` holds in every state that is reached, whatever calls are made. -/
theorem timed_of_run (hrun : run (Pacer.step k) (newPacer conf) es = some s) : Timed s :=
  run_invariant (fun _ _ _ hstep hs => hs.move (Pacer.step_move hstep)) hrun (timed_newPacer conf)

/-- The first `Next` makes the timer, and no step takes it away. -/
theorem Timed.move_timer (hs : Timed s) (hm : PacerMove k s e s') :
    s'.backoff.timer = none ↔ s.backoff.timer = none ∧ ∀ draw, e ≠ .next draw := by
  cases hm with
  | first => simp [Pacer.await]
  | again => simp [Pacer.await]
  | panic hpc hattempt =>
    -- An attempt after the first has its timer.
    have hsome : s.backoff.timer ≠ none := fun hnone => hattempt (hs.attempt hnone)
    simp [hsome]
  | reset hpc =>
    obtain ⟨h, h', -⟩ | ⟨h, h', -⟩ := hs.callReset hpc
    · simp [h, h']
    · simp [h, h']
  | fire hpc htimer => simp [htimer]
  | receive hpc htimer => simp [Pacer.resume, htimer]

/-- There is a timer as soon as `Next` was called once. Calls of `Reset` do not make one, which is
why a `Reset` before the first `Next` returns at once. -/
theorem timer_eq_none_iff (hrun : run (Pacer.step k) s es = some s') (hs : Timed s) :
    s'.backoff.timer = none ↔ s.backoff.timer = none ∧ ∀ draw, .next draw ∉ es := by
  induction es generalizing s with
  | nil =>
    cases hrun
    simp
  | cons e es ih =>
    obtain ⟨m, hstep, hrun⟩ := run_cons_eq_some.mp hrun
    have hm := Pacer.step_move hstep
    rw [ih hrun (hs.move hm), hs.move_timer hm]
    simp only [List.mem_cons, not_or, forall_and, and_assoc, ne_comm]

/-- A goroutine that waits for a spent timer waits forever. Nobody else resets the timer, and the
goroutine itself is in `Reset`. -/
theorem Timed.step_eq_none (hs : Timed s) (hpc : s.pc = .reset) (e : PacerEvent) :
    s.step k e = none := by
  cases e with
  | next draw => simp [Pacer.step, hpc]
  | reset => simp [Pacer.step, hpc]
  | fire => simp [Pacer.step, hpc, hs.reset hpc, Timer.eq_spent_iff.mp rfl]
  | receive => simp [Pacer.step, hpc, hs.reset hpc, Timer.eq_spent_iff.mp rfl]

/-- The call that the goroutine is in can return. -/
def Pacer.Returns (k : Conversion) (s : Pacer) : Prop :=
  ∃ s', Reaches (Pacer.step k) s s' ∧ s'.pc = .idle

/-- A `Reset` that waits for the timer waits for a value that was already taken from it. -/
theorem Timed.not_returns (hs : Timed s) (hpc : s.pc = .reset) : ¬ s.Returns k := by
  rintro ⟨s', ⟨es, hrun⟩, hidle⟩
  cases es with
  | nil =>
    cases hrun
    cases hpc.symm.trans hidle
  | cons e es =>
    obtain ⟨m, hstep, -⟩ := run_cons_eq_some.mp hrun
    rw [hs.step_eq_none hpc] at hstep
    cases hstep

/-- `Next` always returns. It waits for a timer that it has set itself, so there is a value to
come. -/
theorem Timed.next_returns (hs : Timed s) (hpc : s.pc = .next) : s.Returns k := by
  obtain ⟨timer, htimer, harmed⟩ := hs.next hpc
  cases harmed.exists_receive with
  | inl hrecv =>
    obtain ⟨timer', hrecv⟩ := hrecv
    have hrun : run (Pacer.step k) s [.receive] = some (s.resume timer') := by
      simp [run, Pacer.step, hpc, htimer, hrecv]
    exact ⟨_, ⟨_, hrun⟩, rfl⟩
  | inr hfire =>
    -- The timer still runs. It fires first.
    obtain ⟨timer', timer'', hfire, hrecv⟩ := hfire
    have hrun : (run (Pacer.step k) s [.fire, .receive]).any (·.pc = .idle) = true := by
      simp [run, Pacer.step, hpc, htimer, hfire, hrecv, Pacer.resume]
    obtain ⟨s', hrun, hidle⟩ := (Option.any_eq_true _ _).mp hrun
    exact ⟨s', ⟨_, hrun⟩, by simpa using hidle⟩

/-- `Reset` after some calls returns iff there was no `Next` among them. It drains the channel of
the timer whenever `Stop` reports that the timer has expired, and after a `Next` its value was taken
already. -/
theorem reset_returns_iff
    (hrun : run (Pacer.step k) (newPacer conf) (es ++ [.reset]) = some s) :
    s.Returns k ↔ ∀ draw, .next draw ∉ es := by
  obtain ⟨m, hrun, hreset⟩ := run_append_eq_some.mp hrun
  obtain ⟨_, hstep, hnil⟩ := run_cons_eq_some.mp hreset
  cases hnil
  have hm := timed_of_run hrun
  have hnone : m.backoff.timer = none ↔ ∀ draw, .next draw ∉ es := by
    simpa [newPacer, newBackoff] using timer_eq_none_iff hrun (timed_newPacer conf)
  obtain ⟨hpc, hcall⟩ := Option.ite_none_right_eq_some.mp hstep
  cases hcall
  rw [← hnone]
  -- Without a timer `Reset` has nothing to stop. With one it waits for a value that nobody sends.
  obtain ⟨htimer, -, hidle⟩ | ⟨htimer, -, hwaits⟩ := hm.callReset hpc
  · exact ⟨fun _ => htimer, fun _ => ⟨_, .refl _, hidle⟩⟩
  · have hstuck : ¬ m.callReset.Returns k := (hm.move (.reset (k := k) hpc)).not_returns hwaits
    simp [hstuck, htimer]

/-- In a sequence of calls every `Reset` returns iff none comes after a `Next`. `Next` receives from
the channel of the timer. When `Reset` stops that timer afterwards, `Stop` returns false, and the
receive that `Reset` then makes to drain the channel finds nothing. -/
theorem resets_return_iff (hrun : run (Pacer.step k) (newPacer conf) es = some s) :
    (∀ before s', before ++ [.reset] <+: es →
      run (Pacer.step k) (newPacer conf) (before ++ [.reset]) = some s' → s'.Returns k) ↔
    ∀ before, before ++ [.reset] <+: es → ∀ draw, .next draw ∉ before := by
  constructor
  · intro hreturns before hbefore
    obtain ⟨after, rfl⟩ := hbefore
    obtain ⟨s', hrun', -⟩ := run_append_eq_some.mp hrun
    exact (reset_returns_iff hrun').mp (hreturns before s' ⟨after, rfl⟩ hrun')
  · intro hnext before s' hbefore hrun'
    exact (reset_returns_iff hrun').mpr (hnext before hbefore)

/-- In this run every `Reset` comes before the first `Next`, and returns. There is no timer yet that
it could wait for. -/
theorem resets_return_before_next :
    ∃ s, run (Pacer.step .truncation) (newPacer Config.default.dialBackoff)
        [.reset, .next 0, .fire, .receive] = some s ∧
      ∀ before s', before ++ [.reset] <+: [.reset, .next 0, .fire, .receive] →
        run (Pacer.step .truncation) (newPacer Config.default.dialBackoff) (before ++ [.reset]) =
          some s' → s'.Returns .truncation := by
  refine ⟨_, rfl, (resets_return_iff rfl).mpr ?_⟩
  intro before hbefore draw
  cases before with
  | nil => simp
  | cons e before =>
    -- The only `Reset` of the run is the first call.
    have hrest := (List.cons_prefix_cons.mp hbefore).2
    have hreset : .reset ∈ [PacerEvent.next 0, .fire, .receive] := hrest.subset (by simp)
    simp at hreset

/-- One dial fails, the next one succeeds: `Reset` waits forever. These are the two calls that
`Pool.dial` makes in this case. -/
theorem reset_hangs_after_next :
    ∃ s, run (Pacer.step .truncation) (newPacer Config.default.dialBackoff)
        [.next 0, .fire, .receive, .reset] = some s ∧ ¬ s.Returns .truncation := by
  refine ⟨_, rfl, fun hreturns => ?_⟩
  have hrun : run (Pacer.step .truncation) (newPacer Config.default.dialBackoff)
      ([.next 0, .fire, .receive] ++ [.reset]) = some _ := rfl
  exact (reset_returns_iff hrun).mp hreturns 0 (by simp)

/-! ### The delays -/

/-- `next` panics exactly when `rand.Intn` does: when there is a jitter to draw, and the bound for
it is not positive after the conversion. -/
theorem Backoff.next_eq_none_iff {b : Backoff} {draw : Nat} :
    b.next k draw = none ↔
      b.val ≤ b.conf.max ∧ b.conf.maxFactorJitter ≠ 0 ∧
        k.toInt (b.conf.maxFactorJitter * 100) ≤ 0 := by
  simp only [next, multiplier, intn]
  by_cases hmax : b.conf.max < b.val
  · simp [hmax]
  · by_cases hjitter : b.conf.maxFactorJitter = 0
    · simp [hmax, hjitter]
    · simp [hmax, hjitter, le_of_not_gt hmax]

/-- The bounds hold for any number, also for one that overflowed. -/
theorem clamp_mem (hconf : conf.initial ≤ conf.max) (dur : Int) :
    conf.initial ≤ clamp conf dur ∧ clamp conf dur ≤ conf.max := by
  rw [clamp]
  split
  · omega
  · split <;> omega

/-- Whatever the conversion gives, `next` stays in the bounds, since it clamps the result from both
sides. -/
theorem Backoff.next_mem {b : Backoff} {draw : Nat} {dur : Int}
    (hconf : b.conf.initial ≤ b.conf.max) (h : b.next k draw = some dur) :
    b.conf.initial ≤ dur ∧ dur ≤ b.conf.max := by
  rw [next] at h
  split at h
  · cases h
    exact ⟨hconf, le_refl _⟩
  · obtain ⟨m, -, rfl⟩ := Option.map_eq_some_iff.mp h
    exact clamp_mem hconf _

/-- What the calls keep: the delay and all delays before it are in the bounds of the
configuration. -/
structure InRange (conf : Config.Backoff) (s : Pacer) : Prop where
  config : s.backoff.conf = conf
  val : conf.initial ≤ s.backoff.val ∧ s.backoff.val ≤ conf.max
  delays : ∀ dur ∈ s.delays, conf.initial ≤ dur ∧ dur ≤ conf.max

/-- A call that begins to wait records a delay within the bounds. -/
theorem InRange.await {val dur : Int} {timer : Timer} (hs : InRange conf s)
    (hval : conf.initial ≤ val ∧ val ≤ conf.max) (hdur : conf.initial ≤ dur ∧ dur ≤ conf.max) :
    InRange conf (s.await val dur timer) where
  config := hs.config
  val := hval
  delays := by simpa [Pacer.await] using ⟨hdur, hs.delays⟩

/-- Every step keeps the delays within the bounds. `next` clamps what it computes, whatever the
conversion of the float gave. -/
theorem InRange.move (hconf : conf.initial ≤ conf.max) (hs : InRange conf s)
    (hm : PacerMove k s e s') : InRange conf s' := by
  have hinitial : conf.initial ≤ conf.initial ∧ conf.initial ≤ conf.max := ⟨le_refl _, hconf⟩
  cases hm with
  | first =>
    rw [hs.config]
    exact hs.await hs.val hinitial
  | again hpc hattempt hnext =>
    -- `next` has clamped the delay.
    have hdur := Backoff.next_mem (by rwa [hs.config]) hnext
    rw [hs.config] at hdur
    exact hs.await hdur hdur
  | panic => exact ⟨hs.config, hs.val, hs.delays⟩
  | reset =>
    obtain ⟨hconfig, -, hval, hdelays⟩ := s.callReset_fields
    rw [hs.config] at hconfig hval
    exact ⟨hconfig, by rwa [hval], by rw [hdelays]; exact hs.delays⟩
  | fire => exact ⟨hs.config, hs.val, hs.delays⟩
  | receive => exact ⟨hs.config, hs.val, hs.delays⟩

/-- `rand.Intn` panics on zero. The truncated jitter is positive from one percent on. -/
theorem truncate_percent_pos_iff (jitter : ℚ) : 0 < truncate (jitter * 100) ↔ 1 / 100 ≤ jitter := by
  rw [truncate_pos_iff, div_le_iff₀ (by norm_num)]

/-- Every conversion has something to draw from a jitter of one percent that fits. -/
theorem toInt_percent_pos {jitter : ℚ} (hpercent : 1 / 100 ≤ jitter)
    (hfits : jitter * 100 < 2 ^ 63) : 0 < k.toInt (jitter * 100) := by
  have hlow : -2 ^ 63 < jitter * 100 := by linarith
  rw [k.toInt_of_fits _ hlow hfits]
  exact (truncate_percent_pos_iff jitter).mpr hpercent

/-- The only step that can panic is the draw of the jitter. `rand.Int63n` panics on a bound that is
not positive, and the bound is computed from the configuration. -/
theorem InRange.move_not_panicked (hdraw : 0 < k.toInt (conf.maxFactorJitter * 100))
    (hs : Timed s) (hrange : InRange conf s) (hpc : s.pc ≠ .panicked) (hm : PacerMove k s e s') :
    s'.pc ≠ .panicked := by
  cases hm with
  | first => nofun
  | again => nofun
  | panic _ hattempt hnone =>
    cases hnone with
    | inl hnext =>
      -- The draw panics only for a bound that is not positive.
      have hle := (Backoff.next_eq_none_iff.mp hnext).2.2
      rw [hrange.config] at hle
      omega
    | inr htimer => exact absurd (hs.attempt htimer) hattempt
  | reset hidle =>
    obtain ⟨-, -, hpc'⟩ | ⟨-, -, hpc'⟩ := hs.callReset hidle
    · simp [hpc']
    · simp [hpc']
  | fire => exact hpc
  | receive => nofun

/-- The first value is the initial one, and no delay has been used yet. -/
theorem inRange_newPacer (hconf : conf.initial ≤ conf.max) : InRange conf (newPacer conf) :=
  ⟨rfl, ⟨le_refl _, hconf⟩, by simp [newPacer]⟩

/-- The delays of every run are in the bounds, those that were used and the one to come. -/
theorem inRange_of_run (hconf : conf.initial ≤ conf.max)
    (hrun : run (Pacer.step k) (newPacer conf) es = some s) : InRange conf s :=
  run_invariant (fun _ _ _ hstep hs => hs.move hconf (Pacer.step_move hstep)) hrun
    (inRange_newPacer hconf)

/-- No run panics as long as `rand.Intn` has something to draw. The timer is never missing when it
is used. -/
theorem not_panicked_of_run (hconf : conf.initial ≤ conf.max)
    (hdraw : 0 < k.toInt (conf.maxFactorJitter * 100))
    (hrun : run (Pacer.step k) (newPacer conf) es = some s) : s.pc ≠ .panicked := by
  have hinv : (Timed s ∧ InRange conf s) ∧ s.pc ≠ .panicked := by
    refine run_invariant (I := fun s => (Timed s ∧ InRange conf s) ∧ s.pc ≠ .panicked) ?_ hrun
      ⟨⟨timed_newPacer conf, inRange_newPacer hconf⟩, nofun⟩
    intro s e s' hstep hs
    obtain ⟨⟨htimed, hrange⟩, hpc⟩ := hs
    have hm := Pacer.step_move hstep
    exact ⟨⟨htimed.move hm, hrange.move hconf hm⟩, hrange.move_not_panicked hdraw htimed hpc hm⟩
  exact hinv.2

/-- The second `Next` panics when `rand.Intn` has nothing to draw. -/
theorem panics_of_toInt_nonpos (hconf : conf.accepted)
    (hdraw : k.toInt (conf.maxFactorJitter * 100) ≤ 0) :
    ∃ s, run (Pacer.step k) (newPacer conf) [.next 0, .fire, .receive, .next 0] = some s ∧
      s.pc = .panicked := by
  obtain ⟨-, hjitter, -, hmax⟩ := Config.Backoff.accepted_iff.mp hconf
  have hnext : Backoff.next k ⟨conf, 1, conf.initial, some .spent⟩ 0 = none :=
    Backoff.next_eq_none_iff.mpr ⟨hmax, hjitter.ne', hdraw⟩
  let s : Pacer := { backoff := ⟨conf, 1, conf.initial, some .spent⟩, delays := [conf.initial] }
  have hfirst : run (Pacer.step k) (newPacer conf) [.next 0, .fire, .receive] = some s := rfl
  have hstep : s.step k (.next 0) = some { s with pc := .panicked } := by
    simp [s, Pacer.step, Pacer.callNext, hnext]
  exact ⟨_, run_concat hfirst hstep, rfl⟩

/-- For any conversion: no sequence of calls panics, and all delays are in the bounds, iff
`rand.Intn` has something to draw. -/
theorem in_range_iff_toInt_pos (hconf : conf.accepted) :
    (∀ es s, run (Pacer.step k) (newPacer conf) es = some s →
      s.pc ≠ .panicked ∧ ∀ dur ∈ s.delays, conf.initial ≤ dur ∧ dur ≤ conf.max) ↔
    0 < k.toInt (conf.maxFactorJitter * 100) := by
  obtain ⟨-, -, -, hmax⟩ := Config.Backoff.accepted_iff.mp hconf
  constructor
  · intro hall
    by_contra hdraw
    obtain ⟨s, hrun, hpc⟩ := panics_of_toInt_nonpos hconf (not_lt.mp hdraw)
    exact (hall _ s hrun).1 hpc
  · intro hdraw es s hrun
    exact ⟨not_panicked_of_run hmax hdraw hrun, (inRange_of_run hmax hrun).delays⟩

/-- For every accepted configuration, every sequence of calls and all draws: no call panics and the
delays are in the bounds, iff the jitter is at least one percent. -/
theorem delays_in_range_iff (hconf : conf.accepted) :
    (∀ es s, run (Pacer.step .truncation) (newPacer conf) es = some s →
      s.pc ≠ .panicked ∧ ∀ dur ∈ s.delays, conf.initial ≤ dur ∧ dur ≤ conf.max) ↔
    1 / 100 ≤ conf.maxFactorJitter := by
  rw [in_range_iff_toInt_pos hconf]
  exact truncate_percent_pos_iff _

/-- The default configuration is one that `Validate` accepts, and its delays are within its bounds.
-/
theorem delays_in_range_default :
    Config.default.dialBackoff.accepted ∧
      ∀ es s, run (Pacer.step .truncation) (newPacer Config.default.dialBackoff) es = some s →
        s.pc ≠ .panicked ∧
          ∀ dur ∈ s.delays, Config.default.dialBackoff.initial ≤ dur ∧
            dur ≤ Config.default.dialBackoff.max := by
  have hconf : Config.default.dialBackoff.accepted := by decide +kernel
  exact ⟨hconf, (delays_in_range_iff hconf).mpr (by decide +kernel)⟩

/-- A jitter of half a percent: the configuration is accepted, and the second dial that fails ends
the program. The hundredfold of the jitter is truncated to 0, and `rand.Intn` panics on it. -/
theorem next_panics_below_percent :
    Config.Backoff.accepted ⟨13 / 10, 5 / 1000, 100000000, 30000000000⟩ ∧
      ∃ s, run (Pacer.step .truncation)
          (newPacer ⟨13 / 10, 5 / 1000, 100000000, 30000000000⟩)
          [.next 0, .fire, .receive, .next 0] = some s ∧
        s.pc = .panicked := by
  have hconf : Config.Backoff.accepted ⟨13 / 10, 5 / 1000, 100000000, 30000000000⟩ := by
    decide +kernel
  exact ⟨hconf, panics_of_toInt_nonpos hconf (by decide +kernel)⟩

end ReplicatedFs.Connection
