import Mathlib.Algebra.GroupWithZero.Nat
import Mathlib.Algebra.Order.BigOperators.Group.List
import Mathlib.Algebra.Order.Group.Nat
import Mathlib.Data.Prod.Lex
import ReplicatedFs.Library.Run

/-!
# `ReplicatedFs.Library.Contest`: contests with a counter of defeats

Players compete in contests. The contender with the greatest pair (counter, name) wins, and the
counter of every other contender grows by one. So a defeat raises the chances of the next
contest, and no player loses for long.

* `Contest.play`: one contest as a step on the counters.
* `advantage`: how far the other players are ahead of one player, in total.
* `advantage_play_lt`: every contest that the player loses lowers it.
* `losing_streak_le`: so it bounds the number of contests that the player loses in a row.
-/

set_option autoImplicit false

namespace Library

variable {ν : Type} [LinearOrder ν]

/-- The contenders, with the one that wins. -/
structure Contest (ν : Type) where
  contenders : List ν
  winner : ν
  deriving DecidableEq

/-- The winner is the contender with the greatest pair (counter, name). -/
def Contest.Wins (r : Contest ν) (counters : ν → Nat) : Prop :=
  r.winner ∈ r.contenders ∧ ∀ x ∈ r.contenders, x ≠ r.winner →
    toLex (counters x, x) < toLex (counters r.winner, r.winner)

instance (r : Contest ν) (counters : ν → Nat) : Decidable (r.Wins counters) :=
  inferInstanceAs (Decidable (_ ∧ _))

/-- The player takes part and does not win. -/
def Contest.Loses (r : Contest ν) (x : ν) : Prop := x ∈ r.contenders ∧ x ≠ r.winner

instance (r : Contest ν) (x : ν) : Decidable (r.Loses x) :=
  inferInstanceAs (Decidable (_ ∧ _))

/-- The counters after the contest. -/
def Contest.counted (r : Contest ν) (counters : ν → Nat) (x : ν) : Nat :=
  if r.Loses x then counters x + 1 else counters x

/-- One contest. It is only played with the right winner. -/
def Contest.play (counters : ν → Nat) (r : Contest ν) : Option (ν → Nat) :=
  if r.Wins counters then some (r.counted counters) else none

/-- How far the players are ahead of `h`, in total. A player with the counter of `h` counts as
one ahead, since its name may be greater. The subtraction is truncated at zero. -/
def advantage (players : List ν) (h : ν) (counters : ν → Nat) : Nat :=
  (players.map fun j => counters j + 1 - counters h).sum

/-- Contests that `h` loses against one of the players. -/
def losing (players : List ν) (h : ν) : (ν → Nat) → Contest ν → Option (ν → Nat) :=
  restrict Contest.play fun _ r => r.Loses h ∧ r.winner ∈ players

variable {r : Contest ν} {counters counters' : ν → Nat} {players : List ν} {h : ν}

/-- The counter of the winner is not smaller than that of another contender. -/
theorem Contest.Wins.le (hw : r.Wins counters) {x : ν} (hx : x ∈ r.contenders) :
    counters x ≤ counters r.winner := by
  by_cases hxw : x = r.winner
  · rw [hxw]
  · rcases Prod.Lex.lt_iff.mp (hw.2 x hx hxw) with hlt | ⟨heq, -⟩
    · exact Nat.le_of_lt hlt
    · exact Nat.le_of_eq heq

/-- A contest that `h` loses lowers the advantage of the others. -/
theorem advantage_play_lt (hw : r.Wins counters) (hl : r.Loses h)
    (hmem : r.winner ∈ players) :
    advantage players h (r.counted counters) < advantage players h counters := by
  have hh : r.counted counters h = counters h + 1 := if_pos hl
  refine List.sum_lt_sum _ _ (fun j _ => ?_) ⟨r.winner, hmem, ?_⟩
  · have hj : r.counted counters j ≤ counters j + 1 := by
      unfold Contest.counted
      split <;> omega
    omega
  · -- The winner keeps its counter, which was not smaller.
    have hwin : r.counted counters r.winner = counters r.winner :=
      if_neg fun hlw => hlw.2 rfl
    have hle := hw.le hl.1
    omega

/-- The advantage of the others bounds the contests that `h` loses in a row. Whoever loses gains
one, and the winner gains nothing. So each contest that `h` loses lowers the advantage of the winner
over it, and no advantage grows. -/
theorem losing_streak_le {rs : List (Contest ν)}
    (hrun : run (losing players h) counters rs = some counters') :
    rs.length ≤ advantage players h counters := by
  have hlen := run_length_add_le (I := fun _ => True) (μ := advantage players h)
    (fun _ _ _ _ _ => trivial) ?_ hrun trivial
  · omega
  · -- A contest that `h` loses lowers the advantage: the winner has lost nothing, and `h` has
    -- gained one.
    intro s r s' hstep _
    obtain ⟨hguard, hplay⟩ := restrict_eq_some.mp hstep
    obtain ⟨hl, hmem⟩ := of_decide_eq_true hguard
    unfold Contest.play at hplay
    split at hplay
    · rename_i hw
      cases hplay
      exact advantage_play_lt hw hl hmem
    · cases hplay

end Library
