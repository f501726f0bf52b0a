import Mathlib.Logic.Basic

/-!
# `ReplicatedFs.Library.Election`: votes that must be unanimous

An election has voters, each with at most one vote, and deciders, each with at most one
decision. A decider may commit when every voter voted for it, veto when some voter voted
against it, and give up at any time. `Election.Sound` says that all decisions are of this kind.

* `Election.Sound.agreement`: one decider commits only if none vetoes.
* `Election.Sound.commit_iff`: a decider that does not give up commits exactly when the vote is
  unanimous.
* `Election.Le`: an election only grows. `Election.Unanimous.mono` carries a result across time.
-/

set_option autoImplicit false

namespace Library

variable {ν δ : Type}

/-- What a decider concludes. -/
inductive Decision
  | commit
  | veto
  | giveUp
  deriving DecidableEq, Repr

/-- The votes of the voters `ν` and the decisions of the deciders `δ`. -/
structure Election (ν δ : Type) where
  votes : ν → Option Bool
  decisions : δ → Option Decision

namespace Election

variable {voters : List ν} {e e' : Election ν δ}

/-- Every voter voted for it. -/
def Unanimous (voters : List ν) (e : Election ν δ) : Prop :=
  ∀ v ∈ voters, e.votes v = some true

/-- Some voter voted against it. -/
def Vetoed (voters : List ν) (e : Election ν δ) : Prop :=
  ∃ v ∈ voters, e.votes v = some false

/-- The votes allow the decision. -/
def Justified (voters : List ν) (e : Election ν δ) : Decision → Prop
  | .commit => e.Unanimous voters
  | .veto => e.Vetoed voters
  | .giveUp => True

/-- Every decision is allowed by the votes. -/
def Sound (voters : List ν) (e : Election ν δ) : Prop :=
  ∀ d k, e.decisions d = some k → e.Justified voters k

/-- `e'` is `e` with more votes and more decisions. -/
structure Le (e e' : Election ν δ) : Prop where
  votes : ∀ v b, e.votes v = some b → e'.votes v = some b
  decisions : ∀ d k, e.decisions d = some k → e'.decisions d = some k

/-- One voter has one vote, so nobody who voted for it can veto. -/
theorem Unanimous.not_vetoed (h : e.Unanimous voters) : ¬ e.Vetoed voters := by
  rintro ⟨v, hv, hfalse⟩
  rw [h v hv] at hfalse
  cases hfalse

/-- Votes that come later change no vote that was cast. So what was unanimous once stays so. -/
theorem Unanimous.mono (h : e.Unanimous voters) (hle : e.Le e') : e'.Unanimous voters :=
  fun v hv => hle.votes v true (h v hv)

/-- One decider commits only if none vetoes. Both decisions rest on votes, and a voter has one
vote. -/
theorem Sound.agreement (hs : e.Sound voters) {d d' : δ} (hd : e.decisions d = some .commit) :
    e.decisions d' ≠ some .veto := by
  intro hd'
  have hunanimous : e.Unanimous voters := hs d .commit hd
  exact hunanimous.not_vetoed (hs d' .veto hd')

/-- A decider that does not give up commits exactly when the vote is unanimous. -/
theorem Sound.commit_iff (hs : e.Sound voters) {d : δ} {k : Decision}
    (hd : e.decisions d = some k) (hk : k ≠ .giveUp) :
    k = .commit ↔ e.Unanimous voters := by
  have hjust := hs d k hd
  cases k with
  | commit => exact ⟨fun _ => hjust, fun _ => rfl⟩
  | veto =>
    refine ⟨fun h => ?_, fun h => absurd hjust h.not_vetoed⟩
    cases h
  | giveUp => exact absurd rfl hk

end Election

end Library
