import Mathlib.Algebra.Order.Ring.Rat
import ReplicatedFs.Library.Slice
import ReplicatedFs.Protobuf.Message

/-!
# `ReplicatedFs.Config.Config`: the configuration of a host

The parts of `config/config.go` that `connection/backoff.go` and `main.go` read: the backoff of a
dial, the name of the host and the peers.

* A `float64` is the rational that the file gives. A `time.Duration` counts nanoseconds.
* The peers are a slice, since `Pop` writes into its array. The array holds pointers in the code.
  Nothing writes to the peers themselves, so it holds these here.
* `accepted` says whether `Validate` returns nil. The text of its error comes from the validator,
  and nothing reads it.
-/

set_option autoImplicit false
set_option linter.dupNamespace false

namespace ReplicatedFs.Config

open Protobuf
open Library

/-- `Backoff` of the configuration. -/
structure Backoff where
  factor : ℚ
  maxFactorJitter : ℚ
  initial : Int
  max : Int
  deriving DecidableEq

/-- The tags of the fields, in their order. `required` refuses zero, also for the jitter that
`gte=0` would let pass. -/
def Backoff.accepted (b : Backoff) : Bool :=
  (b.factor ≠ 0 && 1 ≤ b.factor)
    && (b.maxFactorJitter ≠ 0 && 0 ≤ b.maxFactorJitter)
    && (b.initial ≠ 0 && 0 < b.initial)
    && (b.max ≠ 0 && 0 < b.max && b.initial ≤ b.max)

/-- What a backoff has to meet to get through the validation. Nothing is said about an upper bound
of the jitter. -/
theorem Backoff.accepted_iff {b : Backoff} :
    b.accepted ↔
      1 ≤ b.factor ∧ 0 < b.maxFactorJitter ∧ 0 < b.initial ∧ b.initial ≤ b.max := by
  simp only [accepted, Bool.and_eq_true, decide_eq_true_eq]
  constructor
  · rintro ⟨⟨⟨⟨-, hfactor⟩, hne, hjitter⟩, -, hinitial⟩, -, hmax⟩
    exact ⟨hfactor, lt_of_le_of_ne hjitter (Ne.symm hne), hinitial, hmax⟩
  · rintro ⟨hfactor, hjitter, hinitial, hmax⟩
    have hfactor' : b.factor ≠ 0 := (lt_of_lt_of_le one_pos hfactor).ne'
    exact ⟨⟨⟨⟨hfactor', hfactor⟩, hjitter.ne', hjitter.le⟩, by omega, hinitial⟩,
      ⟨by omega, by omega⟩, hmax⟩

/-- `Peer`. -/
structure Peer where
  name : PeerName
  address : String
  deriving DecidableEq, Repr

/-- `Peers`. -/
abbrev Peers := Slice

/-- The tags `gt=0` and `unique=Name`. Without `dive` the tags of `Peer` are not looked at, so a
name may be empty. -/
def Peers.accepted (p : Peers) (h : Heap Peer) : Bool :=
  0 < p.len && ((p.read h).map Peer.name).Nodup

/-- `Pop`, none when it panics. It returns the peer, the other ones, and the arrays after it. -/
def Peers.pop (p : Peers) (h : Heap Peer) (name : PeerName) :
    Option (Peer × Peers × Heap Peer) := do
  -- The index stays zero when no peer has the name.
  let i := ((p.read h).findIdx? (·.name = name)).getD 0
  let popped ← (p.read h)[i]?
  let before ← p.upTo i
  let after ← p.since (i + 1)
  let (h', sliced) := append h before (after.read h)
  return (popped, sliced, h')

/-- `Config`. -/
structure Config where
  hostName : PeerName
  dialBackoff : Backoff
  peers : Peers
  deriving DecidableEq

/-- `Validate`. -/
def Config.accepted (conf : Config) (h : Heap Peer) : Bool :=
  conf.hostName ≠ "" && conf.dialBackoff.accepted && conf.peers.accepted h

/-- The peers of `config.json`. -/
def defaultPeers : List Peer :=
  [⟨"Aragorn", "localhost:9001"⟩, ⟨"Legolas", "localhost:9002"⟩, ⟨"Frodo", "localhost:9003"⟩,
    ⟨"Gandalf", "localhost:9004"⟩, ⟨"Gimli", "localhost:9005"⟩]

/-- `Default`, with an array that is as long as it has to be for the peers. -/
def default : Config where
  hostName := "Aragorn"
  dialBackoff := ⟨13 / 10, 2 / 10, 100000000, 30000000000⟩
  peers := ⟨0, 0, 5, 5, le_refl 5⟩

example : default.accepted [defaultPeers] := by decide +kernel

end ReplicatedFs.Config
