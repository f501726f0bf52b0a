import ReplicatedFs.Mirror.Consult
import ReplicatedFs.P2p.Cluster

/-!
# `ReplicatedFs.Proofs.Mirror.Verdict`: the votes of `Mirror.Consult`

A response of `Mirror.Consult` is an `ACK`, or a `NACK` with one of five errors and a text
(`Answers.consult_ofMirror`). This is a verdict, so the model of the network takes every vote that
the mirror can cast (`admits_consult`). The nil response for an `RMDIR` is not a vote.
-/

set_option autoImplicit false

namespace ReplicatedFs

open Library.Posix Protobuf

/-- The errors that `Mirror.Consult` votes with. -/
def consultErrors : List ResponseError :=
  [.unknown, .alreadyExists, .doesNotExist, .notAFile, .invalidMode]

/-- A vote of the mirror: an `ACK`, or a `NACK` with one of its errors. -/
def Protobuf.Response.OfMirror (r : Response) : Prop :=
  r = ack ∨ ∃ e ∈ consultErrors, ∃ text, r = nack e text

/-- An `ACK` is a verdict of `Mirror.Consult`, the only one without an error. -/
@[simp] theorem ofMirror_ack : ack.OfMirror := .inl rfl

/-- A `NACK` is one when its error is among those that `Mirror.Consult` uses. In particular it is no
transaction conflict, which only the host answers. -/
@[simp] theorem ofMirror_nack (e : ResponseError) (text : String) :
    (nack e text).OfMirror ↔ e ∈ consultErrors := by
  simp [nack, Protobuf.ack, Response.OfMirror]

/-- A vote of the mirror is a verdict in the sense of `p2p`, which asks for less. `p2p` is modelled
with any verdicts, and with this its theorems apply to those of the mirror. -/
theorem Protobuf.Response.OfMirror.isVerdict {r : Response} (h : r.OfMirror) : r.IsVerdict := by
  rcases h with rfl | ⟨e, he, text, rfl⟩
  · exact .inl rfl
  · refine .inr ⟨rfl, rfl, ?_, rfl⟩
    rintro ⟨⟩
    exact absurd he (by decide)

section Verdict
variable (a : Answers)

/-- The vote on an error of `os.Stat`: a NACK that says whether the path is missing. -/
theorem StatError.vote_ofMirror (err : StatError) : err.vote.OfMirror := by
  unfold StatError.vote
  split <;> simp [consultErrors]

/-- The verdicts on `LINK` and `SYMLINK`. They look at both paths, and each has its own error. -/
theorem Answers.consultLink_ofMirror (md : Metadata) : (a.consultLink md).OfMirror := by
  unfold Answers.consultLink
  repeat' split
  all_goals simp [consultErrors]

/-- The verdicts on `CREATE` and `MKDIR`, which differ in nothing. -/
theorem Answers.consultCreate_ofMirror : a.consultCreate.OfMirror := by
  unfold Answers.consultCreate
  split <;> simp [consultErrors]

/-- The verdicts on `RENAME`, for which the types of the two paths are compared. An error of
`os.Stat` on the new path is an `ACK` if it says that nothing is there, and a NACK otherwise. -/
theorem Answers.consultRename_ofMirror : a.consultRename.OfMirror := by
  unfold Answers.consultRename
  split
  · exact StatError.vote_ofMirror _
  · repeat' split
    all_goals simp [consultErrors]

/-- The loop of `COPY_FILE_RANGE` stops with a vote, on the first path that is not a regular
file. -/
theorem Stat.consultRegular_ofMirror {path : String} {stat : Stat} {response : Response}
    (h : stat.consultRegular path = some response) : response.OfMirror := by
  unfold Stat.consultRegular at h
  split at h
  · cases h
    split <;> simp [consultErrors]
  · split at h
    · cases h
    · cases h
      simp [consultErrors]

/-- The verdicts on `COPY_FILE_RANGE`: those of the loop, and the one on the permission to write. -/
theorem Answers.consultCopy_ofMirror (md : Metadata) : (a.consultCopy md).OfMirror := by
  unfold Answers.consultCopy
  split
  · exact Stat.consultRegular_ofMirror ‹_›
  split
  · exact Stat.consultRegular_ofMirror ‹_›
  · split <;> simp [consultErrors]

variable {a}

/-- What `Mirror.Consult` returns is a vote, or nil, whatever the system answers. A vote is an
`ACK`, or a `NACK` with one of the errors that `Consult` uses. Nil is returned for an `RMDIR` of a
path that is there, and this is left out by the hypothesis. -/
theorem Answers.consult_ofMirror {r : Request} {response : Response}
    (h : a.consult r = .ok (some response)) : response.OfMirror := by
  unfold Answers.consult at h
  split at h
  case h_1 | h_3 => cases h
  case h_2 =>
    cases h
    exact ofMirror_ack
  case h_4 | h_5 =>
    cases h
    exact a.consultLink_ofMirror _
  case h_6 | h_7 =>
    cases h
    exact a.consultCreate_ofMirror
  case h_8 =>
    cases h
    exact a.consultRename_ofMirror
  case h_9 =>
    -- Of the answers to an `RMDIR`, only the one for a missing path is a vote.
    split at h
    · cases h
    · split at h
      · cases h
        simp [consultErrors]
      · cases h
  case h_10 =>
    split at h
    · cases h
      exact ofMirror_ack
    · cases h
      exact StatError.vote_ofMirror _
  case h_11 =>
    split at h
    · cases h
      exact ofMirror_ack
    · cases h
      split <;> simp [consultErrors]
  case h_12 =>
    cases h
    exact a.consultCopy_ofMirror _

end Verdict

/-- The answer of `Mirror.Consult` is a step that the network admits, in any state and for any
handler. -/
theorem admits_consult {m : Mirror} {proc : Process} {st : Store} {r : Request}
    {response : Response} (h : m.consult proc st r = .ok (some response)) (c : P2p.Cluster)
    (s : P2p.System) (x : PeerName) (ref : Nat) :
    s.admits c x (.task ref (.consulted response)) = true :=
  decide_eq_true (Answers.consult_ofMirror h).isVerdict

end ReplicatedFs
