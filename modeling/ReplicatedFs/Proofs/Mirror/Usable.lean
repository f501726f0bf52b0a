import ReplicatedFs.Proofs.Mirror.Verdict

/-!
# `ReplicatedFs.Proofs.Mirror.Usable`: the votes that can be used

`handleTransaction` and `replicate` read the type of a response, and `Error` and `ErrorMsg` of a
`NACK`, without a test for nil. `Mirror.Consult` returns such a response for every request but one
of `RMDIR`. There the branches of an error and of a directory are nested where they should be
parallel: a path that exists gives no response, and an error that is not "does not exist" is
followed by a look at a nil `FileInfo`.

* `consult_usable_iff`: the votes that can be used, on any answers of the system.
-/

set_option autoImplicit false

namespace ReplicatedFs

open Library.Posix Protobuf

/-- One of the ten types of the schema. -/
def Protobuf.RequestType.Declared (type : RequestType) : Prop :=
  ∀ number, type ≠ .unrecognized number

/-- The response is an `ACK`, or a `NACK` with its error and its text. -/
def Protobuf.Response.Usable (response : Response) : Prop :=
  response.type = .ack ∨
    response.type = .nack ∧ response.error.isSome ∧ response.errorMsg.isSome

/-- What a call of `Mirror.Consult` has to return for a request: a response that can be used, and
for `RMDIR` an `ACK` exactly when the path is a directory. -/
def Answers.Serves (a : Answers) (r : Request) : Prop :=
  ∃ response, a.consult r = .ok (some response) ∧ response.Usable ∧
    (r.type = .rmdir → (response.type = .ack ↔ ∃ mode, a.first = .ok mode ∧ isDir mode = true))

/-- A vote of the mirror can be used: it is an ACK, or a NACK with an error. `processResponses`
reads the error of a NACK without a test for nil, so a NACK without one could not be used. -/
theorem Protobuf.Response.OfMirror.usable {r : Response} (h : r.OfMirror) : r.Usable := by
  rcases h with rfl | ⟨e, -, text, rfl⟩
  · exact .inl rfl
  · exact .inr ⟨rfl, rfl, rfl⟩

section Cases
variable {a : Answers}

/-- Every request with metadata that is not an `RMDIR` gets a response that can be used. All the
other branches of `Consult` end in a return with a response. `WRITE` would not even need the
metadata. -/
theorem Answers.serves_of_ne_rmdir {r : Request} (htype : r.type.Declared)
    (hmeta : r.metadata ≠ none) (hne : r.type ≠ .rmdir) : a.Serves r := by
  -- Every response is a vote of the mirror, so it is enough that there is one.
  have hserves : ∀ response, a.consult r = .ok (some response) → a.Serves r := by
    intro response hr
    exact ⟨response, hr, (Answers.consult_ofMirror hr).usable, fun h => absurd h hne⟩
  obtain ⟨type, md, clock, content⟩ := r
  obtain ⟨md, rfl⟩ := Option.ne_none_iff_exists'.mp hmeta
  cases type with
  | unrecognized number => exact absurd rfl (htype number)
  | rmdir => exact absurd rfl hne
  | write | link | symlink | create | mkdir | rename | copyFileRange => exact hserves _ rfl
  | setattr | unlink =>
    cases hfirst : a.first with
    | ok mode => exact hserves ack (by simp [Answers.consult, hfirst])
    | error err => exact hserves _ (by simp only [Answers.consult, hfirst]; rfl)

/-- An `RMDIR` gets one only when there is no such path. For a path that exists `Consult` falls out
of its switch and returns nil. -/
theorem Answers.serves_rmdir_iff {r : Request} (hmeta : r.metadata ≠ none)
    (hrmdir : r.type = .rmdir) :
    a.Serves r ↔ ∃ text, a.first = .error ⟨text, true⟩ := by
  obtain ⟨type, md, clock, content⟩ := r
  obtain ⟨md, rfl⟩ := Option.ne_none_iff_exists'.mp hmeta
  obtain rfl : type = .rmdir := hrmdir
  constructor
  · rintro ⟨response, hr, -⟩
    simp only [Answers.consult] at hr
    split at hr
    · cases hr
    · rename_i err hfirst
      split at hr
      · rename_i hnot
        exact ⟨err.text, by rw [hfirst, ← hnot]⟩
      · cases hr
  · -- `os.IsNotExist` of the error: the answer is a NACK.
    rintro ⟨text, hfirst⟩
    have hvote : a.consult ⟨.rmdir, some md, clock, content⟩ =
        .ok (some (nack .doesNotExist text)) := by
      simp [Answers.consult, hfirst]
    refine ⟨_, hvote, (Answers.consult_ofMirror hvote).usable, fun _ => ?_⟩
    simp [nack, hfirst]

end Cases

/-- For a request of a declared type with metadata, `Mirror.Consult` returns a response that can be
used, with the right answer to an `RMDIR`, exactly when the request is not an `RMDIR` or `os.Stat`
says that there is no such path. -/
theorem consult_usable_iff (a : Answers) (r : Request) (htype : r.type.Declared)
    (hmeta : r.metadata ≠ none) :
    a.Serves r ↔ r.type ≠ .rmdir ∨ ∃ text, a.first = .error ⟨text, true⟩ := by
  by_cases hrmdir : r.type = .rmdir
  · rw [Answers.serves_rmdir_iff hmeta hrmdir]
    simp [hrmdir]
  · simp [hrmdir, Answers.serves_of_ne_rmdir htype hmeta hrmdir]

/-- A directory that is there. -/
def foundDir : Answers := ⟨.ok (modeDir ||| 0o755), .error ⟨"", true⟩, none⟩

/-- There is no such path. -/
def notFound : Answers :=
  ⟨.error ⟨"stat /m/a: no such file or directory", true⟩, .error ⟨"", true⟩, none⟩

/-- An `RMDIR` of the path. -/
def rmdirRequest : Request := { type := .rmdir, metadata := some { relativePath := "a" } }

/-- An `RMDIR` of a path that is missing is voted down, with the error that `os.Stat` gave. -/
theorem rmdir_missing_usable :
    notFound.consult rmdirRequest =
        .ok (some (nack .doesNotExist "stat /m/a: no such file or directory")) ∧
      notFound.Serves rmdirRequest :=
  ⟨rfl, (consult_usable_iff notFound rmdirRequest
    (fun number h => by cases h) (by simp [rmdirRequest])).mpr (.inr ⟨_, rfl⟩)⟩

/-- An `RMDIR` of a directory gets no response, and one of a path that cannot be looked up stops the
host. -/
theorem rmdir_found_unusable :
    foundDir.consult rmdirRequest = .ok none ∧ ¬ foundDir.Serves rmdirRequest ∧
      Answers.consult ⟨.error ⟨"stat /m/a: permission denied", false⟩, .error ⟨"", true⟩, none⟩
        rmdirRequest = .error .nilDereference := by
  refine ⟨rfl, ?_, rfl⟩
  rintro ⟨response, hr, -⟩
  cases hr

end ReplicatedFs
