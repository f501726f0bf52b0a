import ReplicatedFs.Library.Posix.Success
import ReplicatedFs.Mirror.Consult

/-!
# `ReplicatedFs.Proofs.Mirror.Promise`: an `ACK` and what becomes of it

`Mirror.Consult` looks at the paths of a request with `os.Stat`, which follows links.
`Mirror.Mirror` makes a call that has tests of its own: a new entry must not be a link without a
target, a directory that goes must be empty, `os.Rename` does not replace a directory, and the
process needs the permissions. `Mirror.Keeps` is what has to hold of the tree for each type.

The calls of the model have no limits. A `FittingRequest` is one whose calls stay within those of
the system: it names no path that is too long for a call, and does not write past the end of the
largest file.

* `consultCreate_ack` and the like: which trees get an `ACK`.
* `ack_kept_iff`: the requests whose `ACK` is kept.
-/

set_option autoImplicit false

namespace ReplicatedFs

open Library.Posix Protobuf

/-- The limits of a system, in bytes: of a name, of a path, and of a file. On Linux a name has at
most 255 bytes and a path 4095. The size of a file depends on the file system and on the limits of
the process. -/
structure Limits where
  name : Nat
  path : Nat
  file : Nat

/-- A path that can be handed to a call. Go refuses a zero byte in it, and a name or a path that is
too long is `ENAMETOOLONG`. -/
def Limits.Admits (limits : Limits) (p : Path) : Prop :=
  (∀ name ∈ p, name.utf8ByteSize ≤ limits.name ∧ Char.ofNat 0 ∉ name.toList) ∧
    (pathText p).utf8ByteSize ≤ limits.path

/-- The calls for the request stay within the limits: those of its paths and of the links on the
way, and the size of the file that it writes to. -/
structure Mirror.Fits (m : Mirror) (limits : Limits) (s : Store) (r : Request) : Prop where
  paths : ∀ md, r.metadata = some md →
    limits.Admits (m.path md.relativePath) ∧ limits.Admits (m.path md.newRelativePath)
  links : ∀ p target, s.get p = some (.symlink target) →
    ∀ name ∈ components target, name.utf8ByteSize ≤ limits.name
  size : ∀ md, r.metadata = some md →
    md.writeOffset.toInt + max ((r.content.getD []).length : Int) md.writeLen.toInt ≤ limits.file

/-- A request within the limits of the system. -/
abbrev Mirror.FittingRequest (m : Mirror) (limits : Limits) (s : Store) :=
  { r : Request // m.Fits limits s r }

section Keeps
variable (m : Mirror) (proc : Process) (s : Store)

/-- The bytes that `copy_file_range` reports are as many as the request has. An error is reported
as `-1`. -/
def CopiesAll (md : Metadata) (size : Nat) (sameFile : Bool) : Prop :=
  match copyCount proc size sameFile md.readOffset md.writeOffset md.writeLen with
  | .ok n => (n : Int) = md.writeLen.toInt
  | .error _ => md.writeLen.toInt = -1

/-- The tree has what `Mirror.Mirror` needs, when it has what `Mirror.Consult` looks for. -/
def Mirror.Keeps (r : Request) : Prop :=
  match r.type, r.metadata with
  | .create, some md =>
    Absent proc s (m.path md.relativePath) → Free proc s true (m.path md.relativePath)
  -- `mkdir` and `symlink` do not follow a link at the end of the path.
  | .mkdir, some md =>
    Absent proc s (m.path md.relativePath) → Free proc s false (m.path md.relativePath)
  | .link, some md | .symlink, some md =>
    (∃ q node, resolve proc s true (m.path md.relativePath) = .ok (.existing q node)) →
      Absent proc s (m.path md.newRelativePath) → Free proc s false (m.path md.newRelativePath)
  | .rename, some md =>
    ∀ q node, resolve proc s true (m.path md.relativePath) = .ok (.existing q node) →
      (Absent proc s (m.path md.newRelativePath) ∨
        ∃ q' node', resolve proc s true (m.path md.newRelativePath) = .ok (.existing q' node') ∧
          node.type = node'.type) →
      Renamable proc s (m.path md.relativePath) (m.path md.newRelativePath)
  | .unlink, some md =>
    (Absent proc s (m.path md.relativePath) ∨
        ∃ q node, resolve proc s true (m.path md.relativePath) = .ok (.existing q node)) →
      Removable proc s (m.path md.relativePath)
  -- Nothing is looked at, not even whether there is metadata.
  | .write, none => False
  | .write, some md =>
    0 ≤ md.writeOffset ∧
      (Writable proc s (m.path md.relativePath) ∨ Free proc s true (m.path md.relativePath))
  | .copyFileRange, some md =>
    ∀ q mode source q' mode' content,
      resolve proc s true (m.path md.relativePath) = .ok (.existing q (.file mode source)) →
      resolve proc s true (m.path md.newRelativePath) = .ok (.existing q' (.file mode' content)) →
      proc.may mayWrite mode' = true →
      proc.may mayRead mode = true ∧ CopiesAll proc md source.length (q = q')
  | _, _ => True

/-- `Mirror.Consult` agrees to the request. -/
def Mirror.Agrees (r : Request) : Prop :=
  ∃ response, m.consult proc s r = .ok (some response) ∧ response.type = .ack

end Keeps

section FileMode

/-- The bits of a file type in an `os.FileMode`. -/
def typeBits : FileType → FileMode
  | .regular => 0
  | .directory => modeDir
  | .symlink => modeSymlink

/-- `&&&` distributes over `|||`. Needed bit by bit for the mode of a node. -/
theorem or_and_distrib (x y z : UInt32) : (x ||| y) &&& z = x &&& z ||| y &&& z := by
  refine UInt32.toBitVec_inj.mp ?_
  ext i hi
  simp [Bool.and_or_distrib_right]

/-- The permission bits are not bits of the type, so the mask of the type takes them all away. -/
theorem permMode_and_modeType (mode : Mode) : fileMode.permMode mode &&& modeType = 0 := by
  have hperm : mode &&& 0o777 &&& modeType = 0 := by
    rw [UInt32.and_assoc]
    exact UInt32.and_zero
  unfold fileMode.permMode
  split_ifs <;> simp only [or_and_distrib, hperm] <;> decide

/-- The type bits of a node are those of its type, whatever its permissions are. `Consult` compares
the types of two paths by these bits, and this turns it into a comparison of types. -/
theorem fileMode_and_modeType (node : Node) : fileMode node &&& modeType = typeBits node.type := by
  cases node with
  | file mode content => exact permMode_and_modeType mode
  | dir mode =>
    show (modeDir ||| fileMode.permMode mode) &&& modeType = modeDir
    rw [or_and_distrib, permMode_and_modeType]
    decide
  | symlink target =>
    show (modeSymlink ||| 0o777) &&& modeType = modeSymlink
    decide

/-- The bits of the type tell the types apart. So `Consult`, which compares the bits, compares
types. -/
theorem typeBits_inj {t t' : FileType} : typeBits t = typeBits t' ↔ t = t' := by
  cases t <;> cases t' <;> decide

/-- `IsRegular` of the mode that `os.Stat` gives is true of regular files, and of nothing else. -/
theorem isRegular_fileMode (node : Node) :
    isRegular (fileMode node) = decide (node.type = .regular) := by
  unfold isRegular
  rw [fileMode_and_modeType]
  cases node.type <;> rfl

end FileMode

section Consult
variable {m : Mirror} {proc : Process} {s : Store} {md : Metadata}

/-- The type of `ack` is `ACK`. The constructor of the response fixes it. -/
@[simp] theorem ack_type : ack.type = .ack := rfl

/-- The type of a `NACK` is never `ACK`, with any error and any text. -/
@[simp] theorem nack_type (e : ResponseError) (text : String) : (nack e text).type = .nack := rfl

/-- What `os.Stat` tells `Mirror.Consult` about a path of a tree. -/
inductive Told (m : Mirror) (proc : Process) (s : Store) (relPath : String) : Stat → Prop
  | found (q : Path) (node : Node)
      (h : resolve proc s true (m.path relPath) = .ok (.existing q node)) :
      Told m proc s relPath (.ok (fileMode node))
  | absent (text : String) (h : Absent proc s (m.path relPath)) :
      Told m proc s relPath (.error ⟨text, true⟩)
  | failed (text : String) (h : ¬ Absent proc s (m.path relPath))
      (hnone : ∀ q node, resolve proc s true (m.path relPath) ≠ .ok (.existing q node)) :
      Told m proc s relPath (.error ⟨text, false⟩)

/-- What `os.Stat` says about a path of the request is one of three things. Everything below goes by
these cases. -/
theorem statOf_told (relPath : String) : Told m proc s relPath (m.statOf proc s relPath) := by
  have h : Looked proc s (m.path relPath) _ := osStat_looked
  unfold Mirror.statOf
  generalize osStat proc s (m.path relPath) = answer at h
  cases h with
  | found q node hfound => exact .found q node hfound
  | absent err habsent herr =>
    simp only [herr, decide_true]
    exact .absent err.text habsent
  | failed err habsent hnone herr =>
    simp only [herr, decide_false]
    exact .failed err.text habsent hnone

/-- `Mirror.exists` says no when `os.Stat` reports that there is nothing, also behind a link without
a target. -/
theorem exists_eq_false {relPath : String} :
    (m.statOf proc s relPath).exists = .ok false ↔ Absent proc s (m.path relPath) := by
  have h : Told m proc s relPath _ := statOf_told relPath
  generalize m.statOf proc s relPath = answer at h
  cases h with
  | found q node hfound => simp [Stat.exists, not_absent hfound]
  | absent text habsent => simp [Stat.exists, habsent]
  | failed text habsent hnone => simp [Stat.exists, habsent]

/-- `Mirror.exists` says yes when `os.Stat` finds something, behind a link at the end of the
path. -/
theorem exists_eq_true {relPath : String} :
    (m.statOf proc s relPath).exists = .ok true ↔
      ∃ q node, resolve proc s true (m.path relPath) = .ok (.existing q node) := by
  have h : Told m proc s relPath _ := statOf_told relPath
  generalize m.statOf proc s relPath = answer at h
  cases h with
  | found q node hfound => simp [Stat.exists, hfound]
  | absent text habsent => simp [Stat.exists, habsent.not_found]
  | failed text habsent hnone => simp [Stat.exists, hnone]

/-- `CREATE`, `MKDIR`: the path must be absent, in the sense of `os.Stat`. A link without a target
counts as absent, and this is one of the cases in which the call fails after the `ACK`. -/
theorem consultCreate_ack :
    (m.answers proc s md).consultCreate.type = .ack ↔ Absent proc s (m.path md.relativePath) := by
  rw [← exists_eq_false]
  unfold Answers.consultCreate Mirror.answers
  split <;> simp_all

/-- `LINK`, `SYMLINK`: the old path must be there and the new one absent. A symbolic link may have
any target for the kernel, so the first condition is one of `Consult` only. -/
theorem consultLink_ack :
    ((m.answers proc s md).consultLink md).type = .ack ↔
      (∃ q node, resolve proc s true (m.path md.relativePath) = .ok (.existing q node)) ∧
        Absent proc s (m.path md.newRelativePath) := by
  rw [← exists_eq_false, ← exists_eq_true]
  unfold Answers.consultLink Mirror.answers
  split
  · simp_all
  · rename_i oldExists hold
    split
    · simp_all
    · rename_i newExists hnew
      cases oldExists <;> cases newExists <;> simp_all

/-- `RENAME`: the new path is absent, or of the same type as the old one. Both are looked at with
`os.Stat`, so behind a link it is the target that counts. -/
theorem consultRename_ack :
    (m.answers proc s md).consultRename.type = .ack ↔
      ∃ q node, resolve proc s true (m.path md.relativePath) = .ok (.existing q node) ∧
        (Absent proc s (m.path md.newRelativePath) ∨
          ∃ q' node', resolve proc s true (m.path md.newRelativePath) = .ok (.existing q' node') ∧
            node.type = node'.type) := by
  have hold : Told m proc s md.relativePath _ := statOf_told md.relativePath
  have hnew : Told m proc s md.newRelativePath _ := statOf_told md.newRelativePath
  unfold Answers.consultRename Mirror.answers
  dsimp only
  generalize m.statOf proc s md.relativePath = old at hold
  generalize m.statOf proc s md.newRelativePath = new at hnew
  cases hold with
  | absent text habsent => simp [StatError.vote, habsent.not_found]
  | failed text habsent hnone => simp [StatError.vote, hnone]
  | found q node hfound =>
    cases hnew with
    | absent text habsent => simp [hfound, habsent]
    | failed text habsent hnone => simp [hfound, habsent, hnone]
    | found q' node' hfound' =>
      have hpresent := not_absent hfound'
      -- The test on the bits of the modes is one on the types.
      simp only [fileMode_and_modeType, typeBits_inj]
      by_cases htype : node.type = node'.type <;> simp [hfound, hfound', hpresent, htype]

/-- The loop of `COPY_FILE_RANGE` goes on with a regular file. Everything else makes it return a
response. -/
theorem consultRegular_eq_none {relPath : String} :
    (m.statOf proc s relPath).consultRegular relPath = none ↔
      ∃ q mode content,
        resolve proc s true (m.path relPath) = .ok (.existing q (.file mode content)) := by
  have h : Told m proc s relPath _ := statOf_told relPath
  generalize m.statOf proc s relPath = answer at h
  cases h with
  | found q node hfound =>
    cases node <;> simp [Stat.consultRegular, isRegular_fileMode, hfound, Node.type]
  | absent text habsent => simp [Stat.consultRegular, habsent.not_found]
  | failed text habsent hnone => simp [Stat.consultRegular, hnone]

/-- No response of the loop is an `ACK`, so an early return is a vote against the request. -/
theorem consultRegular_nack {path : String} {stat : Stat} {response : Response}
    (h : stat.consultRegular path = some response) : response.type = .nack := by
  unfold Stat.consultRegular at h
  split at h
  · cases h
    split <;> rfl
  · split at h <;> cases h
    rfl

/-- `COPY_FILE_RANGE`: both paths are files. Only the destination is tested for its permission, and
neither the offsets nor the length of the source are looked at. -/
theorem consultCopy_ack :
    ((m.answers proc s md).consultCopy md).type = .ack ↔
      ∃ q mode source q' mode' content,
        resolve proc s true (m.path md.relativePath) = .ok (.existing q (.file mode source)) ∧
        resolve proc s true (m.path md.newRelativePath) = .ok (.existing q' (.file mode' content)) ∧
        proc.may mayWrite mode' = true := by
  unfold Answers.consultCopy Mirror.answers
  dsimp only
  cases hold : (m.statOf proc s md.relativePath).consultRegular md.relativePath with
  | some response =>
    have hnone := mt consultRegular_eq_none.mpr (by rw [hold]; simp)
    simp only [consultRegular_nack hold]
    simp_all
  | none =>
    obtain ⟨q, mode, source, hsource⟩ := consultRegular_eq_none.mp hold
    cases hnew : (m.statOf proc s md.newRelativePath).consultRegular md.newRelativePath with
    | some response =>
      have hnone := mt consultRegular_eq_none.mpr (by rw [hnew]; simp)
      simp only [consultRegular_nack hnew]
      simp_all
    | none =>
      obtain ⟨q', mode', content, hcontent⟩ := consultRegular_eq_none.mp hnew
      -- `unix.Access` follows the path that `os.Stat` has just followed.
      have haccess : accessWrite proc s (m.path md.newRelativePath) =
          if proc.may mayWrite mode' then .ok () else .error .eacces := by
        simp [accessWrite, stat_eq_ok.mpr hcontent]
      by_cases hmay : proc.may mayWrite mode' = true <;> simp [haccess, hmay, hsource, hcontent]

end Consult

section Mirror
variable {m : Mirror} {proc : Process}

/-- `Mirror.Mirror` returns what its switch returns. The tree is the one after the edit. -/
theorem mirror_nil_iff {t : Tree} {r : Request} :
    (∃ t', m.mirror proc t (some r) = .ok (t', none)) ↔
      ∃ e, m.change proc t.1 r = .ok (e, none) := by
  cases h : m.change proc t.1 r with
  | error p => simp [Mirror.mirror_of_error h]
  | ok result =>
    obtain ⟨e, err⟩ := result
    simp [Mirror.mirror_of_ok h]

variable {s : Store} {md : Metadata}

/-- A function without an error has made its edit. The functions of `os` either fail and change
nothing, or they succeed. -/
theorem outcome_nil_iff {x : Except OsError Edit} :
    (∃ e, outcome x = (e, none)) ↔ ∃ e, x = .ok e := by
  cases x <;> simp [outcome]

/-- The case of `WRITE`: the offset is not negative, and the path leads to a file that may be
written, or to a place where one can be made. -/
theorem write_nil_iff {content : List UInt8} :
    (∃ e, m.write proc s md content = (e, none)) ↔
      0 ≤ md.writeOffset ∧
        (Writable proc s (m.path md.relativePath) ∨ Free proc s true (m.path md.relativePath)) := by
  have hcall :
      (∃ r, openFile proc s { write := true, create := true, trunc := true } (syscallMode 0)
      (m.path md.relativePath) = .ok r) ↔ _ := openFile_write_ok_iff
  rw [← hcall]
  unfold Mirror.write osOpenFile
  cases hopen : openFile proc s { write := true, create := true, trunc := true } (syscallMode 0)
      (m.path md.relativePath) with
  | error err => simp [hopen, Except.mapError]
  | ok result =>
    obtain ⟨q, e⟩ := result
    -- The file was opened and is empty now. What is left is the offset.
    obtain ⟨mode, rfl⟩ := openFile_write_put hopen
    by_cases hoffset : md.writeOffset < 0
    · simp [hopen, Except.mapError, writeAt, hoffset, Int64.not_le.mpr hoffset]
    · simp [hopen, Except.mapError, writeAt, hoffset, Int64.not_lt.mp hoffset]

/-- The number that `unix.CopyFileRange` returns for two files is the one asked for exactly when the
kernel copies all of the range at once. -/
theorem written_copyFileRange {q q' : Path} {mode mode' : Mode} {source content : List UInt8}
    (hsource : s.get q = some (.file mode source))
    (hcontent : s.get q' = some (.file mode' content)) :
    written (Library.Posix.copyFileRange proc s q q' md.readOffset md.writeOffset md.writeLen) =
        md.writeLen.toInt ↔ CopiesAll proc md source.length (q = q') := by
  unfold Library.Posix.copyFileRange CopiesAll copyContent
  rw [hsource, hcontent]
  dsimp only
  cases copyCount proc source.length (q = q') md.readOffset md.writeOffset md.writeLen with
  | error err => exact eq_comm
  | ok n => exact Iff.rfl

/-- The case of `COPY_FILE_RANGE`, for two files. What `Consult` has left open is whether the source
can be read, and whether the kernel copies all of the range in one call. -/
theorem copyFileRange_nil_iff {q q' : Path} {mode mode' : Mode} {source content : List UInt8}
    (hsource : resolve proc s true (m.path md.relativePath) = .ok (.existing q (.file mode source)))
    (hcontent : resolve proc s true (m.path md.newRelativePath) =
      .ok (.existing q' (.file mode' content)))
    (hmay : proc.may mayWrite mode' = true) :
    (∃ e, m.copyFileRange proc s md = (e, none)) ↔
      proc.may mayRead mode = true ∧ CopiesAll proc md source.length (q = q') := by
  -- Both files are there, so the calls of `open` depend on the permissions only.
  have hsrc : openFile proc s { read := true } 0 (m.path md.relativePath) =
      if proc.may mayRead mode = false then .error .eacces else .ok (q, .keep) := by
    simp [openFile_of_usual, OpenFlags.usual, openPath, OpenFlags.follows, hsource]
  have hdst : openFile proc s { write := true } 0 (m.path md.newRelativePath) =
      .ok (q', .keep) := by
    simp [openFile_of_usual, OpenFlags.usual, openPath, OpenFlags.follows, hcontent, hmay]
  rw [← written_copyFileRange (resolve_sound hsource) (resolve_sound hcontent)]
  unfold Mirror.copyFileRange
  rw [hsrc, hdst]
  cases hread : proc.may mayRead mode with
  | false => simp
  | true => simp

end Mirror

section Cases
variable {m : Mirror} {proc : Process} {s : Store} {r : Request}

/-- `Agrees` is about the response inside the results of `Consult`. This takes it out, for a request
with metadata, so that the cases of the types can be stated with their responses. -/
theorem agrees_iff {md : Metadata} {response : Response} (hmeta : r.metadata = some md)
    (h : (m.answers proc s md).consult r = .ok (some response)) :
    m.Agrees proc s r ↔ response.type = .ack := by
  simp [Mirror.Agrees, Mirror.consult, hmeta, h]

/-- The switch of `Mirror.Mirror` makes one call of `os`, for most types of requests, and returns
its error. -/
theorem change_nil_iff {x : Except OsError Edit} (h : m.change proc s r = .ok (outcome x)) :
    (∃ e, m.change proc s r = .ok (e, none)) ↔ ∃ e, x = .ok e := by
  rw [← outcome_nil_iff, h]
  simp

/-- `UNLINK` of a path that is missing is agreed to, and so is one of a path that is there. Only an
error of `os.Stat` leads to a NACK. -/
theorem agrees_unlink {md : Metadata} (htype : r.type = .unlink) (hmeta : r.metadata = some md) :
    m.Agrees proc s r ↔ Absent proc s (m.path md.relativePath) ∨
      ∃ q node, resolve proc s true (m.path md.relativePath) = .ok (.existing q node) := by
  have h : Told m proc s md.relativePath _ := statOf_told md.relativePath
  simp only [Mirror.Agrees, Mirror.consult, Answers.consult, Mirror.answers, htype, hmeta,
    Option.getD_some]
  generalize m.statOf proc s md.relativePath = answer at h
  cases h with
  | found q node hfound => simp [hfound]
  | absent text habsent => simp [habsent]
  | failed text habsent hnone => simp [habsent, hnone]

/-- `SETATTR` is agreed to when the path is there. Whether the process may change the mode is not
asked. -/
theorem agrees_setattr {md : Metadata} (htype : r.type = .setattr) (hmeta : r.metadata = some md) :
    m.Agrees proc s r ↔
      ∃ q node, resolve proc s true (m.path md.relativePath) = .ok (.existing q node) := by
  have h : Told m proc s md.relativePath _ := statOf_told md.relativePath
  simp only [Mirror.Agrees, Mirror.consult, Answers.consult, Mirror.answers, htype, hmeta,
    Option.getD_some]
  generalize m.statOf proc s md.relativePath = answer at h
  cases h with
  | found q node hfound => simp [hfound]
  | absent text habsent => simp [StatError.vote, habsent.not_found]
  | failed text habsent hnone => simp [StatError.vote, hnone]

end Cases

/-- The `ACK` of `Mirror.Consult` for a request within the limits of the system is kept by
`Mirror.Mirror` on the same tree, exactly when the tree has what the call of the request needs.
`Consult` looks at the paths only, while the call needs permissions, parents and the right types as
well, and `Keeps` lists what is missing for each type of request. -/
theorem ack_kept_iff (m : Mirror) (proc : Process) (limits : Limits) (t : Tree)
    (r : m.FittingRequest limits t.1) :
    (m.Agrees proc t.1 r.1 → ∃ t', m.mirror proc t (some r.1) = .ok (t', none)) ↔
      m.Keeps proc t.1 r.1 := by
  rw [mirror_nil_iff]
  obtain ⟨⟨type, metadata, clock, content⟩, hfits⟩ := r
  cases metadata with
  | none =>
    -- Only `WRITE` does not look at the metadata.
    cases type with
    | write => simp [Mirror.Agrees, Mirror.consult, Answers.consult, Mirror.Keeps, Mirror.change]
    | _ => simp [Mirror.Agrees, Mirror.consult, Answers.consult, Mirror.Keeps]
  | some md =>
    cases type with
    | unrecognized number =>
      simp [Mirror.Agrees, Mirror.consult, Answers.consult, Mirror.Keeps]
    | create =>
      rw [agrees_iff rfl rfl, consultCreate_ack, change_nil_iff rfl, osOpenFile_ok_iff]
      exact imp_congr_right fun habsent => openFile_create_ok_iff habsent
    | mkdir =>
      rw [agrees_iff rfl rfl, consultCreate_ack, change_nil_iff rfl]
      exact imp_congr_right fun _ => mapError_ok_iff.trans makeEntry_ok_iff
    | link | symlink =>
      rw [agrees_iff rfl rfl, consultLink_ack, change_nil_iff rfl, osSymlink_ok_iff]
      exact and_imp
    | rename =>
      rw [agrees_iff rfl rfl, consultRename_ack, change_nil_iff rfl, osRename_ok_iff]
      simp only [Mirror.Keeps, forall_exists_index, and_imp]
    | rmdir =>
      -- No answer to it is an `ACK`.
      refine iff_of_true ?_ trivial
      rintro ⟨response, hr, hack⟩
      simp only [Mirror.consult, Answers.consult] at hr
      split at hr
      · cases hr
      · split at hr
        · cases hr
          cases hack
        · cases hr
    | unlink =>
      rw [agrees_unlink rfl rfl, change_nil_iff rfl, osRemove_ok_iff]
      exact Iff.rfl
    | setattr =>
      refine iff_of_true ?_ trivial
      rw [agrees_setattr rfl rfl, change_nil_iff rfl]
      intro hfound
      exact mapError_ok_iff.mpr (chmod_ok_iff.mpr hfound)
    | write =>
      rw [agrees_iff rfl rfl]
      simp [Mirror.Keeps, Mirror.change, write_nil_iff]
    | copyFileRange =>
      rw [agrees_iff rfl rfl, consultCopy_ack]
      simp only [Mirror.Keeps, Mirror.change, forall_exists_index, and_imp, Except.ok.injEq]
      constructor
      · intro h q mode source q' mode' content hsource hcontent hmay
        have hnil := h q mode source q' mode' content hsource hcontent hmay
        exact (copyFileRange_nil_iff hsource hcontent hmay).mp hnil
      · intro h q mode source q' mode' content hsource hcontent hmay
        have hall := h q mode source q' mode' content hsource hcontent hmay
        exact (copyFileRange_nil_iff hsource hcontent hmay).mpr hall

/-- A link without a target in the mirror, next to a file. -/
def danglingTree : Tree :=
  ((rootTree.add [] "m" (.dir 0o755)).add ["m"] "a" (.file 0o644 [1])).add ["m"] "b"
    (.symlink "/m/c")

/-- A `SYMLINK` from `a` at `b`. -/
def linkRequest : Request :=
  { type := .symlink, metadata := some { relativePath := "a", newRelativePath := "b" } }

/-- The destination is a link without a target. `os.Stat` says that it does not exist, and
`os.Symlink` that it does. The parents of both paths are the mirror directory. -/
theorem ack_not_kept :
    stat someProcess danglingTree.1 ["m"] = .ok (["m"], .dir 0o755) ∧
      someMirror.consult someProcess danglingTree.1 linkRequest = .ok (some ack) ∧
      (someMirror.change someProcess danglingTree.1 linkRequest).map Prod.snd =
        .ok (some "symlink /m/a /m/b: file exists") ∧
      ¬ (someMirror.Agrees someProcess danglingTree.1 linkRequest →
        ∃ t', someMirror.mirror someProcess danglingTree (some linkRequest) = .ok (t', none)) := by
  have hack : someMirror.consult someProcess danglingTree.1 linkRequest = .ok (some ack) :=
    by decide
  refine ⟨by decide, hack, by decide, ?_⟩
  intro hkept
  -- If the promise were kept, `Mirror` would return nil here.
  obtain ⟨e, he⟩ := mirror_nil_iff.mp (hkept ⟨ack, hack, rfl⟩)
  have hfail : (someMirror.change someProcess danglingTree.1 linkRequest).map Prod.snd =
      .ok (some "symlink /m/a /m/b: file exists") := by decide
  rw [he] at hfail
  cases hfail

-- A slash after the target of a link is another reason. `os.Stat` finds nothing behind the link,
-- and nothing can be made there that is not a directory.
example :
    let t := (rootTree.add [] "m" (.dir 0o755)).add ["m"] "b" (.symlink "c/")
    let r : Request := { type := .create, metadata := some { relativePath := "b", mode := 0o644 } }
    someMirror.consult someProcess t.1 r = .ok (some ack) ∧
      ((someMirror.change someProcess t.1 r).map fun result => result.2.isSome) = .ok true := by
  decide

end ReplicatedFs
