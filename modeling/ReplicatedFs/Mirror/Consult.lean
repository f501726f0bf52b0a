import ReplicatedFs.Mirror.Mirror

/-!
# `ReplicatedFs.Mirror.Consult`: `Mirror.Consult` on any answers of the system

`Mirror.Consult` of `mirror/mirror.go` is a function of what `os.Stat` and `syscall.Access` answer
(`Answers.consult`). The answers need not fit together: the directory may change between two calls,
a file may be of any type, and a call may fail with any error. A `FileInfo` is its `os.FileMode`,
since nothing else of it is read.

`Mirror.answers` are the answers on a tree that does not change, and `Mirror.consult` is the same
function on them.
-/

set_option autoImplicit false

namespace ReplicatedFs

open Library.Posix Protobuf

/-- An error of `os.Stat`. `notExist` is what `errors.Is` says about `os.ErrNotExist`. -/
structure StatError where
  text : String
  notExist : Bool
  deriving DecidableEq, Repr

/-- `os.FileMode`. -/
abbrev FileMode := UInt32

/-- `os.ModeDir`. -/
def modeDir : FileMode := 0x80000000

/-- `os.ModeSymlink`. -/
def modeSymlink : FileMode := 0x8000000

/-- `os.ModeType`. -/
def modeType : FileMode := 0x8f280000

/-- `IsDir`. -/
def isDir (mode : FileMode) : Bool := mode &&& modeDir ≠ 0

/-- `IsRegular`. -/
def isRegular (mode : FileMode) : Bool := mode &&& modeType = 0

/-- What `os.Stat` returns. -/
abbrev Stat := Except StatError FileMode

/-- What the calls of one `Mirror.Consult` return: `os.Stat` for the first path and for the second
one, and the error of `syscall.Access`. A call that is not made is not read. -/
structure Answers where
  first : Stat
  second : Stat
  access : Option String
  deriving DecidableEq, Repr

/-- `Mirror.exists`. -/
def Stat.exists : Stat → Except StatError Bool
  | .ok _ => .ok true
  | .error err => if err.notExist then .ok false else .error err

/-- The vote of a failed `os.Stat`. -/
def StatError.vote (err : StatError) : Response :=
  nack (if err.notExist then .doesNotExist else .unknown) err.text

section Cases
variable (a : Answers)

/-- The case of `LINK` and `SYMLINK`. -/
def Answers.consultLink (md : Metadata) : Response :=
  match a.first.exists with
  | .error err => nack .unknown err.text
  | .ok oldExists =>
    match a.second.exists with
    | .error err => nack .unknown err.text
    | .ok newExists =>
      if !oldExists then
        nack .doesNotExist ("symlink source: " ++ md.relativePath ++ " does not exist")
      else if newExists then
        nack .alreadyExists ("symlink destination: " ++ md.newRelativePath ++ " already exist")
      else ack

/-- The case of `CREATE` and `MKDIR`. -/
def Answers.consultCreate : Response :=
  match a.first.exists with
  | .error err => nack .unknown err.text
  | .ok true => nack .alreadyExists "dir/file already exists"
  | .ok false => ack

/-- The case of `RENAME`. -/
def Answers.consultRename : Response :=
  match a.first with
  | .error err => err.vote
  | .ok old =>
    match a.second with
    | .error err => if err.notExist then ack else nack .unknown err.text
    | .ok new =>
      if old &&& modeType = new &&& modeType then ack
      else nack .invalidMode "file types of old and new filename don't match"

/-- One turn of the loop of `COPY_FILE_RANGE`, `none` when it goes on. -/
def Stat.consultRegular (path : String) : Stat → Option Response
  | .error err =>
    some (if err.notExist then nack .doesNotExist (path ++ " does not exist")
      else nack .unknown err.text)
  | .ok mode =>
    if isRegular mode then none else some (nack .notAFile (path ++ " is not a regular file"))

/-- The case of `COPY_FILE_RANGE`. The flags that are given to `access` ask for write access
only. -/
def Answers.consultCopy (md : Metadata) : Response :=
  match a.first.consultRegular md.relativePath with
  | some response => response
  | none =>
    match a.second.consultRegular md.newRelativePath with
    | some response => response
    | none =>
      match a.access with
      | some text =>
        nack .invalidMode ("expected to have read-write access to the destination file: " ++ text)
      | none => ack

/-- `Mirror.Consult`. -/
def Answers.consult (r : Request) : Except Panic (Option Response) :=
  match r.type, r.metadata with
  | .unrecognized _, _ => .error .logPanic
  | .write, _ => .ok (some ack)
  | _, none => .error .nilDereference
  | .link, some md | .symlink, some md => .ok (some (a.consultLink md))
  | .create, some _ | .mkdir, some _ => .ok (some a.consultCreate)
  | .rename, some _ => .ok (some a.consultRename)
  | .rmdir, some _ =>
    match a.first with
    -- The test for a directory is inside the branch of the error, so it is not made here.
    | .ok _ => .ok none
    | .error err =>
      if err.notExist then .ok (some (nack .doesNotExist err.text))
      -- `pathInfo` is nil.
      else .error .nilDereference
  | .setattr, some _ =>
    match a.first with
    | .ok _ => .ok (some ack)
    | .error err => .ok (some err.vote)
  | .unlink, some _ =>
    match a.first with
    | .ok _ => .ok (some ack)
    | .error err => .ok (some (if err.notExist then ack else nack .unknown err.text))
  | .copyFileRange, some md => .ok (some (a.consultCopy md))

end Cases

/-- `fillFileStatFromSys`: the `os.FileMode` of a node. -/
def fileMode : Node → FileMode
  | .file mode _ => permMode mode
  | .dir mode => modeDir ||| permMode mode
  | .symlink _ => modeSymlink ||| 0o777
where
  /-- The mode bits of `stat`, with set-uid, set-gid and sticky at the places of Go. -/
  permMode (mode : Mode) : FileMode :=
    (mode &&& 0o777) |||
      (if mode &&& 0o4000 ≠ 0 then 0x800000 else 0) |||
      (if mode &&& 0o2000 ≠ 0 then 0x400000 else 0) |||
      (if mode &&& 0o1000 ≠ 0 then 0x100000 else 0)

/-- What `os.Stat` returns for a path of a tree. -/
def Mirror.statOf (m : Mirror) (proc : Process) (s : Store) (relPath : String) : Stat :=
  match osStat proc s (m.path relPath) with
  | .ok (_, node) => .ok (fileMode node)
  | .error err => .error ⟨err.text, err.errno = .enoent⟩

/-- The answers on a tree. -/
def Mirror.answers (m : Mirror) (proc : Process) (s : Store) (md : Metadata) : Answers where
  first := m.statOf proc s md.relativePath
  second := m.statOf proc s md.newRelativePath
  access :=
    match accessWrite proc s (m.path md.newRelativePath) with
    | .ok () => none
    | .error err => some err.text

/-- `Mirror.Consult` on a tree. Without metadata no path is looked at, so it does not matter which
answers there are. -/
def Mirror.consult (m : Mirror) (proc : Process) (s : Store) (r : Request) :
    Except Panic (Option Response) :=
  (m.answers proc s (r.metadata.getD { relativePath := "" })).consult r

end ReplicatedFs
