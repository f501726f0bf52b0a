import ReplicatedFs.Library.Posix.Locality

/-!
# `ReplicatedFs.Library.Posix.Os`: the `os` package of Go on Linux

The functions of `os` that change a tree, in terms of the system calls they make. Each one gives
the `Edit` of its calls, or an `OsError` with the text that Go prints. A failed function leaves
the tree as it is. `join` is `filepath.Join`, which works on the text of a path only.

* `osRename_allowed` and the like: the edit is allowed.
* `osRename_congr`, `osRename_at` and the like: without symbolic links on its path, a function
  depends on what is around the path and changes what is at it.
-/

set_option autoImplicit false

namespace Library.Posix

/-- `PathError` and `LinkError`. -/
inductive OsError
  | path (op : String) (path : Path) (err : Errno)
  | link (op old : String) (new : Path) (err : Errno)
  deriving DecidableEq, Repr

/-- `Error`. -/
def OsError.text : OsError → String
  | .path op p err => op ++ " " ++ pathText p ++ ": " ++ err.text
  | .link op old new err => op ++ " " ++ old ++ " " ++ pathText new ++ ": " ++ err.text

/-- The `errno` of the failed call. -/
def OsError.errno : OsError → Errno
  | .path _ _ err => err
  | .link _ _ _ err => err

/-- `syscallMode`: the permission bits of an `os.FileMode`, with its set-uid, set-gid and sticky
bits at the places where the kernel has them. -/
def syscallMode (mode : UInt32) : Mode :=
  (mode &&& 0o777) |||
    (if mode &&& 0x800000 ≠ 0 then 0o4000 else 0) |||
    (if mode &&& 0x400000 ≠ 0 then 0o2000 else 0) |||
    (if mode &&& 0x100000 ≠ 0 then 0o1000 else 0)

/-- One name of `filepath.Clean`. A relative path keeps the `..` that it starts with. -/
def cleanName (rooted : Bool) (p : Path) (name : Name) : Path :=
  if name = "." then p
  else if name = ".." then
    if p = [] ∨ p.getLast? = some ".." then (if rooted then p else p ++ [".."]) else p.dropLast
  else p ++ [name]

/-- `filepath.Join`. -/
def join (elems : List String) : String :=
  match elems.filter (· ≠ "") with
  | [] => ""
  | elem :: rest =>
    let rooted : Bool := elem.toList.head? = some '/'
    let names := ((elem :: rest).flatMap components).foldl (cleanName rooted) []
    if rooted then pathText names
    else if names = [] then "."
    else String.intercalate "/" names

section Functions
variable (proc : Process) (s : Store)

/-- `os.OpenFile`. -/
def osOpenFile (flags : OpenFlags) (mode : UInt32) (p : Path) : Except OsError (Path × Edit) :=
  (openFile proc s flags (syscallMode mode) p).mapError (.path "open" p)

/-- `os.Mkdir`. -/
def osMkdir (mode : UInt32) (p : Path) : Except OsError Edit :=
  (mkdir proc s (syscallMode mode) p).mapError (.path "mkdir" p)

/-- `os.Symlink`. -/
def osSymlink (target : String) (p : Path) : Except OsError Edit :=
  (symlink proc s target p).mapError (.link "symlink" target p)

/-- `os.Chmod`. -/
def osChmod (mode : UInt32) (p : Path) : Except OsError Edit :=
  (chmod proc s (syscallMode mode) p).mapError (.path "chmod" p)

/-- `os.Stat`. -/
def osStat (p : Path) : Except OsError (Path × Node) :=
  (stat proc s p).mapError (.path "stat" p)

/-- `os.Remove`: `unlink`, and `rmdir` when that fails. The error is the one of `rmdir`, unless
the path is not a directory. -/
def osRemove (p : Path) : Except OsError Edit :=
  match unlink proc s p with
  | .ok e => .ok e
  | .error err =>
    match rmdir proc s p with
    | .ok e => .ok e
    | .error err' => .error (.path "remove" p (if err' = .enotdir then err else err'))

/-- The test of `os.Rename` before its call: it does not replace a directory. A directory under
two texts is not replaced by itself. -/
def renameTarget (old new : Path) : Except Errno Unit :=
  match lstat proc s new with
  | .ok (n, .dir _) =>
    match lstat proc s old with
    | .error e => .error e
    | .ok (o, _) => if new = old ∨ n ≠ o then .error .eexist else .ok ()
  | _ => .ok ()

/-- `os.Rename`. -/
def osRename (old new : Path) : Except OsError Edit :=
  match renameTarget proc s old new with
  | .error e => .error (.link "rename" (pathText old) new e)
  | .ok () => (rename proc s old new).mapError (.link "rename" (pathText old) new)

end Functions

/-- A call with a result did not fail, whatever its errors are turned into. -/
theorem ok_of_mapError {ε ε' α : Type} {f : ε → ε'} {call : Except ε α} {result : α}
    (h : call.mapError f = .ok result) : call = .ok result := by
  cases call with
  | error err => cases h
  | ok value =>
    cases h
    rfl

/-- The edit of an opened file is the one of `open`. Only the error is wrapped. -/
theorem osOpenFile_snd_eq_ok {proc : Process} {s : Store} {flags : OpenFlags} {mode : UInt32}
    {p : Path} {e : Edit} (h : (osOpenFile proc s flags mode p).map Prod.snd = .ok e) :
    ∃ q, openFile proc s flags (syscallMode mode) p = .ok (q, e) := by
  unfold osOpenFile at h
  cases hopen : openFile proc s flags (syscallMode mode) p with
  | error err =>
    rw [hopen] at h
    cases h
  | ok result =>
    rw [hopen] at h
    cases h
    exact ⟨result.1, rfl⟩

section Allowed
variable {proc : Process} {s : Store} (hs : s.IsTree)
include hs

/-- Each of the two calls that `os.Remove` tries is allowed, so the edit leaves a tree. -/
theorem osRemove_allowed {p : Path} {e : Edit} (h : osRemove proc s p = .ok e) :
    e.Allowed s := by
  unfold osRemove at h
  split at h
  · rename_i e' he'
    cases h
    exact unlink_allowed hs he'
  · split at h
    · rename_i e' he'
      cases h
      exact rmdir_allowed he'
    · cases h

/-- The test that `os.Rename` makes first changes nothing, so the edit is that of `rename`. -/
theorem osRename_allowed {old new : Path} {e : Edit} (h : osRename proc s old new = .ok e) :
    e.Allowed s := by
  unfold osRename at h
  split at h
  · cases h
  · exact rename_allowed hs (ok_of_mapError h)

end Allowed

section Locality
variable {proc : Process} {s s' : Store} {p : Path} (hnormal : Normal p)
  (hplain : s.Plain false p)
include hnormal hplain

/-- `os.Remove` depends on the nodes around its path only: on the entry, the directories above it
and what is below it. -/
theorem osRemove_congr (heq : Set.EqOn s.get s'.get (around p)) :
    osRemove proc s p = osRemove proc s' p := by
  unfold osRemove
  rw [unlink_congr hnormal hplain heq, rmdir_congr hnormal hplain heq]

/-- On a path that no symbolic link leads away from, `os.Remove` deletes that path and no other. -/
theorem osRemove_at {e : Edit} (h : osRemove proc s p = .ok e) : e = .delete p := by
  unfold osRemove at h
  split at h
  · rename_i e' he'
    cases h
    exact unlink_at hnormal hplain he'
  · split at h
    · rename_i e' he'
      cases h
      exact rmdir_at hnormal hplain he'
    · cases h

end Locality

section Rename
variable {proc : Process} {s s' : Store} {old new : Path} (hold : Normal old)
  (hpold : s.Plain false old) (hnew : Normal new) (hpnew : s.Plain false new)
include hold hpold hnew hpnew

/-- `os.Rename` depends on the nodes around its two paths only, and so does the test that it makes
first. -/
theorem osRename_congr (heq : Set.EqOn s.get s'.get (around old))
    (heq' : Set.EqOn s.get s'.get (around new)) :
    osRename proc s old new = osRename proc s' old new := by
  unfold osRename renameTarget
  rw [lstat_congr hold hpold heq, lstat_congr hnew hpnew heq',
    rename_congr hold hpold hnew hpnew heq heq']

/-- On such paths `os.Rename` moves the one to the other. It changes nothing when they are the
same. -/
theorem osRename_at {e : Edit} (h : osRename proc s old new = .ok e) :
    e = .keep ∨ e = .move old new := by
  unfold osRename at h
  split at h
  · cases h
  · exact rename_at hold hpold hnew hpnew (ok_of_mapError h)

end Rename

end Library.Posix
