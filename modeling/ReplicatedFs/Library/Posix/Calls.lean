import ReplicatedFs.Library.Posix.Tree

/-!
# `ReplicatedFs.Library.Posix.Calls`: system calls on a directory tree

The calls of one process that owns all nodes. A call resolves its path, checks what it needs and
answers with the `Edit` it makes, or with an error and no edit. There are no hard links, no other
owners and no I/O errors. Times are not part of the tree.

`resolve` follows the names from the root. It expands a symbolic link in the middle of the path,
and at its end when the call follows links, at most forty times. A target that ends with a slash
has to be a directory. The lengths of names, paths and files are not limited.

* `resolve_sound`: what it finds is in the store.
* `openFile_eq_ok` and the like: what a call does when it succeeds.
* `openFile_allowed` and the like: the edit of a call is allowed, so a call leads from a tree to
  a tree.
-/

set_option autoImplicit false

namespace Library.Posix

/-- The errors of the calls. -/
inductive Errno
  | eperm
  | enoent
  | eacces
  | ebusy
  | eexist
  | enotdir
  | eisdir
  | einval
  | enotempty
  | eloop
  | eoverflow
  | ebadf
  | enodata
  | eopnotsupp
  | ecanceled
  | etimedout
  | ehostdown
  deriving DecidableEq, Repr

/-- The text of an error. -/
def Errno.text : Errno → String
  | .eperm => "operation not permitted"
  | .enoent => "no such file or directory"
  | .eacces => "permission denied"
  | .ebusy => "device or resource busy"
  | .eexist => "file exists"
  | .enotdir => "not a directory"
  | .eisdir => "is a directory"
  | .einval => "invalid argument"
  | .enotempty => "directory not empty"
  | .eloop => "too many levels of symbolic links"
  | .eoverflow => "value too large for defined data type"
  | .ebadf => "bad file descriptor"
  | .enodata => "no data available"
  | .eopnotsupp => "operation not supported"
  | .ecanceled => "operation canceled"
  | .etimedout => "connection timed out"
  | .ehostdown => "host is down"

/-- The process that makes the calls. A privileged one passes every permission check. `copied`
is how many of the available bytes one `copy_file_range` copies. -/
structure Process where
  umask : Mode
  privileged : Bool := false
  copied : Nat → Nat := id
  copied_le : ∀ n, copied n ≤ n := by simp
  copied_pos : ∀ n, 0 < n → 0 < copied n := by simp

/-- The permission bits of the owner. -/
def mayRead : Mode := 0o400

def mayWrite : Mode := 0o200

def maySearch : Mode := 0o100

/-- The process has the permission on a node with the mode. -/
def Process.may (proc : Process) (bit mode : Mode) : Bool := proc.privileged || mode &&& bit ≠ 0

/-- The names of a path, without empty ones. -/
def components (text : String) : List Name :=
  ((text.toList.splitOn '/').map String.ofList).filter (· ≠ "")

/-- The text of an absolute path. -/
def pathText (p : Path) : String := "/" ++ String.intercalate "/" p

/-- Where a path leads. -/
inductive Found
  | existing (path : Path) (node : Node)
  | missing (parent : Path) (name : Name)
  deriving DecidableEq, Repr

/-- The end of a path that goes on with a slash after its last name has to be a directory. For a
call with `O_CREAT` Linux reports both failures as `EISDIR`. -/
def Found.after (slash : Bool) : Found → Except Errno Found
  | .existing q node =>
    if slash ∧ node.type ≠ .directory then .error .enotdir else .ok (.existing q node)
  | .missing parent name => if slash then .error .enoent else .ok (.missing parent name)

section Resolution
variable (proc : Process) (s : Store)

/-- Follows the names from the directory `cur`. `onLink` goes on with the target of a symbolic link.
It is a parameter, so that the recursion here is on the names, and the one through the links is
counted by `walk`. -/
def walkFrom (follow : Bool) (onLink : Path → List Name → Except Errno Found) :
    Path → List Name → Except Errno Found
  | cur, [] =>
    match s.get cur with
    | some node => .ok (.existing cur node)
    | none => .error .enoent
  | cur, name :: rest =>
    match s.get cur with
    | some (.dir mode) =>
      if proc.may maySearch mode = false then .error .eacces
      else if name = "." then walkFrom follow onLink cur rest
      -- The parent of the root is the root.
      else if name = ".." then walkFrom follow onLink cur.dropLast rest
      else match s.get (cur ++ [name]) with
        | none => if rest = [] then .ok (.missing cur name) else .error .enoent
        | some (.symlink target) =>
          if rest = [] ∧ follow = false then
            .ok (.existing (cur ++ [name]) (.symlink target))
          -- A trailing slash of the target counts only at the end of the path.
          else (onLink (if target.toList.head? = some '/' then [] else cur)
            (components target ++ rest)).bind
              (Found.after (rest = [] ∧ target.toList.getLast? = some '/'))
        | some _ => walkFrom follow onLink (cur ++ [name]) rest
    | some _ => .error .enotdir
    | none => .error .enoent

/-- Follows the names through at most `links` symbolic links. -/
def walk (follow : Bool) : Nat → Path → List Name → Except Errno Found
  | 0 => walkFrom proc s follow fun _ _ => .error .eloop
  | links + 1 => walkFrom proc s follow (walk follow links)

/-- Where an absolute path leads. -/
def resolve (follow : Bool) (p : Path) : Except Errno Found := walk proc s follow 40 [] p

/-- The process may change the entries of the directory. -/
def Process.mayChange (p : Path) : Bool :=
  match s.get p with
  | some (.dir mode) => proc.may mayWrite mode
  | _ => false

end Resolution

/-- The flags of `open` that decide what it does. -/
structure OpenFlags where
  read : Bool := false
  write : Bool := false
  create : Bool := false
  excl : Bool := false
  trunc : Bool := false
  nofollow : Bool := false
  directory : Bool := false
  path : Bool := false
  tmpfile : Bool := false
  deriving DecidableEq, Repr

/-- The flags of `open` from their bits. What is not listed here (`O_APPEND`, `O_NONBLOCK`,
`O_CLOEXEC` and the like) has no part in whether `open` succeeds and what it does to the tree. -/
def OpenFlags.ofBits (bits : UInt32) : OpenFlags where
  read := bits &&& 0o3 ≠ 0o1
  write := bits &&& 0o3 ≠ 0
  create := bits &&& 0o100 ≠ 0
  excl := bits &&& 0o200 ≠ 0
  trunc := bits &&& 0o1000 ≠ 0
  directory := bits &&& 0o200000 ≠ 0
  nofollow := bits &&& 0o400000 ≠ 0
  path := bits &&& 0o10000000 ≠ 0
  tmpfile := bits &&& 0o20000000 ≠ 0

/-- The flags that `open` goes by, or its refusal of the combination. `O_PATH` puts all flags out
of force but two. `O_CREAT` and `O_DIRECTORY` exclude each other. The file system has no files
without a name, which is what `O_TMPFILE` asks for. -/
def OpenFlags.effective (flags : OpenFlags) : Except Errno OpenFlags :=
  if flags.path then
    .ok { path := true, nofollow := flags.nofollow, directory := flags.directory }
  else if flags.create && flags.directory then .error .einval
  else if flags.tmpfile then
    .error (if flags.directory && flags.write then .eopnotsupp else .einval)
  else .ok flags

/-- None of the flags that put others out of force, or that make `open` refuse the others. -/
def OpenFlags.usual (flags : OpenFlags) : Bool :=
  !(flags.path || flags.directory || flags.tmpfile)

/-- A link at the end of the path is followed. -/
def OpenFlags.follows (flags : OpenFlags) : Bool :=
  !flags.nofollow && !(flags.create && flags.excl && !flags.path)

section Calls
variable (proc : Process) (s : Store)

/-- `open` with flags that are in force. It truncates a file also when it is opened for reading,
as Linux does. -/
def openPath (flags : OpenFlags) (mode : Mode) (p : Path) : Except Errno (Path × Edit) :=
  match resolve proc s flags.follows p with
  | .error e => .error e
  | .ok (.existing q node) =>
    if flags.create && flags.excl then .error .eexist
    else if flags.directory && node.type ≠ .directory then .error .enotdir
    else match node with
      -- With `O_PATH` the link itself can be opened.
      | .symlink _ => if flags.path then .ok (q, .keep) else .error .eloop
      | .dir m =>
        if flags.write || flags.create || flags.trunc then .error .eisdir
        else if flags.read && !proc.may mayRead m then .error .eacces
        else .ok (q, .keep)
      | .file m _ =>
        if flags.read && !proc.may mayRead m then .error .eacces
        else if (flags.write || flags.trunc) && !proc.may mayWrite m then .error .eacces
        else .ok (q, if flags.trunc then .put q (.file m []) else .keep)
  | .ok (.missing parent name) =>
    if !flags.create then .error .enoent
    else if proc.mayChange s parent then
      .ok (parent ++ [name],
        .put (parent ++ [name]) (.file (mode &&& 0o7777 &&& ~~~proc.umask) []))
    else .error .eacces

/-- `open`, with the path of the file it opens. -/
def openFile (flags : OpenFlags) (mode : Mode) (p : Path) : Except Errno (Path × Edit) :=
  flags.effective.bind fun flags => openPath proc s flags mode p

/-- A call that makes a new entry. -/
def makeEntry (node : Node) (p : Path) : Except Errno Edit :=
  match resolve proc s false p with
  | .error e => .error e
  | .ok (.existing _ _) => .error .eexist
  | .ok (.missing parent name) =>
    if proc.mayChange s parent then .ok (.put (parent ++ [name]) node) else .error .eacces

/-- `mkdir`. The set-gid bit, which Linux copies from a parent that has it, is left out: there are
no groups here. -/
def mkdir (mode : Mode) (p : Path) : Except Errno Edit :=
  makeEntry proc s (.dir (mode &&& 0o1777 &&& ~~~proc.umask)) p

/-- `symlink`. -/
def symlink (target : String) (p : Path) : Except Errno Edit :=
  if target = "" then .error .enoent else makeEntry proc s (.symlink target) p

/-- The entry can be taken out of its directory. -/
def removeEntry (q : Path) : Except Errno Edit :=
  if q = [] then .error .ebusy
  else if proc.mayChange s q.dropLast then .ok (.delete q)
  else .error .eacces

/-- `unlink`. -/
def unlink (p : Path) : Except Errno Edit :=
  match resolve proc s false p with
  | .error e => .error e
  | .ok (.missing _ _) => .error .enoent
  | .ok (.existing _ (.dir _)) => .error .eisdir
  | .ok (.existing q _) => removeEntry proc s q

/-- `rmdir`. -/
def rmdir (p : Path) : Except Errno Edit :=
  match resolve proc s false p with
  | .error e => .error e
  | .ok (.missing _ _) => .error .enoent
  | .ok (.existing q (.dir _)) =>
    if s.isLeaf q then removeEntry proc s q else .error .enotempty
  | .ok (.existing _ _) => .error .enotdir

/-- The node can take the place of what is at `new`. -/
def replaceable (node : Node) (new : Path) : Node → Except Errno Unit
  | .dir _ =>
    match node with
    | .dir _ => if s.isLeaf new then .ok () else .error .enotempty
    | _ => .error .eisdir
  | _ =>
    match node with
    | .dir _ => .error .enotdir
    | _ => .ok ()

/-- `rename`, once both paths are resolved. A directory that changes its parent has to be
writable itself. -/
def moveEntry (old new : Path) (node : Node) : Except Errno Edit :=
  if old = [] then .error .ebusy
  else if old <+: new then .error .einval
  else if proc.mayChange s old.dropLast = false ∨ proc.mayChange s new.dropLast = false then
    .error .eacces
  else match node with
    | .dir m =>
      if old.dropLast ≠ new.dropLast ∧ proc.may mayWrite m = false then .error .eacces
      else .ok (.move old new)
    | _ => .ok (.move old new)

/-- `rename`. -/
def rename (old new : Path) : Except Errno Edit :=
  match resolve proc s false old with
  | .error e => .error e
  | .ok (.missing _ _) => .error .enoent
  | .ok (.existing o node) =>
    match resolve proc s false new with
    | .error e => .error e
    | .ok (.missing parent name) => moveEntry proc s o (parent ++ [name]) node
    | .ok (.existing n node') =>
      if o = n then .ok .keep
      else match replaceable s node n node' with
        | .error e => .error e
        | .ok () => moveEntry proc s o n node

/-- The node with another mode. -/
def Node.withMode (mode : Mode) : Node → Node
  | .file _ content => .file mode content
  | .dir _ => .dir mode
  | .symlink target => .symlink target

/-- `chmod`. -/
def chmod (mode : Mode) (p : Path) : Except Errno Edit :=
  match resolve proc s true p with
  | .error e => .error e
  | .ok (.missing _ _) => .error .enoent
  | .ok (.existing q node) => .ok (.put q (node.withMode (mode &&& 0o7777)))

/-- The node at the end of the path. Its own path stands for its device and inode. -/
def statAt (follow : Bool) (p : Path) : Except Errno (Path × Node) :=
  match resolve proc s follow p with
  | .error e => .error e
  | .ok (.missing _ _) => .error .enoent
  | .ok (.existing q node) => .ok (q, node)

/-- `stat`. -/
def stat (p : Path) : Except Errno (Path × Node) := statAt proc s true p

/-- `lstat`. -/
def lstat (p : Path) : Except Errno (Path × Node) := statAt proc s false p

/-- `access` with `W_OK`. -/
def accessWrite (p : Path) : Except Errno Unit :=
  match stat proc s p with
  | .error e => .error e
  | .ok (_, .file mode _) | .ok (_, .dir mode) =>
    if proc.may mayWrite mode then .ok () else .error .eacces
  | .ok (_, .symlink _) => .ok ()

end Calls

/-- The content after `pwrite`. A gap before the offset is filled with zeros. Writing no byte
changes nothing. -/
def overwrite (content data : List UInt8) (offset : Nat) : List UInt8 :=
  if data = [] then content
  else (content ++ List.replicate (offset - content.length) 0).take offset ++ data ++
    content.drop (offset + data.length)

/-- How many bytes `copy_file_range` copies from a file with `size` bytes. The length is unsigned
to the kernel, and the offsets are checked after it was cut off at the end of the file. -/
def copyCount (proc : Process) (size : Nat) (sameFile : Bool) (readOff writeOff len : Int64) :
    Except Errno Nat :=
  let count := len.toUInt64.toNat
  if UInt64.size ≤ readOff.toUInt64.toNat + count ∨
      UInt64.size ≤ writeOff.toUInt64.toNat + count then
    .error .eoverflow
  else
    let r := readOff.toInt
    let w := writeOff.toInt
    let available : Int := if size ≤ r then 0 else min count (size - r)
    if sameFile ∧ r < w + available ∧ w < r + available then .error .einval
    else if r < 0 ∨ w < 0 then .error .einval
    else .ok (proc.copied available.toNat)

/-- `copy_file_range` from one content into another one, with the number of bytes. -/
def copyContent (proc : Process) (sameFile : Bool) (readOff writeOff len : Int64)
    (source content : List UInt8) : Except Errno (Nat × List UInt8) :=
  (copyCount proc source.length sameFile readOff writeOff len).map fun n =>
    (n, overwrite content ((source.drop readOff.toInt.toNat).take n) writeOff.toInt.toNat)

/-- `copy_file_range` between two opened paths, with the number of bytes. -/
def copyFileRange (proc : Process) (s : Store) (src dst : Path)
    (readOff writeOff len : Int64) : Except Errno (Nat × Edit) :=
  match s.get src, s.get dst with
  | some (.file _ source), some (.file m content) =>
    match copyContent proc (src = dst) readOff writeOff len source content with
    | .error e => .error e
    | .ok (n, content') => .ok (n, .put dst (.file m content'))
  | _, _ => .error .eisdir

section Sound
variable {proc : Process} {s : Store}

/-- A slash at the end leads nowhere else. It can only make a walk fail. -/
theorem ok_of_bind_after {slash : Bool} {x : Except Errno Found} {f : Found}
    (h : x.bind (Found.after slash) = .ok f) : x = .ok f := by
  cases x with
  | error e => cases h
  | ok f' =>
    obtain rfl : f' = f := by
      cases f' <;> (simp only [Except.bind, Found.after] at h; split at h <;> cases h; rfl)
    rfl

/-- A path without a trailing slash may end at anything, and the walk reports what it finds as it
is. -/
@[simp] theorem bind_after_false (x : Except Errno Found) : x.bind (Found.after false) = x := by
  cases x with
  | error e => rfl
  | ok f => cases f <;> simp [Except.bind, Found.after]

/-- What is found is in the store. -/
def Found.Sound (s : Store) : Found → Prop
  | .existing q node => s.get q = some node
  | .missing parent name => s.IsDir parent ∧ s.get (parent ++ [name]) = none

/-- How a walk from the directory `cur` comes to its end `f`. `onward` is the walk along the other
names. -/
inductive WalkStep (s : Store) (follow : Bool)
    (onLink onward : Path → List Name → Except Errno Found) (cur : Path) (name : Name)
    (rest : List Name) (f : Found) : Prop
  | dot (hname : name = ".") (h : onward cur rest = .ok f)
  | dotdot (hname : name = "..") (h : onward cur.dropLast rest = .ok f)
  -- Only the last name of a path may be missing.
  | missing (hdir : s.IsDir cur) (hnone : s.get (cur ++ [name]) = none) (hrest : rest = [])
      (hf : f = .missing cur name)
  | link (target : String) (hlink : s.get (cur ++ [name]) = some (.symlink target))
      (hend : rest = [] ∧ follow = false) (hf : f = .existing (cur ++ [name]) (.symlink target))
  | followed (target : String) (hlink : s.get (cur ++ [name]) = some (.symlink target))
      (hmore : ¬ (rest = [] ∧ follow = false))
      (h : onLink (if target.toList.head? = some '/' then [] else cur) (components target ++ rest) =
        .ok f)
  | entry (h : onward (cur ++ [name]) rest = .ok f)

/-- A walk that succeeds passes each name by one of the ways of `WalkStep`. The proofs about walks
go by this, and not by the tests that `walkFrom` makes. -/
theorem walkFrom_cons {follow : Bool} {onLink : Path → List Name → Except Errno Found}
    {cur : Path} {name : Name} {rest : List Name} {f : Found}
    (h : walkFrom proc s follow onLink cur (name :: rest) = .ok f) :
    WalkStep s follow onLink (walkFrom proc s follow onLink) cur name rest f := by
  unfold walkFrom at h
  split at h
  · rename_i mode hmode
    split at h
    · cases h
    split at h
    · exact .dot ‹_› h
    split at h
    · exact .dotdot ‹_› h
    split at h
    · split at h
      · cases h
        exact .missing ⟨mode, hmode⟩ ‹_› ‹_› rfl
      · cases h
    · -- A link at the end of the path is the object itself, unless it is to be followed.
      rename_i target htarget
      split at h
      · cases h
        exact .link target htarget ‹_› rfl
      · exact .followed target htarget ‹_› (ok_of_bind_after h)
    · exact .entry h
  · cases h
  · cases h

/-- By induction on the names, what a walk finds is in the store, if this holds of the walks that go
on behind a symbolic link. -/
private theorem walkFrom_sound {follow : Bool} {onLink : Path → List Name → Except Errno Found}
    (hlink : ∀ cur rest f, onLink cur rest = .ok f → f.Sound s) (cur : Path)
    (rest : List Name) {f : Found} (h : walkFrom proc s follow onLink cur rest = .ok f) :
    f.Sound s := by
  induction rest generalizing cur with
  | nil =>
    unfold walkFrom at h
    split at h
    · cases h
      assumption
    · cases h
  | cons name rest ih =>
    cases walkFrom_cons h with
    | dot hname h => exact ih cur h
    | dotdot hname h => exact ih cur.dropLast h
    | missing hdir hnone hrest hf =>
      subst hf
      exact ⟨hdir, hnone⟩
    | link target hnode hend hf =>
      subst hf
      exact hnode
    -- Behind a link the walk starts anew, and the hypothesis takes over.
    | followed target hnode hmore h => exact hlink _ _ f h
    | entry h => exact ih (cur ++ [name]) h

/-- What a walk finds is in the store: a node that it reports is at its path, and what it reports as
missing has a directory to be made in. By induction on the links. -/
theorem walk_sound {follow : Bool} (links : Nat) (cur : Path) (rest : List Name)
    {f : Found} (h : walk proc s follow links cur rest = .ok f) : f.Sound s := by
  induction links generalizing cur rest f with
  | zero => exact walkFrom_sound (fun _ _ _ hk => by cases hk) cur rest h
  | succ links ih => exact walkFrom_sound (fun cur rest f hk => ih cur rest hk) cur rest h

/-- What `resolve` finds is in the store. This is all that the calls need to know of a walk. -/
theorem resolve_sound {follow : Bool} {p : Path} {f : Found}
    (h : resolve proc s follow p = .ok f) : f.Sound s :=
  walk_sound 40 [] p h

end Sound

section Spec
variable {proc : Process} {s : Store} {p q : Path} {e : Edit}

/-- Flags that are in force were asked for, and they do not change which links are followed. -/
theorem OpenFlags.effective_le {flags flags' : OpenFlags} (h : flags.effective = .ok flags') :
    flags'.follows = flags.follows ∧ (flags'.create = true → flags.create = true) ∧
      (flags'.trunc = true → flags.trunc = true) := by
  unfold OpenFlags.effective at h
  split at h
  · -- With `O_PATH` everything else is ignored.
    rename_i hpath
    cases h
    simp [OpenFlags.follows, hpath]
  split at h
  · cases h
  split at h
  · cases h
  · cases h
    exact ⟨rfl, id, id⟩

/-- The usual flags are in force as they are, so that `open` goes on to the walk. -/
theorem openFile_of_usual {flags : OpenFlags} (h : flags.usual = true) (mode : Mode) (p : Path) :
    openFile proc s flags mode p = openPath proc s flags mode p := by
  simp only [OpenFlags.usual, Bool.not_eq_true', Bool.or_eq_false_iff] at h
  obtain ⟨⟨hpath, hdirectory⟩, htmpfile⟩ := h
  simp [openFile, OpenFlags.effective, hpath, hdirectory, htmpfile, Except.bind]

/-- `open` succeeds with the flags that are in force. These may be fewer than those that it was
given, as `O_PATH` switches the others off. -/
theorem openFile_eq_openPath {flags : OpenFlags} {mode : Mode} {r : Path × Edit}
    (h : openFile proc s flags mode p = .ok r) :
    ∃ flags', flags.effective = .ok flags' ∧ openPath proc s flags' mode p = .ok r := by
  unfold openFile at h
  cases hflags : flags.effective with
  | error e =>
    rw [hflags] at h
    cases h
  | ok flags' =>
    rw [hflags] at h
    exact ⟨flags', rfl, h⟩

/-- What `open` does when it succeeds: it finds a node, which it may truncate, or it makes a file.
The tests that can make it fail are gone in this statement. What is left are the edits that are
possible, and this is what the lemmas on the shape of the tree and on open files need. -/
theorem openFile_eq_ok {flags : OpenFlags} {mode : Mode}
    (h : openFile proc s flags mode p = .ok (q, e)) :
    (∃ node, resolve proc s flags.follows p = .ok (.existing q node) ∧
      (e = .keep ∨ flags.trunc = true ∧
        ∃ m content, node = .file m content ∧ e = .put q (.file m []))) ∨
    ∃ parent name m, resolve proc s flags.follows p = .ok (.missing parent name) ∧
      flags.create = true ∧ q = parent ++ [name] ∧ e = .put q (.file m []) := by
  obtain ⟨flags', hflags, h⟩ := openFile_eq_openPath h
  obtain ⟨hfollows, hcreates, htruncates⟩ := OpenFlags.effective_le hflags
  rw [← hfollows]
  unfold openPath at h
  split at h
  · cases h
  · rename_i q' node hf
    left
    split at h
    · cases h
    split at h
    · cases h
    split at h
    · -- A link is opened with `O_PATH` only.
      split at h
      · cases h
        exact ⟨_, hf, .inl rfl⟩
      · cases h
    · -- A directory can be opened for reading only.
      split at h
      · cases h
      split at h
      · cases h
      · cases h
        exact ⟨_, hf, .inl rfl⟩
    · split at h
      · cases h
      split at h
      · cases h
      · cases h
        refine ⟨_, hf, ?_⟩
        split
        · exact .inr ⟨htruncates ‹_›, _, _, rfl, rfl⟩
        · exact .inl rfl
  · rename_i parent name hf
    right
    split at h
    · cases h
    · rename_i hcreate
      split at h
      · cases h
        exact ⟨parent, name, _, hf, hcreates (by simpa using hcreate), rfl, rfl⟩
      · cases h

/-- What `mkdir` and `symlink` do when they succeed: they put a node where the path has led to a
free place. -/
theorem makeEntry_eq_ok {node : Node} (h : makeEntry proc s node p = .ok e) :
    ∃ parent name, resolve proc s false p = .ok (.missing parent name) ∧
      e = .put (parent ++ [name]) node := by
  unfold makeEntry at h
  split at h
  · cases h
  · cases h
  · rename_i parent name hf
    split at h
    · cases h
      exact ⟨parent, name, hf, rfl⟩
    · cases h

/-- `symlink` adds the test of the target to what all calls do that make an entry. A call that
succeeds has passed it. -/
theorem symlink_eq_ok {target : String} (h : symlink proc s target p = .ok e) :
    makeEntry proc s (.symlink target) p = .ok e := by
  unfold symlink at h
  split at h
  · cases h
  · exact h

/-- The removal of an entry is one deletion, and never that of the root. -/
private theorem removeEntry_eq_ok (h : removeEntry proc s q = .ok e) :
    q ≠ [] ∧ e = .delete q := by
  unfold removeEntry at h
  split at h
  · cases h
  · rename_i hq
    split at h
    · cases h
      exact ⟨hq, rfl⟩
    · cases h

/-- What `unlink` does when it succeeds: it deletes what the path leads to, without following a link
at its end. This is neither a directory nor the root. -/
theorem unlink_eq_ok (h : unlink proc s p = .ok e) :
    ∃ q node, resolve proc s false p = .ok (.existing q node) ∧ (∀ mode, node ≠ .dir mode) ∧
      q ≠ [] ∧ e = .delete q := by
  unfold unlink at h
  split at h
  · cases h
  · cases h
  · cases h
  · rename_i q node hnot hf
    exact ⟨q, node, hf, hnot, removeEntry_eq_ok h⟩

/-- What `rmdir` does when it succeeds: it deletes an empty directory other than the root. -/
theorem rmdir_eq_ok (h : rmdir proc s p = .ok e) :
    ∃ q mode, resolve proc s false p = .ok (.existing q (.dir mode)) ∧ s.isLeaf q = true ∧
      q ≠ [] ∧ e = .delete q := by
  unfold rmdir at h
  split at h
  · cases h
  · cases h
  · rename_i q mode hf
    split at h
    · exact ⟨q, mode, hf, ‹_›, removeEntry_eq_ok h⟩
    · cases h
  · cases h

/-- A rename is one move, and never of a directory into itself. Without this the move would not give
a tree. -/
private theorem moveEntry_eq_ok {old new : Path} {node : Node}
    (h : moveEntry proc s old new node = .ok e) : ¬ old <+: new ∧ e = .move old new := by
  unfold moveEntry at h
  split at h
  · cases h
  split at h
  · cases h
  -- The test for a move into itself, which is all that is needed.
  rename_i hnot
  split at h
  · cases h
  split at h
  · split at h
    · cases h
    · cases h
      exact ⟨hnot, rfl⟩
  · cases h
    exact ⟨hnot, rfl⟩

/-- What `rename` does when it succeeds: it moves the node to a free path, it leaves a node that
both paths lead to, or it moves the node over one that it can replace. In the two moves the node
does not go below itself. -/
theorem rename_eq_ok {old new : Path} (h : rename proc s old new = .ok e) :
    ∃ o node, resolve proc s false old = .ok (.existing o node) ∧
      ((∃ parent name, resolve proc s false new = .ok (.missing parent name) ∧
          ¬ o <+: parent ++ [name] ∧ e = .move o (parent ++ [name])) ∨
        ∃ n node', resolve proc s false new = .ok (.existing n node') ∧
          (o = n ∧ e = .keep ∨
            o ≠ n ∧ replaceable s node n node' = .ok () ∧ ¬ o <+: n ∧ e = .move o n)) := by
  unfold rename at h
  split at h
  · cases h
  · cases h
  rename_i o node hold
  refine ⟨o, node, hold, ?_⟩
  split at h
  · cases h
  · rename_i parent name hnew
    exact .inl ⟨parent, name, hnew, moveEntry_eq_ok h⟩
  · rename_i n node' hnew
    refine .inr ⟨n, node', hnew, ?_⟩
    split at h
    · cases h
      exact .inl ⟨‹_›, rfl⟩
    · -- Both paths lead to different nodes, and the new one can be replaced.
      rename_i hne
      split at h
      · cases h
      · exact .inr ⟨hne, ‹_›, moveEntry_eq_ok h⟩

/-- What `chmod` does when it succeeds: it sets the permission bits of what the path leads to,
behind a link at its end. -/
theorem chmod_eq_ok {mode : Mode} (h : chmod proc s mode p = .ok e) :
    ∃ q node, resolve proc s true p = .ok (.existing q node) ∧
      e = .put q (node.withMode (mode &&& 0o7777)) := by
  unfold chmod at h
  split at h
  · cases h
  · cases h
  · rename_i q node hf
    cases h
    exact ⟨q, node, hf, rfl⟩

/-- A file that is opened as it is does not change. Only `O_CREAT` and `O_TRUNC` make `open` an
edit. -/
theorem openFile_keep {flags : OpenFlags} {mode : Mode} (hcreate : flags.create = false)
    (htrunc : flags.trunc = false) (h : openFile proc s flags mode p = .ok (q, e)) :
    e = .keep := by
  rcases openFile_eq_ok h with ⟨node, -, hkeep | ⟨htrunc', -⟩⟩ | ⟨-, -, -, -, hcreate', -⟩
  · exact hkeep
  · rw [htrunc] at htrunc'
    cases htrunc'
  · rw [hcreate] at hcreate'
    cases hcreate'

end Spec

section Allowed
variable {proc : Process} {s : Store} (ht : s.IsTree)
include ht

/-- The parent of a node is a directory of the store, for every node but the root. -/
theorem hasParent_existing {q : Path} {node : Node} (h : s.get q = some node) (hq : q ≠ []) :
    s.HasParent q False := by
  refine .inr ⟨q.dropLast, q.getLast hq, (List.dropLast_append_getLast hq).symm, ?_⟩
  refine ht.parents _ (q.getLast hq) ?_
  rw [List.dropLast_append_getLast hq, h]
  rfl

/-- A node that changes without becoming something else. The tree keeps its shape then, so the edit
needs no further condition. -/
theorem allowed_change {q : Path} {node node' : Node} (h : s.get q = some node)
    (hkind : (∃ mode, node = .dir mode) ↔ ∃ mode, node' = .dir mode) :
    (Edit.put q node').Allowed s := by
  -- What was a directory stays one, so its children keep their parent.
  have hdir : s.IsDir q ↔ ∃ mode, node' = .dir mode := by
    rw [← hkind]
    exact ⟨fun ⟨mode, hm⟩ => ⟨mode, Option.some.inj (h.symm.trans hm)⟩,
      fun ⟨mode, hm⟩ => ⟨mode, h.trans (congrArg some hm)⟩⟩
  constructor
  · by_cases hq : q = []
    · exact .inl ⟨hq, hdir.mp (hq ▸ ht.root)⟩
    · rcases hasParent_existing ht h hq with ⟨-, hfalse⟩ | hparent
      · exact hfalse.elim
      · exact .inr hparent
  · by_cases hd : s.IsDir q
    · exact .inl (hdir.mp hd)
    · exact .inr (ht.isLeaf_of_not_dir hd)

/-- `open` makes an allowed edit: a new file in a directory, or a file that is emptied. -/
theorem openFile_allowed {flags : OpenFlags} {mode : Mode} {p q : Path} {e : Edit}
    (h : openFile proc s flags mode p = .ok (q, e)) : e.Allowed s := by
  rcases openFile_eq_ok h with ⟨node, hf, rfl | ⟨-, m, content, rfl, rfl⟩⟩ |
    ⟨parent, name, m, hf, -, rfl, rfl⟩
  · trivial
  · exact allowed_change ht (resolve_sound hf) (by simp)
  · exact allowed_new ht (resolve_sound hf).1 (resolve_sound hf).2 _

/-- `mkdir` and `symlink` make an allowed edit, because the walk has ended in a directory that has
no such entry. -/
theorem makeEntry_allowed {node : Node} {p : Path} {e : Edit}
    (h : makeEntry proc s node p = .ok e) : e.Allowed s := by
  obtain ⟨parent, name, hf, rfl⟩ := makeEntry_eq_ok h
  exact allowed_new ht (resolve_sound hf).1 (resolve_sound hf).2 _

/-- `unlink` makes an allowed edit. What is not a directory has nothing below it that would lose its
parent. -/
theorem unlink_allowed {p : Path} {e : Edit} (h : unlink proc s p = .ok e) : e.Allowed s := by
  obtain ⟨q, node, hf, hnot, hq, rfl⟩ := unlink_eq_ok h
  have hnode : s.get q = some node := resolve_sound hf
  refine ⟨hq, ht.isLeaf_of_not_dir ?_⟩
  rintro ⟨mode, hmode⟩
  rw [hnode] at hmode
  exact hnot mode (Option.some.inj hmode)

omit ht in
/-- `rmdir` makes an allowed edit, because it tests that the directory is empty. -/
theorem rmdir_allowed {p : Path} {e : Edit} (h : rmdir proc s p = .ok e) : e.Allowed s := by
  obtain ⟨q, mode, -, hleaf, hq, rfl⟩ := rmdir_eq_ok h
  exact ⟨hq, hleaf⟩

/-- What can be replaced has nothing below it: it is not a directory, or an empty one. -/
private theorem isLeaf_of_replaceable {node node' : Node} {n : Path} (h : s.get n = some node')
    (hreplace : replaceable s node n node' = .ok ()) : s.isLeaf n = true := by
  by_cases hd : s.IsDir n
  · obtain ⟨mode, hmode⟩ := hd
    obtain rfl := Option.some.inj (h.symm.trans hmode)
    simp only [replaceable] at hreplace
    split at hreplace
    · split at hreplace
      · assumption
      · cases hreplace
    · cases hreplace
  · exact ht.isLeaf_of_not_dir hd

omit ht in
/-- A leaf is not above another node, so a node that moves over a leaf is not moved over its own
parent. -/
private theorem not_above_of_isLeaf {n o : Path} {node : Node} (hleaf : s.isLeaf n = true)
    (hnode : s.get o = some node) (hne : o ≠ n) : ¬ n <+: o := by
  intro hpre
  rw [Store.isLeaf_iff.mp hleaf o hpre hne] at hnode
  cases hnode

/-- `rename` makes an allowed edit. The two conditions are that nothing moves below itself and that
nothing is lost below what is replaced. The kernel tests for both: the first is `EINVAL`, and a
directory that is replaced has to be empty. -/
theorem rename_allowed {old new : Path} {e : Edit} (h : rename proc s old new = .ok e) :
    e.Allowed s := by
  obtain ⟨o, node, hold, ⟨parent, name, hnew, hnot, rfl⟩ |
    ⟨n, node', hnew, ⟨-, rfl⟩ | ⟨hne, hreplace, hnot, rfl⟩⟩⟩ := rename_eq_ok h
  · -- Nothing is at the new path, so it is not above the old one.
    have hnode : s.get o = some node := resolve_sound hold
    obtain ⟨hdir, hnone⟩ := resolve_sound hnew
    have hleaf : s.isLeaf (parent ++ [name]) = true := by
      refine ht.isLeaf_of_not_dir ?_
      rintro ⟨mode, hmode⟩
      rw [hnone] at hmode
      cases hmode
    refine ⟨hnot, not_above_of_isLeaf hleaf hnode ?_, .inr ⟨parent, name, rfl, hdir⟩⟩
    rintro rfl
    rw [hnone] at hnode
    cases hnode
  · trivial
  · have hnode' : s.get n = some node' := resolve_sound hnew
    have hfree := not_above_of_isLeaf (isLeaf_of_replaceable ht hnode' hreplace)
      (resolve_sound hold) hne
    refine ⟨hnot, hfree, hasParent_existing ht hnode' ?_⟩
    rintro rfl
    exact hfree List.nil_prefix

/-- `chmod` makes an allowed edit, as a node with another mode is of the same kind. -/
theorem chmod_allowed {mode : Mode} {p : Path} {e : Edit} (h : chmod proc s mode p = .ok e) :
    e.Allowed s := by
  obtain ⟨q, node, hf, rfl⟩ := chmod_eq_ok h
  refine allowed_change ht (resolve_sound hf) ?_
  cases node <;> simp [Node.withMode]

/-- `copy_file_range` makes an allowed edit: a regular file gets other content. -/
theorem copyFileRange_allowed {src dst : Path} {readOff writeOff len : Int64} {n : Nat}
    {e : Edit} (h : copyFileRange proc s src dst readOff writeOff len = .ok (n, e)) :
    e.Allowed s := by
  unfold copyFileRange at h
  split at h
  · rename_i hdst
    split at h
    · cases h
    · cases h
      exact allowed_change ht hdst (by simp)
  · cases h

end Allowed

end Library.Posix
