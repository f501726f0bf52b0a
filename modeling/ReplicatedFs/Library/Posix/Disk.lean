import ReplicatedFs.Library.Posix.Calls

/-!
# `ReplicatedFs.Library.Posix.Disk`: open files

A `Disk` is a directory tree with the extended attributes of its nodes and the descriptors of one
process. A descriptor stays with its file when the file is renamed, and when it is unlinked: the
file is then an orphan, which has content but no path. `Disk.commit` is an edit of the tree with
what it means for the descriptors and the attributes.

Descriptors are not used again after `close`.
-/

set_option autoImplicit false

namespace Library.Posix

/-- What a descriptor refers to: a node of the tree, or one without a path. -/
inductive FileRef
  | named (path : Path)
  | orphan (index : Nat)
  deriving DecidableEq, Repr

/-- An open file. -/
structure OpenFile where
  ref : FileRef
  read : Bool
  write : Bool
  deriving DecidableEq, Repr

/-- The tree, the extended attributes, the files without a path and the descriptors. -/
structure Disk where
  tree : Tree
  xattrs : Path → String → Option (List UInt8) := fun _ _ => none
  orphans : List Node := []
  files : List (Option OpenFile) := []

/-- What is stored under the paths. -/
def Disk.contents (d : Disk) : Tree × (Path → String → Option (List UInt8)) :=
  (d.tree, d.xattrs)

/-- The path whose node the edit takes out of the tree, if there is one at it. -/
def Edit.dropped : Edit → Option Path
  | .delete p => some p
  | .move _ new => some new
  | _ => none

/-- Where a node is after the edit. -/
def Edit.target : Edit → Path → Path
  | .move old new, q => if old <+: q then new ++ q.drop old.length else q
  | _, q => q

/-- Where the node at the path was before the edit. -/
def Edit.origin : Edit → Path → Option Path
  | .keep, q | .put _ _, q => some q
  | .delete p, q => if q = p then none else some q
  | .move old new, q =>
    if new <+: q then some (old ++ q.drop new.length)
    else if old <+: q then none
    else some q

/-- What a reference is after the edit. An orphan gets the next free index. -/
def Edit.retarget (e : Edit) (orphans : Nat) : FileRef → FileRef
  | .named p => if e.dropped = some p then .orphan orphans else .named (e.target p)
  | .orphan i => .orphan i

section Operations
variable (proc : Process) (d : Disk)

/-- The disk after an edit of its tree. -/
def Disk.commit (e : Edit) (h : e.Allowed d.tree.1) : Disk where
  tree := ⟨e.apply d.tree.1, h.isTree d.tree.2⟩
  xattrs q := match e.origin q with
    | some p => d.xattrs p
    | none => fun _ => none
  orphans := d.orphans ++ (e.dropped.bind d.tree.1.get).toList
  files := d.files.map (Option.map fun f => { f with ref := e.retarget d.orphans.length f.ref })

/-- A call that edits the tree. -/
def Disk.perform (x : Except Errno Edit) (h : ∀ e, x = .ok e → e.Allowed d.tree.1) :
    Disk × Option Errno :=
  match x, h with
  | .error err, _ => (d, some err)
  | .ok e, h => (d.commit e (h e rfl), none)

/-- A descriptor that is opened with `O_PATH` can neither be read nor written. -/
def OpenFlags.opens (flags : OpenFlags) (ref : FileRef) : OpenFile :=
  ⟨ref, flags.read && !flags.path, flags.write && !flags.path⟩

/-- `open`, with the new descriptor. -/
def Disk.openFile (flags : OpenFlags) (mode : Mode) (p : Path) : Disk × Except Errno Nat :=
  match h : Posix.openFile proc d.tree.1 flags mode p with
  | .error err => (d, .error err)
  | .ok (q, e) =>
    let d' := d.commit e (openFile_allowed d.tree.2 h)
    ({ d' with files := d'.files ++ [some (flags.opens (.named q))] },
      .ok d'.files.length)

/-- `close`. -/
def Disk.close (fd : Nat) : Disk := { d with files := d.files.set fd none }

/-- The file of a descriptor. -/
def Disk.file? (fd : Nat) : Option OpenFile := d.files[fd]?.join

/-- The content of a file. -/
def Disk.content? (ref : FileRef) : Option (List UInt8) :=
  match ref with
  | .named p =>
    match d.tree.1.get p with
    | some (.file _ content) => some content
    | _ => none
  | .orphan i =>
    match d.orphans[i]? with
    | some (.file _ content) => some content
    | _ => none

/-- The file with other content. -/
def Node.withContent (content : List UInt8) : Node → Node
  | .file mode _ => .file mode content
  | node => node

/-- The disk with other content in a file. -/
def Disk.setContent (content : List UInt8) : FileRef → Disk
  | .named p =>
    match h : d.tree.1.get p with
    | some (.file mode _) =>
      d.commit (.put p (.file mode content)) (allowed_change d.tree.2 h (by simp))
    | _ => d
  | .orphan i => { d with orphans := d.orphans.modify i (Node.withContent content) }

/-- `pwrite`, with the number of bytes. -/
def Disk.pwrite (fd : Nat) (data : List UInt8) (offset : Int64) : Disk × Except Errno Nat :=
  match d.file? fd with
  | none => (d, .error .ebadf)
  | some f =>
    if f.write = false then (d, .error .ebadf)
    else if offset < 0 then (d, .error .einval)
    else match d.content? f.ref with
      | none => (d, .error .einval)
      | some content =>
        (d.setContent (overwrite content data offset.toInt.toNat) f.ref, .ok data.length)

/-- The content after `fallocate`: more zeros at the end, nothing that can be seen with
`FALLOC_FL_KEEP_SIZE`, and zeros in the range with `FALLOC_FL_PUNCH_HOLE`. The other modes are
left to file systems that have them. -/
def allocated (mode : UInt32) (offset len : Nat) (content : List UInt8) :
    Option (List UInt8) :=
  if mode = 0 then some (content ++ List.replicate (offset + len - content.length) 0)
  else if mode = 1 then some content
  else if mode = 3 then
    some (content.take offset ++
      List.replicate (min (offset + len) content.length - offset) 0 ++
      content.drop (offset + len))
  else none

/-- `fallocate`. -/
def Disk.fallocate (fd : Nat) (mode : UInt32) (offset len : Int64) : Disk × Option Errno :=
  match d.file? fd with
  | none => (d, some .ebadf)
  | some f =>
    if offset < 0 ∨ len ≤ 0 then (d, some .einval)
    else if f.write = false then (d, some .ebadf)
    else match d.content? f.ref with
      | none => (d, some .einval)
      | some content =>
        match allocated mode offset.toInt.toNat len.toInt.toNat content with
        | none => (d, some .eopnotsupp)
        | some content' => (d.setContent content' f.ref, none)

/-- `copy_file_range` between two descriptors, with the number of bytes. -/
def Disk.copyFileRange (fdIn : Nat) (readOff : Int64) (fdOut : Nat) (writeOff len : Int64)
    (flags : UInt64) : Disk × Except Errno Nat :=
  match d.file? fdIn, d.file? fdOut with
  | some f, some g =>
    if flags ≠ 0 then (d, .error .einval)
    else match d.content? f.ref, d.content? g.ref with
      | some source, some content =>
        if f.read = false ∨ g.write = false then (d, .error .ebadf)
        else match copyContent proc (f.ref = g.ref) readOff writeOff len source content with
          | .error err => (d, .error err)
          | .ok (n, content') => (d.setContent content' g.ref, .ok n)
      | _, _ => (d, .error .eisdir)
  | _, _ => (d, .error .ebadf)

/-- `lsetxattr`. The flags are `XATTR_CREATE` and `XATTR_REPLACE`. -/
def Disk.setxattr (p : Path) (attr : String) (data : List UInt8) (flags : UInt32) :
    Disk × Option Errno :=
  match lstat proc d.tree.1 p with
  | .error err => (d, some err)
  | .ok (q, _) =>
    if flags = 1 ∧ (d.xattrs q attr).isSome then (d, some .eexist)
    else if flags = 2 ∧ (d.xattrs q attr).isNone then (d, some .enodata)
    else
      ({ d with
          xattrs := Function.update d.xattrs q
            (Function.update (d.xattrs q) attr (some data)) }, none)

/-- `lremovexattr`. -/
def Disk.removexattr (p : Path) (attr : String) : Disk × Option Errno :=
  match lstat proc d.tree.1 p with
  | .error err => (d, some err)
  | .ok (q, _) =>
    if (d.xattrs q attr).isNone then (d, some .enodata)
    else
      ({ d with
          xattrs := Function.update d.xattrs q (Function.update (d.xattrs q) attr none) },
        none)

end Operations

/-- A file that is opened as it is does not change. There is only one more descriptor. -/
theorem Disk.openFile_contents (proc : Process) (d : Disk) {flags : OpenFlags}
    (hcreate : flags.create = false) (htrunc : flags.trunc = false) (mode : Mode) (p : Path) :
    (d.openFile proc flags mode p).1.contents = d.contents := by
  unfold Disk.openFile
  split
  · rfl
  · rename_i q e hopen
    obtain rfl := openFile_keep hcreate htrunc hopen
    rfl

section Cases
variable {proc : Process} {d d' : Disk}

/-- A call that succeeds makes its edit. The errno is the only thing that tells success from
failure. -/
theorem Disk.perform_eq_none {x : Except Errno Edit}
    {hx : ∀ e, x = .ok e → e.Allowed d.tree.1} (h : d.perform x hx = (d', none)) :
    ∃ e, ∃ ha : e.Allowed d.tree.1, x = .ok e ∧ d' = d.commit e ha := by
  cases x with
  | error err => cases h
  | ok e =>
    cases h
    exact ⟨e, hx e rfl, rfl, rfl⟩

/-- What `open` does when it succeeds: it makes its edit and adds a descriptor for the file at the
end of the table. -/
theorem Disk.openFile_eq_ok {flags : OpenFlags} {mode : Mode} {p : Path} {fd : Nat}
    (h : d.openFile proc flags mode p = (d', .ok fd)) :
    ∃ q e, ∃ ha : e.Allowed d.tree.1, Posix.openFile proc d.tree.1 flags mode p = .ok (q, e) ∧
      d' = { d.commit e ha with
        files := (d.commit e ha).files ++ [some (flags.opens (.named q))] } ∧
      fd = (d.commit e ha).files.length := by
  unfold Disk.openFile at h
  split at h
  · cases h
  · rename_i q e hopen
    cases h
    exact ⟨q, e, openFile_allowed d.tree.2 hopen, hopen, rfl, rfl⟩

/-- A failed `open` does nothing, neither to the tree nor to the descriptors. -/
theorem Disk.openFile_eq_error {flags : OpenFlags} {mode : Mode} {p : Path} {err : Errno}
    (h : d.openFile proc flags mode p = (d', .error err)) : d' = d := by
  unfold Disk.openFile at h
  split at h
  · cases h
    rfl
  · cases h

/-- Other content in a named file is an edit of its node. Nothing happens when there is no regular
file at the path. -/
theorem Disk.setContent_cases (d : Disk) (content : List UInt8) (p : Path) :
    d.setContent content (.named p) = d ∨
      ∃ mode old, ∃ ha : (Edit.put p (.file mode content)).Allowed d.tree.1,
        d.tree.1.get p = some (.file mode old) ∧
        d.setContent content (.named p) = d.commit (.put p (.file mode content)) ha := by
  unfold Disk.setContent
  dsimp only
  split
  · rename_i mode old hget
    exact .inr ⟨mode, old, allowed_change d.tree.2 hget (by simp), hget, rfl⟩
  · exact .inl rfl

/-- `pwrite` does nothing, or it changes the content of the file. It does nothing when the
descriptor is not open for writing, and when it fails. -/
theorem Disk.pwrite_cases (d : Disk) (fd : Nat) (data : List UInt8) (offset : Int64) :
    (d.pwrite fd data offset).1 = d ∨
      ∃ file content, d.file? fd = some file ∧
        (d.pwrite fd data offset).1 = d.setContent content file.ref := by
  unfold Disk.pwrite
  split
  · exact .inl rfl
  · -- The three tests that follow are those of the access, of the offset and of the content.
    rename_i file hfile
    split
    · exact .inl rfl
    split
    · exact .inl rfl
    split
    · exact .inl rfl
    · exact .inr ⟨file, _, hfile, rfl⟩

/-- `copy_file_range` does nothing, or it changes the content of the second file. Every failure
leaves the disk as it is. What the new content is does not matter for the lemmas on descriptors and
entries, which use this one. -/
theorem Disk.copyFileRange_cases (d : Disk) (fdIn : Nat) (readOff : Int64) (fdOut : Nat)
    (writeOff len : Int64) (flags : UInt64) :
    (d.copyFileRange proc fdIn readOff fdOut writeOff len flags).1 = d ∨
      ∃ file content, d.file? fdOut = some file ∧
        (d.copyFileRange proc fdIn readOff fdOut writeOff len flags).1 =
          d.setContent content file.ref := by
  unfold Disk.copyFileRange
  split
  · -- Both descriptors are open. Every failure leaves the disk as it is.
    rename_i f g hf hg
    split
    · exact .inl rfl
    split
    · split
      · exact .inl rfl
      split
      · exact .inl rfl
      · exact .inr ⟨g, _, hg, rfl⟩
    · exact .inl rfl
  · exact .inl rfl

end Cases

end Library.Posix
