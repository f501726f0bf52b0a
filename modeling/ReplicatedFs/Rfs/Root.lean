import ReplicatedFs.Library.Posix.Disk
import ReplicatedFs.Library.Run
import ReplicatedFs.Rfs.Replicate

/-!
# `ReplicatedFs.Rfs.Root`: the FUSE operations

The model of `rfs/root.go` and `rfs/root_file.go`. A `Mount` is the disk with the `rootFile`
handles. One `Call` is one operation of one node or of one handle, with any arguments. A node is
given by its path below the root of the mount, `r.Path(r.Root())`.

`root` and `rootFile` embed `LoopbackNode` and `loopbackFile` of go-fuse. `Loopback` is what the
embedded operations do to the disk: a parameter, since go-fuse is not part of the repository.
`Loopback.Lawful` says which of them only look at the mirror directory.

A guarded operation builds its request and continues with its system call only when `replicate`
returns `NoError`. `Guarded` has both parts of it, each operation under its own name, and
`Mount.call` puts them together. `Call.direct` lists the calls that change the mirror directory
without a request.

`Mount.request?` is the request of a call, and `Mount.onward` is what the call does once it is
permitted, on the mount as it is then.
-/

set_option autoImplicit false

namespace ReplicatedFs.Rfs

open Library.Posix Protobuf P2p

/-- `rootFile`: the path that it puts into its requests, and its descriptor. -/
structure Handle where
  path : String
  fd : Nat
  deriving DecidableEq, Repr

/-- The mirror directory with the open handles. A released handle is `none`. -/
structure Mount where
  disk : Disk
  handles : List (Option Handle) := []

/-- The operations of `LoopbackNode` that only look at the mirror directory. -/
inductive Inspection
  | statfs
  | lookup (name : String)
  | readlink
  | opendir
  | readdir
  | getattr
  | getxattr (attr : String)
  | listxattr
  deriving DecidableEq, Repr

/-- The operations of `loopbackFile` that leave the file as it is. -/
inductive FileInspection
  | getattr
  | read (offset : Int64)
  | lseek (offset : UInt64) (whence : UInt32)
  | getlk
  | setlk
  | setlkw
  | flush
  | fsync (flags : UInt32)
  | release
  deriving DecidableEq, Repr

/-- The operations of `LoopbackNode`, on a node that is given by its path, and the operations of
`loopbackFile`, on its descriptor. -/
structure Loopback where
  mkdir (disk : Disk) (path name : String) (mode : UInt32) : Disk × Option Errno
  rename (disk : Disk) (path name newParent newName : String) (flags : UInt32) :
    Disk × Option Errno
  rmdir (disk : Disk) (path name : String) : Disk × Option Errno
  symlink (disk : Disk) (path target name : String) : Disk × Option Errno
  unlink (disk : Disk) (path name : String) : Disk × Option Errno
  mknod (disk : Disk) (path name : String) (mode rdev : UInt32) : Disk × Option Errno
  setxattr (disk : Disk) (path attr : String) (data : List UInt8) (flags : UInt32) :
    Disk × Option Errno
  removexattr (disk : Disk) (path attr : String) : Disk × Option Errno
  inspect (disk : Disk) (path : String) (inspection : Inspection) : Disk × Option Errno
  write (disk : Disk) (fd : Nat) (data : List UInt8) (offset : Int64) : Disk × Option Errno
  allocate (disk : Disk) (fd : Nat) (offset size : UInt64) (mode : UInt32) :
    Disk × Option Errno
  inspectFile (disk : Disk) (fd : Nat) (inspection : FileInspection) : Disk × Option Errno

/-- What looks at the mirror directory does not change it. -/
structure Loopback.Lawful (lb : Loopback) : Prop where
  inspect : ∀ disk path i, (lb.inspect disk path i).1.contents = disk.contents
  inspectFile : ∀ disk fd i, (lb.inspectFile disk fd i).1.contents = disk.contents

/-- The operations of `root`. Handles are indices, `none` for a handle of another type. -/
inductive NodeOp
  | create (name : String) (flags mode : UInt32)
  | mkdir (name : String) (mode : UInt32)
  | openFile (flags : UInt32)
  | rename (name newParent newName : String) (flags : UInt32)
  | rmdir (name : String)
  | setattr (mode : Option UInt32)
  | symlink (target name : String)
  | link (targetPath name : String)
  | unlink (name : String)
  | copyFileRange (fhIn : Option Nat) (offIn : UInt64) (fhOut : Option Nat)
      (offOut len flags : UInt64)
  | mknod (name : String) (mode rdev : UInt32)
  | setxattr (attr : String) (data : List UInt8) (flags : UInt32)
  | removexattr (attr : String)
  | inspect (inspection : Inspection)
  deriving DecidableEq, Repr

/-- The operations of `rootFile`. -/
inductive FileOp
  | write (data : List UInt8) (offset : Int64)
  | allocate (offset size : UInt64) (mode : UInt32)
  | inspect (inspection : FileInspection)
  deriving DecidableEq, Repr

/-- One call, by the node or the handle it is made on. -/
inductive Call
  | node (path : String) (op : NodeOp)
  | file (handle : Nat) (op : FileOp)
  deriving DecidableEq, Repr

/-- `relativePath`. -/
def relativePath (path name : String) : String := join [path, name]

/-- `physicalPath`. -/
def physicalPath (m : Mirror) (path name : String) : Path := m.path (relativePath path name)

/-- The result of a call: the mount after it, with an error number. -/
abbrev Outcome := Except Panic (Mount × Option Errno)

/-- The mount after a call that leaves the handles as they are. -/
def Mount.withDisk (s : Mount) (result : Disk × Option Errno) : Mount × Option Errno :=
  ({ s with disk := result.1 }, result.2)

/-- The mount after `open` without `O_APPEND`, with a new handle. -/
def Mount.openFile (proc : Process) (s : Mount) (flags : UInt32) (mode : Mode) (p : Path)
    (path : String) : Mount × Option Errno :=
  match s.disk.openFile proc (.ofBits (flags &&& ~~~0o2000)) mode p with
  | (disk, .error errno) => ({ s with disk }, some errno)
  | (disk, .ok fd) => ({ disk, handles := s.handles ++ [some { path, fd }] }, none)

/-- The error of a call that returns a number. -/
def errno? : Except Errno Nat → Option Errno
  | .error errno => some errno
  | .ok _ => none

/-- The metadata of `CopyFileRange`. -/
def copyMetadata (rfsInFile rfsOutFile : Handle) (offIn offOut len : UInt64) : Metadata where
  relativePath := rfsInFile.path
  newRelativePath := rfsOutFile.path
  writeOffset := offOut.toInt64
  readOffset := offIn.toInt64
  writeLen := len.toInt64

/-- The request of `CopyFileRange`. -/
def copyRequest (rfsInFile rfsOutFile : Handle) (offIn offOut len : UInt64) : Request where
  type := .copyFileRange
  metadata := some (copyMetadata rfsInFile rfsOutFile offIn offOut len)

/-- The metadata of `rootFile.Write`. -/
def writeMetadata (f : Handle) (offset : Int64) : Metadata where
  relativePath := f.path
  writeOffset := offset

/-- The request of `rootFile.Write`. -/
def writeRequest (f : Handle) (data : List UInt8) (offset : Int64) : Request where
  type := .write
  metadata := some (writeMetadata f offset)
  content := some data

/-- An operation that asks first: the request that it builds, and what it does with the
permission. -/
structure Guarded where
  request : Request
  onward (m : Mirror) (proc : Process) (lb : Loopback) (s : Mount) : Mount × Option Errno

namespace Guarded

/-- `Create`. -/
def create (path name : String) (flags mode : UInt32) : Guarded where
  request :=
    { type := .create, metadata := some { relativePath := relativePath path name, mode } }
  onward m proc _ s :=
    s.openFile proc (flags ||| 0o100) mode (physicalPath m path name) (relativePath path name)

/-- `Mkdir`. -/
def mkdir (path name : String) (mode : UInt32) : Guarded where
  request := { type := .mkdir, metadata := some { relativePath := relativePath path name, mode } }
  onward _ _ lb s := s.withDisk (lb.mkdir s.disk path name mode)

/-- `Rename`. The new path starts with the new parent and goes on with the path of this node. -/
def rename (path name newParent newName : String) (flags : UInt32) : Guarded where
  request :=
    { type := .rename
      metadata := some
        { relativePath := relativePath path name
          newRelativePath := join [newParent, relativePath path newName] } }
  onward _ _ lb s := s.withDisk (lb.rename s.disk path name newParent newName flags)

/-- `Rmdir`. -/
def rmdir (path name : String) : Guarded where
  request := { type := .rmdir, metadata := some { relativePath := relativePath path name } }
  onward _ _ lb s := s.withDisk (lb.rmdir s.disk path name)

/-- `Setattr` with a mode. -/
def setattr (path : String) (mode : UInt32) : Guarded where
  request := { type := .setattr, metadata := some { relativePath := path, mode } }
  onward m proc _ s :=
    s.withDisk (s.disk.perform (chmod proc s.disk.tree.1 mode (physicalPath m path ""))
      fun _ h => chmod_allowed s.disk.tree.2 h)

/-- `Symlink`. -/
def symlink (path target name : String) : Guarded where
  request :=
    { type := .symlink
      metadata := some
        { relativePath := relativePath path target
          newRelativePath := relativePath path name } }
  onward _ _ lb s := s.withDisk (lb.symlink s.disk path target name)

/-- `Link`, which makes a symbolic link. -/
def link (path targetPath name : String) : Guarded where
  request :=
    { type := .link
      metadata := some
        { relativePath := relativePath path targetPath
          newRelativePath := relativePath path name } }
  onward _ _ lb s := s.withDisk (lb.symlink s.disk path targetPath name)

/-- `Unlink`. -/
def unlink (path name : String) : Guarded where
  request := { type := .unlink, metadata := some { relativePath := relativePath path name } }
  onward _ _ lb s := s.withDisk (lb.unlink s.disk path name)

/-- `CopyFileRange`. -/
def copyFileRange (rfsInFile rfsOutFile : Handle) (offIn offOut len flags : UInt64) : Guarded where
  request := copyRequest rfsInFile rfsOutFile offIn offOut len
  onward _ proc _ s :=
    let result := s.disk.copyFileRange proc rfsInFile.fd offIn.toInt64 rfsOutFile.fd
      offOut.toInt64 len.toInt64 flags
    s.withDisk (result.1, errno? result.2)

/-- `rootFile.Write`. -/
def write (f : Handle) (data : List UInt8) (offset : Int64) : Guarded where
  request := writeRequest f data offset
  onward _ _ lb s := s.withDisk (lb.write s.disk f.fd data offset)

end Guarded

section Operations
variable (m : Mirror) (proc : Process) (lb : Loopback) (answer : Option ReplicateError)
  (s : Mount)

/-- The handle at an index. -/
def Mount.handle? (fh : Nat) : Option Handle := s.handles[fh]?.join

/-- The call as an operation that asks first, none when it asks nobody. -/
def Mount.guarded? : Call → Option Guarded
  | .node path (.create name flags mode) => some (.create path name flags mode)
  | .node path (.mkdir name mode) => some (.mkdir path name mode)
  | .node path (.rename name newParent newName flags) =>
    some (.rename path name newParent newName flags)
  | .node path (.rmdir name) => some (.rmdir path name)
  | .node path (.setattr (some mode)) => some (.setattr path mode)
  | .node path (.symlink target name) => some (.symlink path target name)
  | .node path (.link targetPath name) => some (.link path targetPath name)
  | .node path (.unlink name) => some (.unlink path name)
  | .node _ (.copyFileRange fhIn offIn fhOut offOut len flags) =>
    -- A handle that is missing or of another type is nil after the type assertion.
    match fhIn.bind s.handle?, fhOut.bind s.handle? with
    | some rfsInFile, some rfsOutFile =>
      some (.copyFileRange rfsInFile rfsOutFile offIn offOut len flags)
    | _, _ => none
  | .file fh (.write data offset) => (s.handle? fh).map fun f => .write f data offset
  | _ => none

/-- The request that a call builds, none when it asks nobody. -/
def Mount.request? (call : Call) : Option Request := (s.guarded? call).map Guarded.request

/-- What a call does with its permission. Its handles are open for as long as the call is in
progress. -/
def Mount.onward (call : Call) : Option (Mount × Option Errno) :=
  (s.guarded? call).map fun g => g.onward m proc lb s

/-- What an operation does after its request: it stops with the error of `replicate`, or goes
on. -/
def Mount.permitted (req : Request) (onward : Mount × Option Errno) : Outcome :=
  match replicate m proc s.disk.tree.1 answer req with
  | .error p => .error p
  | .ok (some errno) => .ok (s, some errno)
  | .ok none => .ok onward

/-- The handles after an operation of a handle. -/
def Mount.handlesAfter (fh : Nat) : FileInspection → List (Option Handle)
  | .release => s.handles.set fh none
  | _ => s.handles

/-- The calls that ask nobody. -/
def Mount.alone : Call → Option Outcome
  | .node path (.openFile flags) => some (.ok (s.openFile proc flags 0 (m.path path) path))
  -- `Setattr` handles the mode only.
  | .node _ (.setattr _) => some (.ok (s, none))
  -- A handle of another type is a nil pointer.
  | .node _ (.copyFileRange _ _ _ _ _ _) => some (.error .nilDereference)
  -- The operations that `root` does not override.
  | .node path (.mknod name mode rdev) =>
    some (.ok (s.withDisk (lb.mknod s.disk path name mode rdev)))
  | .node path (.setxattr attr data flags) =>
    some (.ok (s.withDisk (lb.setxattr s.disk path attr data flags)))
  | .node path (.removexattr attr) => some (.ok (s.withDisk (lb.removexattr s.disk path attr)))
  | .node path (.inspect inspection) => some (.ok (s.withDisk (lb.inspect s.disk path inspection)))
  -- The operations that `rootFile` does not override, with `Lseek`, which only writes to the log.
  | .file fh (.allocate offset size mode) =>
    (s.handle? fh).map fun f => .ok (s.withDisk (lb.allocate s.disk f.fd offset size mode))
  | .file fh (.inspect inspection) =>
    (s.handle? fh).map fun f =>
      let result := lb.inspectFile s.disk f.fd inspection
      .ok ({ disk := result.1, handles := s.handlesAfter fh inspection }, result.2)
  | _ => none

/-- One call. There is none on a handle that was released. -/
def Mount.call (call : Call) : Option Outcome :=
  match s.guarded? call with
  | some g => some (s.permitted m proc answer g.request (g.onward m proc lb s))
  | none => s.alone m proc lb call

end Operations

/-- One call, with what `Replicate` returns if it is called. -/
structure Label where
  call : Call
  answer : Option ReplicateError
  deriving DecidableEq, Repr

/-- One step of the mount. A panic ends the process. -/
def Mount.step (m : Mirror) (proc : Process) (lb : Loopback) (s : Mount) (l : Label) :
    Option Mount :=
  match s.call m proc lb l.answer l.call with
  | some (.ok (s', _)) => some s'
  | _ => none

/-- The calls that can change the mirror directory without asking first. -/
def Call.direct : Call → Bool
  | .node _ (.openFile flags) =>
    (OpenFlags.ofBits flags).create || (OpenFlags.ofBits flags).trunc
  | .node _ (.mknod _ _ _) | .node _ (.setxattr _ _ _) | .node _ (.removexattr _) => true
  | .file _ (.allocate _ _ _) => true
  | _ => false

section Posix
variable (m : Mirror) (proc : Process)

/-- The path of an entry of a node. -/
def loopbackPath (path name : String) : Path := (components name).foldl cleanStep (m.path path)

/-- The operations as plain system calls below the mirror directory, on a file system that can
neither exchange two paths nor make special files. -/
def posixLoopback : Loopback where
  mkdir d path name mode :=
    d.perform (mkdir proc d.tree.1 (syscallMode mode) (loopbackPath m path name))
      fun _ h => makeEntry_allowed d.tree.2 h
  rename d path name newParent newName flags :=
    -- `RENAME_EXCHANGE`.
    if flags &&& 2 ≠ 0 then (d, some .einval)
    else d.perform
      (rename proc d.tree.1 (loopbackPath m path name) (loopbackPath m newParent newName))
      fun _ h => rename_allowed d.tree.2 h
  rmdir d path name :=
    d.perform (rmdir proc d.tree.1 (loopbackPath m path name)) fun _ h => rmdir_allowed h
  symlink d path target name :=
    d.perform (symlink proc d.tree.1 target (loopbackPath m path name))
      fun _ h => makeEntry_allowed d.tree.2 (symlink_eq_ok h)
  unlink d path name :=
    d.perform (unlink proc d.tree.1 (loopbackPath m path name))
      fun _ h => unlink_allowed d.tree.2 h
  mknod d path name mode _ :=
    -- Only a regular file can be made.
    if mode &&& 0o170000 ≠ 0 ∧ mode &&& 0o170000 ≠ 0o100000 then (d, some .eperm)
    else d.perform
      (makeEntry proc d.tree.1 (.file (mode &&& 0o7777 &&& ~~~proc.umask) [])
        (loopbackPath m path name))
      fun _ h => makeEntry_allowed d.tree.2 h
  setxattr d path attr data flags := d.setxattr proc (m.path path) attr data flags
  removexattr d path attr := d.removexattr proc (m.path path) attr
  inspect d _ _ := (d, none)
  write d fd data offset :=
    let result := d.pwrite fd data offset
    (result.1, errno? result.2)
  allocate d fd offset size mode := d.fallocate fd mode offset.toInt64 size.toInt64
  inspectFile d fd
    | .release => (d.close fd, none)
    | _ => (d, none)

/-- The loopback file system that makes the system calls satisfies the assumption. -/
theorem posixLoopback_lawful : (posixLoopback m proc).Lawful where
  inspect _ _ _ := rfl
  inspectFile _ _ i := by cases i <;> rfl

end Posix

end ReplicatedFs.Rfs
