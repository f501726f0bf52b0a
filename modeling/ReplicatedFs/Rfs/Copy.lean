import ReplicatedFs.Rfs.Replica

/-!
# `ReplicatedFs.Rfs.Copy`: an application that copies a range

`copy_file_range` may copy less than it is asked for, so an application calls it until the range is
done. `Copying.step` is one turn of such a loop through the mount: `root.CopyFileRange` on one peer,
`Mirror.Mirror` on the other one. How many bytes each kernel copies is the label of the turn. The
loop advances by the number that `root.CopyFileRange` returns, which is cut off to 32 bits, and it
stops at 0.
-/

set_option autoImplicit false

namespace ReplicatedFs.Rfs

open Library.Posix Protobuf

/-- How many of the bytes that are there `copy_file_range` copies. -/
structure Copies where
  count : Nat → Nat
  count_le : ∀ n, count n ≤ n
  count_pos : ∀ n, 0 < n → 0 < count n

/-- The process, when its kernel copies like this. -/
def copying (proc : Process) (k : Copies) : Process :=
  { proc with copied := k.count, copied_le := k.count_le, copied_pos := k.count_pos }

/-- One turn, with what the two kernels do. -/
structure Turn where
  here : Copies
  there : Copies

/-- The peers during a turn. -/
def Setup.during (c : Setup) (t : Turn) : Setup :=
  { c with proc := copying c.proc t.here, peerProc := copying c.peerProc t.there }

/-- The handles of the two files, and what else the calls are given. -/
structure Copier where
  path : String
  fhIn : Nat
  fhOut : Nat
  flags : UInt64 := 0

/-- The peers with what is left to copy. `stopped` says that 0 was returned, `errors` is what
`Mirror.Mirror` returned. -/
structure Copying where
  pair : Pair
  offIn : UInt64
  offOut : UInt64
  len : UInt64
  stopped : Bool := false
  errors : List String := []

/-- The loop has ended. -/
def Copying.done (s : Copying) : Bool := s.stopped || s.len = 0

/-- The next call. -/
def Copier.call (k : Copier) (s : Copying) : Call :=
  .node k.path (.copyFileRange (some k.fhIn) s.offIn (some k.fhOut) s.offOut s.len k.flags)

/-- The number that `root.CopyFileRange` returns when it has the permission: `uint32(count)`. -/
def Copier.returned (k : Copier) (proc : Process) (s : Copying) : UInt32 :=
  match s.pair.mount.handle? k.fhIn, s.pair.mount.handle? k.fhOut with
  | some rfsInFile, some rfsOutFile =>
    match (s.pair.mount.disk.copyFileRange proc rfsInFile.fd s.offIn.toInt64 rfsOutFile.fd
        s.offOut.toInt64 s.len.toInt64 k.flags).2 with
    | .ok count => UInt32.ofNat count
    | .error _ => -1
  | _, _ => 0

/-- The other peer agrees to the call. -/
def Pair.agrees (c : Setup) (s : Pair) (call : Call) : Bool :=
  match s.mount.request? call with
  | none => true
  | some req =>
    match c.peerMirror.consult c.peerProc s.replica.1 req with
    | .ok (some response) => response.type = .ack
    | _ => false

/-- One turn: a call that is permitted, and that does not fail. -/
def Copying.step (c : Setup) (k : Copier) (s : Copying) (t : Turn) : Option Copying :=
  if s.done || !s.pair.agrees (c.during t) (k.call s) then none
  else match s.pair.mount.call c.mirror (c.during t).proc c.loopback none (k.call s),
      s.pair.mirrored (c.during t) (k.call s) with
    | some (.ok (mount, none)), .ok (replica, err) =>
      -- What the call returns here is what the application goes on with. It does not learn what was
      -- copied there.
      let count := (k.returned (c.during t).proc s).toUInt64
      some
        { pair := { mount, replica }
          offIn := s.offIn + count
          offOut := s.offOut + count
          len := s.len - count
          stopped := count = 0
          errors := s.errors ++ err.toList }
    | _, _ => none

/-- The file of a handle, with its content. -/
def Pair.fileHere (s : Pair) (fh : Nat) : Option (OpenFile × List UInt8) :=
  (s.mount.handle? fh).bind fun f => (s.mount.disk.file? f.fd).bind fun file =>
    (s.mount.disk.content? file.ref).map fun content => (file, content)

/-- The file of the other peer under the path of a handle, with its mode and its content. -/
def Pair.fileThere (c : Setup) (s : Pair) (fh : Nat) : Option (Path × Mode × List UInt8) :=
  (s.mount.handle? fh).bind fun f =>
    match resolve c.peerProc s.replica.1 true (c.peerMirror.path f.path) with
    | .ok (.existing q (.file mode content)) => some (q, mode, content)
    | _ => none

/-- The content of the file of a handle. -/
def Pair.contentHere (s : Pair) (fh : Nat) : Option (List UInt8) := (s.fileHere fh).map Prod.snd

/-- The content of the file of the other peer. -/
def Pair.contentThere (c : Setup) (s : Pair) (fh : Nat) : Option (List UInt8) :=
  (s.fileThere c fh).map fun file => file.2.2

end ReplicatedFs.Rfs
