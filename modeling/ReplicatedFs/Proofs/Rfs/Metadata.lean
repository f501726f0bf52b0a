import ReplicatedFs.Library.Posix.Outline
import ReplicatedFs.Proofs.Rfs.Addressing
import ReplicatedFs.Rfs.Replica

/-!
# `ReplicatedFs.Proofs.Rfs.Metadata`: entries, types and modes on two peers

`Create`, `Mkdir`, `Setattr`, `Rmdir` and `Unlink` are system calls on the peer that makes them,
and functions of `os` on the others. The outline of a mirror directory says which entries are
below it, with their types and modes. `Pair.Converged` says that both mirror directories have the
same one.

The two sides do not make the same of every operation. `os` takes the mode for an `os.FileMode`,
which has the set-uid, set-gid and sticky bits at other places, so they are lost on the way, and
`os.Remove` takes a file for `Rmdir` and an empty directory for `Unlink`. `Create` passes the flags
of its caller on to `open`, and the request does not have them. `O_PATH`, `O_DIRECTORY` and
`O_TMPFILE` make it fail where the other peer makes a file, and so do `O_EXCL` and `O_NOFOLLOW` at
a link without a target. `Pair.portable` leaves these operations out, and the paths that lead out
of a mirror directory.

* `Operation.edit`: what `Mirror.Mirror` does, at any place of any tree.
* `Mount.portable_local`: what the local call of a portable operation does is the same, up to the
  contents of files.
* `Operation.edit_outline`: it does the same to the outline, with the mirror directory as the
  root.
-/

set_option autoImplicit false

namespace ReplicatedFs.Rfs

open Library Library.Posix Protobuf

/-- One of `Create`, `Mkdir`, `Setattr`, `Rmdir` and `Unlink`, on the node that it is called on. -/
structure MetadataCall where
  node : Inode
  op : Operation
  single : op.namesNode = false

namespace MetadataCall
variable (l : MetadataCall)

/-- The call of the operation. -/
def call : Call := l.op.call l.node

/-- The object of the operation, by the names from the mirror directory. -/
def object : Path := EntryName.values (l.op.objects l.node).1

end MetadataCall

/-- The system call of the operation follows a link at the end of its path. -/
def Operation.follows : Operation → Bool
  | .create _ _ _ | .setattr _ => true
  | _ => false

/-- The flags that `Create` opens its file with. -/
def createFlags (flags : UInt32) : OpenFlags := .ofBits ((flags ||| 0o100) &&& ~~~0o2000)

/-- The mode has the same bits when it is taken for an `os.FileMode`. -/
def portableMode (mode : UInt32) : Bool := syscallMode mode &&& 0o7777 = mode &&& 0o7777

/-- The system call of the operation does to the tree what the function of `os` does. -/
def Operation.portable (proc : Process) (s : Store) (p : Path) : Operation → Bool
  | .create _ flags mode =>
    portableMode mode && (createFlags flags).usual &&
      ((createFlags flags).follows || !isLink proc s p)
  | .setattr mode => portableMode mode
  | .rmdir _ => !isNonDir proc s p
  | .unlink _ => !isEmptyDir proc s p
  | _ => true

/-- The outlines of the two mirror directories are the same. -/
def Pair.Converged (c : Setup) (s : Pair) : Prop :=
  s.mount.disk.tree.1.outline c.mirror.dir = s.replica.1.outline c.peerMirror.dir

/-- The system call does what the function of `os` does, and the path does not lead out of the
mirror directories. -/
def Pair.portable (c : Setup) (s : Pair) (l : MetadataCall) : Bool :=
  l.op.portable c.proc s.mount.disk.tree.1 (c.mirror.dir ++ l.object) &&
    decide (Inside c.proc s.mount.disk.tree.1 l.op.follows c.mirror.dir l.object ∧
      Inside c.peerProc s.replica.1 l.op.follows c.peerMirror.dir l.object)

/-- What `Mirror.Mirror` does for the request of the operation, with its object at the path. -/
def Operation.edit (proc : Process) (s : Store) (p : Path) : Operation → Edit
  | .create _ _ mode =>
    .ofResult ((osOpenFile proc s { read := true, create := true } mode p).map Prod.snd)
  | .mkdir _ mode => .ofResult (osMkdir proc s mode p)
  | .setattr mode => .ofResult (osChmod proc s mode p)
  | .rmdir _ | .unlink _ => .ofResult (osRemove proc s p)
  | _ => .keep

section Edit
variable {proc proc' : Process} {s : Store} {dir : Path} (l : MetadataCall)

/-- What the operation does to the tree it does to the outline. Inside the mirror directory nothing
else of the tree has a part in it. -/
theorem Operation.edit_outline (h : Inside proc s l.op.follows dir l.object) :
    SameEdit dir (l.op.edit proc s (dir ++ l.object))
      (l.op.edit proc (s.outline dir) l.object) := by
  obtain ⟨r, op, hsingle⟩ := l
  cases op with
  | create name flags mode => exact osOpenFile_outline h
  | mkdir name mode => exact osMkdir_outline h
  | setattr mode => exact osChmod_outline h
  | rmdir name => exact osRemove_outline r name h
  | unlink name => exact osRemove_outline r name h
  | rename name newParent newName flags => cases hsingle
  | link target name => cases hsingle

/-- It does not matter which process does it, as long as the umasks and the permissions are the
same. -/
theorem Operation.edit_eq_of_may (humask : proc'.umask = proc.umask)
    (hmay : ∀ bit mode, proc'.may bit mode = proc.may bit mode) (p : Path) (op : Operation) :
    op.edit proc' s p = op.edit proc s p := by
  cases op with
  | create name flags mode => simp only [Operation.edit, osOpenFile_eq_of_may hmay humask]
  | mkdir name mode => simp only [Operation.edit, osMkdir_eq_of_may hmay humask]
  | setattr mode => simp only [Operation.edit, osChmod_eq_of_may hmay]
  | rmdir name => exact osRemove_eq_of_may hmay
  | unlink name => exact osRemove_eq_of_may hmay
  | rename name newParent newName flags => rfl
  | link target name => rfl

end Edit

section Local
variable {proc : Process} {s : Store} {p : Path}

/-- What `Mirror` does to the tree, without the error that it returns. -/
theorem outcome_fst (x : Except OsError Edit) : (outcome x).1 = .ofResult x := by
  cases x <;> rfl

/-- The tree after `open` on the mount. The descriptor that is added is not part of it. -/
theorem Mount.openFile_tree (proc : Process) (s : Mount) (flags : UInt32) (mode : Mode) (p : Path)
    (path : String) :
    (s.openFile proc flags mode p path).1.disk.tree.1 =
      (Edit.ofResult ((Library.Posix.openFile proc s.disk.tree.1
        (.ofBits (flags &&& ~~~0o2000)) mode p).map Prod.snd)).apply s.disk.tree.1 := by
  rw [← Disk.openFile_tree]
  unfold Mount.openFile
  split
  · rename_i disk errno hopen
    rw [hopen]
  · rename_i disk fd hopen
    rw [hopen]

/-- `Create` opens its file with `O_CREAT`, whatever flags the kernel passes to it. -/
theorem createFlags_create (flags : UInt32) : (createFlags flags).create = true := by
  have habsorb : (flags ||| 0o100) &&& 0o100 = 0o100 := by
    rw [← UInt32.toBitVec_inj]
    ext i hi
    simp only [UInt32.toBitVec_and, UInt32.toBitVec_or, BitVec.getElem_and, BitVec.getElem_or]
    cases flags.toBitVec[i] <;> simp
  have hbit : (flags ||| 0o100) &&& ~~~0o2000 &&& 0o100 = 0o100 := by
    rw [UInt32.and_assoc, show (~~~0o2000 &&& 0o100 : UInt32) = 0o100 by decide, habsorb]
  simp only [createFlags, OpenFlags.ofBits, hbit]
  decide

/-- `Create` leaves what `os.OpenFile` leaves, up to the contents of files. The flags of the caller
may contain `O_TRUNC` and others that change contents only. With `O_NOFOLLOW` the two would differ
at a link, and this is excluded by `hlink`. -/
theorem create_sameShape {flags mode : UInt32} (hmode : portableMode mode = true)
    (husual : (createFlags flags).usual = true)
    (hlink : (createFlags flags).follows = true ∨ isLink proc s p = false) :
    ((Edit.ofResult ((Library.Posix.openFile proc s (createFlags flags) mode p).map
      Prod.snd)).apply s).SameShape
      ((Edit.ofResult ((osOpenFile proc s { read := true, create := true } mode p).map
        Prod.snd)).apply s) := by
  have hsame : newFile proc s mode (resolve proc s (createFlags flags).follows p) =
      newFile proc s (syscallMode mode) (resolve proc s true p) := by
    -- `Mirror.Mirror` follows a link at the end of the path.
    have hresolve : resolve proc s (createFlags flags).follows p = resolve proc s true p := by
      rcases hlink with hfollows | hnot
      · rw [hfollows]
      · exact resolve_of_not_isLink hnot _
    have hbits : syscallMode mode &&& 0o7777 = mode &&& 0o7777 := by
      simpa [portableMode] using hmode
    unfold newFile
    rw [hresolve, hbits]
  have hlocal := openFile_newFile proc s (createFlags flags) p mode husual
    (createFlags_create flags)
  have hmirror := osOpenFile_newFile proc s { read := true, create := true } p mode rfl rfl
  rw [hsame] at hlocal
  exact fun k => (hlocal k).trans (hmirror k).symm

end Local

section Sides
variable {m : Mirror} {proc : Process} {s : Mount} {l : MetadataCall}

/-- `Mirror.Mirror` makes the edit of the operation. The request carries all that the edit depends
on. -/
theorem Mirror.change_edit {t : Store} {req : Request} {e : Edit} {err : Option String}
    (hreq : s.request? l.call = some req) (h : m.change proc t req = .ok (e, err)) :
    e = l.op.edit proc t (m.dir ++ l.object) := by
  obtain ⟨r, op, hsingle⟩ := l
  cases op with
  | rename name newParent newName flags => cases hsingle
  | link target name => cases hsingle
  | _ =>
    cases hreq
    obtain rfl := congrArg Prod.fst (Except.ok.inj h)
    simp only [outcome_fst, relativePath_entry, path_slashPath]
    rfl

/-- Every operation builds a request, so none of them changes the files without a question to the
peers. -/
theorem MetadataCall.request?_isSome (s : Mount) (l : MetadataCall) :
    ∃ req, s.request? l.call = some req := by
  obtain ⟨r, op, hsingle⟩ := l
  cases op <;> exact ⟨_, rfl⟩

/-- What a portable operation does with its permission is its edit, up to the contents of files.
go-fuse makes system calls where the mirror uses functions of `os`. `portable` is the condition
under which the two do the same to the entries and their modes. -/
theorem Mount.onward_sameShape {lb : Loopback} (hlb : lb.PosixEntries m proc)
    (hport : l.op.portable proc s.disk.tree.1 (m.dir ++ l.object) = true)
    {onward : Mount × Option Errno} (h : s.onward m proc lb l.call = some onward) :
    onward.1.disk.tree.1.SameShape
      ((l.op.edit proc s.disk.tree.1 (m.dir ++ l.object)).apply s.disk.tree.1) := by
  obtain ⟨r, op, hsingle⟩ := l
  cases op with
  | create name flags mode =>
    -- The other flags of the caller change contents only.
    simp only [Operation.portable, Bool.and_eq_true, Bool.or_eq_true, Bool.not_eq_true'] at hport
    obtain rfl := Option.some.inj h
    show (s.openFile proc (flags ||| 0o100) mode (physicalPath m (slashPath r) name.name)
      _).1.disk.tree.1.SameShape _
    rw [Mount.openFile_tree, physicalPath, relativePath_entry, path_slashPath]
    exact create_sameShape hport.1.1 hport.1.2 hport.2
  | mkdir name mode =>
    obtain rfl := Option.some.inj h
    simp only [Guarded.mkdir, Mount.withDisk, hlb.mkdir, posixLoopback, Disk.perform_tree,
      loopbackPath_entry,
      Operation.edit, osMkdir, Edit.ofResult_mapError]
    exact fun _ => rfl
  | setattr mode =>
    -- Both sides make the call of `chmod`, each with its own encoding of the mode.
    have hbits : syscallMode mode &&& 0o7777 = mode &&& 0o7777 := by
      simpa [Operation.portable, portableMode] using hport
    have hpath : physicalPath m (slashPath r) "" = m.dir ++ EntryName.values r := by
      have hjoin : relativePath (slashPath r) "" = slashPath r := by
        simpa [relativePath] using join_slashPath r []
      rw [physicalPath, hjoin, path_slashPath]
    obtain rfl := Option.some.inj h
    simp only [Guarded.setattr, Mount.withDisk, Disk.perform_tree, hpath, Operation.edit,
      osChmod, chmod,
      Edit.ofResult_mapError, hbits]
    exact fun _ => rfl
  | rmdir name =>
    have hdir : isNonDir proc s.disk.tree.1 (m.dir ++ EntryName.values (r ++ [name])) = false :=
      (Bool.not_eq_true' _).mp hport
    obtain rfl := Option.some.inj h
    simp only [Guarded.rmdir, Mount.withDisk, hlb.rmdir, posixLoopback, Disk.perform_tree,
      loopbackPath_entry]
    rw [← osRemove_eq_rmdir hdir]
    exact fun _ => rfl
  | unlink name =>
    have hdir : isEmptyDir proc s.disk.tree.1 (m.dir ++ EntryName.values (r ++ [name])) = false :=
      (Bool.not_eq_true' _).mp hport
    obtain rfl := Option.some.inj h
    simp only [Guarded.unlink, Mount.withDisk, hlb.unlink, posixLoopback, Disk.perform_tree,
      loopbackPath_entry]
    rw [← osRemove_eq_unlink hdir]
    exact fun _ => rfl
  | rename name newParent newName flags => cases hsingle
  | link target name => cases hsingle

/-- A portable operation builds a request. The call that follows it leaves what the edit of the
operation leaves, up to the contents of files. -/
theorem Mount.portable_local {lb : Loopback} (hlb : lb.PosixEntries m proc)
    (hport : l.op.portable proc s.disk.tree.1 (m.dir ++ l.object) = true) :
    ∃ req onward, s.request? l.call = some req ∧
      s.call m proc lb none l.call = some (s.permitted m proc none req onward) ∧
      onward.1.disk.tree.1.SameShape
        ((l.op.edit proc s.disk.tree.1 (m.dir ++ l.object)).apply s.disk.tree.1) := by
  obtain ⟨req, hreq⟩ := l.request?_isSome s
  obtain ⟨onward, honward, hcall⟩ := s.call_eq_onward m proc lb hreq
  exact ⟨req, onward, hreq, hcall none, Mount.onward_sameShape hlb hport honward⟩

end Sides

section Step
variable {c : Setup} {s s' : Pair} {l : MetadataCall}

/-- A portable operation keeps the outlines the same. The masks have to be equal, since each side
applies its own to the mode. -/
theorem Pair.Converged.step (h : s.Converged c)
    (hlb : c.loopback.PosixEntries c.mirror c.proc) (humask : c.proc.umask = c.peerProc.umask)
    (hpriv : c.proc.privileged = c.peerProc.privileged) (hport : s.portable c l = true)
    (hstep : s.step c l.call = some s') : s'.Converged c := by
  simp only [Pair.portable, Bool.and_eq_true, decide_eq_true_eq] at hport
  obtain ⟨hlocal, hin, hin'⟩ := hport
  obtain ⟨req, onward, hreq, hcall, hshape⟩ := Mount.portable_local hlb hlocal
  rcases Pair.step_cases _ hreq hcall hstep with rfl | ⟨e, err, hmount, hchange, hreplica, -⟩
  · exact h
  have hmay : ∀ bit mode, c.proc.may bit mode = c.peerProc.may bit mode := by
    intro bit mode
    rw [Process.may, Process.may, hpriv]
  rw [hmount] at hshape
  -- Down to the one outline on this side, and up again on the other one.
  calc s'.mount.disk.tree.1.outline c.mirror.dir
      = ((l.op.edit c.proc s.mount.disk.tree.1 (c.mirror.dir ++ l.object)).apply
          s.mount.disk.tree.1).outline c.mirror.dir := hshape.outline _
    _ = (l.op.edit c.proc (s.mount.disk.tree.1.outline c.mirror.dir) l.object).apply
          (s.mount.disk.tree.1.outline c.mirror.dir) := (Operation.edit_outline l hin).outline
    _ = (l.op.edit c.peerProc (s.replica.1.outline c.peerMirror.dir) l.object).apply
          (s.replica.1.outline c.peerMirror.dir) := by
        rw [h, Operation.edit_eq_of_may humask hmay]
    _ = ((l.op.edit c.peerProc s.replica.1 (c.peerMirror.dir ++ l.object)).apply
          s.replica.1).outline c.peerMirror.dir := (Operation.edit_outline l hin').outline.symm
    _ = s'.replica.1.outline c.peerMirror.dir := by
        rw [hreplica, Mirror.change_edit hreq hchange]

end Step

/-- Two mirror directories with the same outline, on peers with the same umask and the same
privileges. After any sequence of portable operations, each of them carried out by both peers if
they agree to it, the outlines are the same. -/
theorem metadata_converges (c : Setup) (hlb : c.loopback.PosixEntries c.mirror c.proc)
    (humask : c.proc.umask = c.peerProc.umask)
    (hpriv : c.proc.privileged = c.peerProc.privileged) (s s' : Pair) (h : s.Converged c)
    (calls : List MetadataCall)
    (hrun : run (restrict (fun s l => s.step c l.call) (Pair.portable c)) s calls = some s') :
    s'.Converged c := by
  refine run_invariant (fun s l s' hstep hs => ?_) hrun h
  obtain ⟨hport, hstep⟩ := restrict_eq_some.mp hstep
  exact hs.step hlb humask hpriv hport hstep

/-- A privileged process. -/
def rootProcess : Process := { someProcess with privileged := true }

/-- Two peers with plain system calls of privileged processes. -/
def rootSetup : Setup :=
  ⟨someMirror, rootProcess, posixLoopback someMirror rootProcess, someMirror, rootProcess⟩

def linkEntry : EntryName := ⟨"l", by decide, by decide, by decide, by decide⟩

/-- A file, an empty directory and a link that leads nowhere, on both sides. -/
def variedTree : Tree :=
  (((rootTree.add [] "m" (.dir 0o755)).add ["m"] "f" (.file 0o644 [1])).add ["m"] "d"
    (.dir 0o755)).add ["m"] "l" (.symlink "x")

def variedPair : Pair := ⟨{ disk := { tree := variedTree } }, variedTree⟩

/-- All five operations. -/
def portableCalls : List MetadataCall :=
  [⟨[dirEntry], .create newEntry 0o200 0o640, rfl⟩, ⟨[], .mkdir newEntry 0o1777, rfl⟩,
    ⟨[oldEntry], .setattr 0o600, rfl⟩, ⟨[], .rmdir newEntry, rfl⟩, ⟨[], .unlink linkEntry, rfl⟩]

/-- The outlines are the same after a run of all five operations. The modes have the bits that
`os.FileMode` and the system calls agree on. -/
theorem metadata_converges_varied :
    ∃ s', run (restrict (fun s l => Pair.step rootSetup s (MetadataCall.call l))
        (Pair.portable rootSetup)) variedPair portableCalls = some s' ∧
      s'.Converged rootSetup := by
  have hsome : (run (restrict (fun s l => Pair.step rootSetup s (MetadataCall.call l))
      (Pair.portable rootSetup)) variedPair portableCalls).isSome = true := by decide
  obtain ⟨s', hrun⟩ := Option.isSome_iff_exists.mp hsome
  exact ⟨s', hrun, metadata_converges rootSetup (posixLoopback_posixEntries _ _) rfl rfl
    variedPair s' rfl portableCalls hrun⟩

/-- The operation is carried out by both peers and leaves them with different outlines. -/
def Pair.Diverges (c : Setup) (s : Pair) (l : MetadataCall) : Prop :=
  ∃ s', s.step c l.call = some s' ∧ ¬ s'.Converged c

/-- The outlines differ when they differ at some path. The examples give the paths to look at. -/
theorem Pair.diverges_of_get {c : Setup} {s : Pair} {l : MetadataCall} (qs : List Path)
    (h : (s.step c l.call).any (fun s' => ∃ q ∈ qs,
      (s'.mount.disk.tree.1.outline c.mirror.dir).get q ≠
        (s'.replica.1.outline c.peerMirror.dir).get q) = true) : s.Diverges c l := by
  rw [Option.any_eq_true] at h
  obtain ⟨s', hstep, hdiffers⟩ := h
  obtain ⟨q, -, hq⟩ := of_decide_eq_true hdiffers
  exact ⟨s', hstep, fun heq => hq (congrArg (fun t : Store => t.get q) heq)⟩

/-- A set-uid bit for `Setattr` and `Create`, `Rmdir` of a file, `Unlink` of an empty directory,
`Create` with `O_EXCL` and with `O_NOFOLLOW` on a link, and `Create` of a new file with
`O_DIRECTORY`, with `O_PATH` and with `O_TMPFILE`. -/
def divergingCalls : List MetadataCall :=
  [⟨[oldEntry], .setattr 0o4755, rfl⟩, ⟨[], .create newEntry 0 0o4755, rfl⟩,
    ⟨[], .rmdir oldEntry, rfl⟩, ⟨[], .unlink dirEntry, rfl⟩,
    ⟨[], .create linkEntry 0o200 0o644, rfl⟩, ⟨[], .create linkEntry 0o400000 0o644, rfl⟩,
    ⟨[], .create newEntry 0o200000 0o644, rfl⟩, ⟨[], .create newEntry 0o10000000 0o644, rfl⟩,
    ⟨[], .create newEntry 0o20200001 0o644, rfl⟩]

/-- A link to `/x`, which is a link back to the file `f` on one peer and nothing on the other
one. -/
def leadingTree : Tree := variedTree.add ["m"] "g" (.symlink "/x")

def leadingPair : Pair :=
  ⟨{ disk := { tree := leadingTree.add [] "x" (.symlink "/m/f") } }, leadingTree⟩

/-- The mirror directories have the same outline. What the link leads to is outside of them, and
there the two peers differ. -/
theorem leadingPair_converged : leadingPair.Converged rootSetup := by
  refine Store.ext (funext fun q => ?_)
  have hput : (leadingTree.add [] "x" (.symlink "/m/f")).1 =
      leadingTree.1.put ["x"] (.symlink "/m/f") := rfl
  show ((leadingTree.add [] "x" (.symlink "/m/f")).1.outline ["m"]).get q =
    (leadingTree.1.outline ["m"]).get q
  rw [hput, Store.get_outline, Store.get_outline, Store.get_put,
    Function.update_of_ne (by simp)]

/-- From mirror directories with the same outline each of these operations leads to different
ones, and so does a mode for a link that leads out of the directory. -/
theorem metadata_diverges :
    (variedPair.Converged rootSetup ∧ ∀ l ∈ divergingCalls, variedPair.Diverges rootSetup l) ∧
      leadingPair.Converged rootSetup ∧
        leadingPair.Diverges rootSetup ⟨[newEntry], .setattr 0o600, rfl⟩ := by
  refine ⟨⟨rfl, fun l hl => ?_⟩, leadingPair_converged,
    Pair.diverges_of_get [["f"]] (by decide)⟩
  have hobs : ∀ l ∈ divergingCalls, (variedPair.step rootSetup l.call).any (fun s' =>
      ∃ q ∈ [["f"], ["d"], ["g"], ["x"]],
        (s'.mount.disk.tree.1.outline rootSetup.mirror.dir).get q ≠
          (s'.replica.1.outline rootSetup.peerMirror.dir).get q) = true := by decide
  exact Pair.diverges_of_get _ (hobs l hl)

end ReplicatedFs.Rfs
