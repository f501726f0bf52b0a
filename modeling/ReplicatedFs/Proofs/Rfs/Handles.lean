import ReplicatedFs.Library.Posix.Entries
import ReplicatedFs.Proofs.Rfs.Addressing
import ReplicatedFs.Rfs.Replica

/-!
# `ReplicatedFs.Proofs.Rfs.Handles`: which file a handle names on the other peer

A `rootFile` keeps the path of its file from the time it was opened, and it puts this path into
its requests. Its descriptor stays with the file. So after a `Rename` of the file, or of another
file to its path, or after an `Unlink`, the handle writes to one file, and its requests name
another one.

`HandlesInv` holds while no such call is made: the mirror directories of both peers have the same
kinds of nodes at the same paths, and every handle has the path that its descriptor refers to.
It is kept by every operation at the root of the mount that leaves the paths of the open handles
alone (`HandlesInv.step`), since such an operation makes the same `Change` to both directories.

* `handles_designate`: then every request of a handle names the counterpart of its file, and it
  changes nothing else.
* `renamed_handle`: after a `Rename` it does not.
-/

set_option autoImplicit false

namespace ReplicatedFs.Rfs

open ReplicatedFs.Protobuf
open Library Library.Posix

/-- The operations at the root of the mount. -/
inductive RootOp
  | create (name : EntryName) (flags mode : UInt32)
  | openFile (name : EntryName) (flags : UInt32)
  | rename (name newName : EntryName) (flags : UInt32)
  | unlink (name : EntryName)
  | write (fh : Nat) (data : List UInt8) (offset : Int64)
  | copyFileRange (fhIn : Option Nat) (offIn : UInt64) (fhOut : Option Nat)
      (offOut len flags : UInt64)
  deriving DecidableEq

/-- The call of the operation. -/
def RootOp.call : RootOp → Call
  | .create name flags mode => .node "" (.create name.name flags mode)
  | .openFile name flags => .node name.name (.openFile flags)
  | .rename name newName flags => .node "" (.rename name.name "" newName.name flags)
  | .unlink name => .node "" (.unlink name.name)
  | .write fh data offset => .file fh (.write data offset)
  | .copyFileRange fhIn offIn fhOut offOut len flags =>
    .node "" (.copyFileRange fhIn offIn fhOut offOut len flags)

section Guards
variable (c : Setup) (s : Pair)

/-- No handle that is open has the path. -/
def Pair.unopened (path : String) : Bool :=
  s.mount.handles.all fun h => h.all fun f => f.path ≠ path

/-- A change of the entries is carried out by both peers. -/
def Pair.carriedOut (op : RootOp) : Bool :=
  match op with
  | .create _ _ _ | .rename _ _ _ | .unlink _ => s.succeeds c op.call
  | _ => true

/-- The operation leaves the paths of the open handles alone. A symbolic link is not opened, and
`Open` does not create a file. -/
def Pair.leavesHandles : RootOp → Bool
  | .create name _ _ => s.mount.disk.tree.1.kinds c.mirror.dir [name.name] ≠ some .symlink
  | .openFile name flags =>
    s.mount.disk.tree.1.kinds c.mirror.dir [name.name] ≠ some .symlink ∧
      (OpenFlags.ofBits (flags &&& ~~~0o2000)).create = false
  | .rename name newName flags =>
    flags &&& 2 = 0 ∧ s.unopened name.name = true ∧ s.unopened newName.name = true
  | .unlink name => s.unopened name.name
  | .write _ _ _ | .copyFileRange _ _ _ _ _ _ => true

/-- One operation that is carried out and leaves the handles alone. -/
def Pair.orderlyStep : Pair → RootOp → Option Pair :=
  restrict (restrict (fun s op => s.step c op.call) (Pair.carriedOut c)) (Pair.leavesHandles c)

end Guards

/-- The descriptor of the handle refers to the entry of the mirror directory that its path
names. -/
def SoundHandle (c : Setup) (d : Disk) (f : Handle) : Prop :=
  ∃ (name : EntryName) (file : OpenFile) (type : FileType), f.path = name.name ∧
    d.file? f.fd = some file ∧ file.ref = .named (c.mirror.dir ++ [name.name]) ∧
    d.tree.1.kinds c.mirror.dir [name.name] = some type ∧ type ≠ .symlink

/-- The same kinds of nodes below both mirror directories, and sound handles. -/
structure HandlesInv (c : Setup) (s : Pair) : Prop where
  plain : s.mount.disk.tree.1.Plain true c.mirror.dir
  peerPlain : s.replica.1.Plain true c.peerMirror.dir
  kinds : s.mount.disk.tree.1.kinds c.mirror.dir = s.replica.1.kinds c.peerMirror.dir
  handles : ∀ fh f, s.mount.handle? fh = some f → SoundHandle c s.mount.disk f

section Paths
variable (m : Mirror) (name : EntryName)

/-- The mirror keeps an entry of its root directly below its directory. -/
@[simp] theorem path_entry : m.path name.name = m.dir ++ [name.name] := by
  rw [← slashPath_singleton, path_slashPath]
  rfl

/-- That path is normal, since the name of an entry is neither `.` nor `..`. -/
theorem normal_entry : Normal (m.dir ++ [name.name]) := by
  rw [← path_entry]
  exact m.normal_path _

/-- `rfsRoot` names an entry of its root by the name alone. This is the path that the requests
carry. -/
@[simp] theorem relativePath_root : relativePath "" name.name = name.name := by
  simpa using relativePath_entry [] name

/-- On the disk of the mirror the entry is below the directory of the mirror. -/
@[simp] theorem physicalPath_root :
    physicalPath m "" name.name = m.dir ++ [name.name] := by
  rw [physicalPath, relativePath_root, path_entry]

/-- The loopback node uses the same path, so that both sides work on one file. -/
@[simp] theorem loopbackPath_root :
    loopbackPath m "" name.name = m.dir ++ [name.name] := by
  simpa [EntryName.values] using loopbackPath_entry [] m name

end Paths

section Steps
variable {c : Setup} {s s' : Pair}

/-- A change of the entries that is the same on both sides keeps the invariant, as long as the
handles are sound. The two changes need not be equal. It is enough that they do the same to the
kinds of the entries. -/
theorem HandlesInv.of_changes (h : HandlesInv c s) {ch ch' : Change} {e e' : Edit}
    (he : e.Does c.mirror.dir ch) (he' : e'.Does c.peerMirror.dir ch')
    (htree : s'.mount.disk.tree.1 = e.apply s.mount.disk.tree.1)
    (hreplica : s'.replica.1 = e'.apply s.replica.1)
    (hkinds : ch.apply (s.mount.disk.tree.1.kinds c.mirror.dir) =
      ch'.apply (s.mount.disk.tree.1.kinds c.mirror.dir))
    (hhandles : ∀ fh f, s'.mount.handle? fh = some f → SoundHandle c s'.mount.disk f) :
    HandlesInv c s' where
  plain := by
    rw [htree]
    exact he.plain h.plain
  peerPlain := by
    rw [hreplica]
    exact he'.plain h.peerPlain
  kinds := by rw [htree, hreplica, he.kinds, he'.kinds, hkinds, h.kinds]
  handles := hhandles

/-- A handle stays sound when its entry is spared. Without this the path of the handle would name
another file. -/
theorem SoundHandle.commit {d : Disk} {f : Handle} (h : SoundHandle c d f) {ch : Change}
    {e : Edit} (he : e.Does c.mirror.dir ch) (ha : e.Allowed d.tree.1)
    (hspares : ch.spares f.path = true) : SoundHandle c (d.commit e ha) f := by
  obtain ⟨name, file, type, hpath, hfile, href, htype, hne⟩ := h
  rw [hpath] at hspares
  have hkinds : (d.commit e ha).tree.1.kinds c.mirror.dir =
      ch.apply (d.tree.1.kinds c.mirror.dir) := he.kinds
  have hfile' := Disk.file?_commit he ha hfile href hspares
  rcases Change.apply_spared (k := d.tree.1.kinds c.mirror.dir) hspares with hsame | hregular
  · exact ⟨name, file, type, hpath, hfile', href, by rw [hkinds, hsame, htype], hne⟩
  · exact ⟨name, file, .regular, hpath, hfile', href, by rw [hkinds, hregular], by decide⟩

/-- A handle stays sound when another descriptor is added, as descriptors are never reused in the
model. -/
theorem SoundHandle.append {d : Disk} {f : Handle} (h : SoundHandle c d f)
    (file : Option OpenFile) : SoundHandle c { d with files := d.files ++ [file] } f := by
  obtain ⟨name, file', type, hpath, hfile, href, htype, hne⟩ := h
  refine ⟨name, file', type, hpath, ?_, href, htype, hne⟩
  unfold Disk.file? at hfile ⊢
  cases hget : d.files[f.fd]? with
  | none => simp [hget] at hfile
  | some x =>
    rw [List.getElem?_append_left (List.getElem?_eq_some_iff.mp hget).1, hget]
    rw [hget] at hfile
    exact hfile

/-- A handle to an entry that is not a link, with the last descriptor. -/
theorem SoundHandle.opened {d : Disk} {name : EntryName} (type : FileType)
    (htype : d.tree.1.kinds c.mirror.dir [name.name] = some type) (hne : type ≠ .symlink)
    (read write : Bool) :
    SoundHandle c
      { d with files := d.files ++ [some ⟨.named (c.mirror.dir ++ [name.name]), read, write⟩] }
      ⟨name.name, d.files.length⟩ :=
  ⟨name, ⟨.named (c.mirror.dir ++ [name.name]), read, write⟩, type, rfl, by simp [Disk.file?],
    rfl, htype, hne⟩

/-- Opening an entry: the new handle is sound, and the old ones stay so. The entry must not be a
link, because the descriptor would be one of the file behind the link, while the handle has the path
of the link. A call that fails leaves the mount as it is. -/
theorem HandlesInv.open_handles (h : HandlesInv c s) {name : EntryName} {flags : UInt32}
    {mode : Mode} (hlink : s.mount.disk.tree.1.kinds c.mirror.dir [name.name] ≠ some .symlink)
    {mount : Mount} {errno : Option Errno}
    (hopen : s.mount.openFile c.proc flags mode (c.mirror.dir ++ [name.name]) name.name =
      (mount, errno)) :
    (mount = s.mount ∧ errno.isSome) ∨
      ((s.mount.disk.tree.1.kinds c.mirror.dir [name.name] = none →
          (OpenFlags.ofBits (flags &&& ~~~0o2000)).create = true) ∧
        ∃ (e : Edit) (ch : Change), e.Does c.mirror.dir ch ∧
          mount.disk.tree.1 = e.apply s.mount.disk.tree.1 ∧
          ch.apply (s.mount.disk.tree.1.kinds c.mirror.dir) =
            (if s.mount.disk.tree.1.kinds c.mirror.dir [name.name] = none then
              (Change.file name.name).apply (s.mount.disk.tree.1.kinds c.mirror.dir)
            else s.mount.disk.tree.1.kinds c.mirror.dir) ∧
          ∀ fh f, mount.handle? fh = some f → SoundHandle c mount.disk f) := by
  unfold Mount.openFile at hopen
  split at hopen
  · rename_i disk err hdisk
    cases hopen
    obtain rfl := Disk.openFile_eq_error hdisk
    exact .inl ⟨rfl, rfl⟩
  · rename_i disk fd hdisk
    cases hopen
    obtain ⟨q, e, ha, hcall, rfl, rfl⟩ := Disk.openFile_eq_ok hdisk
    obtain ⟨rfl, hcreate, ch, he, hch, happly⟩ := openFile_does (normal_entry c.mirror name)
      (h.plain.entry_of_ne hlink _) hcall
    refine .inr ⟨hcreate, e, ch, he, rfl, happly, fun fh f hf => ?_⟩
    -- The new handle is the last one.
    rcases lt_trichotomy fh s.mount.handles.length with hlt | rfl | hgt
    · have hold : s.mount.handle? fh = some f := by
        unfold Mount.handle? at hf ⊢
        rwa [List.getElem?_append_left hlt] at hf
      have hspares : ch.spares f.path = true := by rcases hch with rfl | rfl <;> rfl
      exact ((h.handles fh f hold).commit he ha hspares).append _
    · have hnew : f = ⟨name.name, (s.mount.disk.commit e ha).files.length⟩ := by
        simpa [Mount.handle?] using hf.symm
      subst hnew
      have hkinds : (s.mount.disk.commit e ha).tree.1.kinds c.mirror.dir =
          ch.apply (s.mount.disk.tree.1.kinds c.mirror.dir) := he.kinds
      cases hkind : s.mount.disk.tree.1.kinds c.mirror.dir [name.name] with
      | none =>
        refine SoundHandle.opened .regular ?_ (by decide) _ _
        rw [hkinds, happly, if_pos hkind]
        simp [Change.apply]
      | some type =>
        refine SoundHandle.opened type ?_ (fun heq => hlink (by rw [hkind, heq])) _ _
        rw [hkinds, happly, if_neg (by simp [hkind]), hkind]
    · unfold Mount.handle? at hf
      rw [List.getElem?_eq_none (by simp; omega)] at hf
      cases hf

/-- A function without an error has an edit, which is the one that the kernel makes. -/
private theorem edit_of_outcome {x : Except OsError Edit} {e : Edit}
    (h : outcome x = (e, none)) : x = .ok e := by
  cases x with
  | error err => cases h
  | ok e' =>
    cases h
    rfl

/-- `Create` makes a file on both sides. The new handle has the name of the new entry. `hsucc` says
that neither side fails, because a file that is made on one side only would break the invariant. -/
theorem HandlesInv.create (h : HandlesInv c s) {name : EntryName} {flags mode : UInt32}
    (hlink : s.mount.disk.tree.1.kinds c.mirror.dir [name.name] ≠ some .symlink)
    (hsucc : s.succeeds c (RootOp.create name flags mode).call = true)
    (hstep : s.step c (RootOp.create name flags mode).call = some s') : HandlesInv c s' := by
  rcases Pair.step_cases (RootOp.create name flags mode).call rfl rfl hstep with
    rfl | ⟨e', err, hmount, hchange, hreplica, hok⟩
  · exact h
  -- The call succeeds on both sides, by the hypothesis.
  obtain ⟨hnone, rfl⟩ := hok hsucc
  simp only [Guarded.create, physicalPath_root, relativePath_root] at hmount hnone
  rcases h.open_handles hlink (Prod.mk.eta).symm with ⟨-, hsome⟩ | ⟨-, e, ch, he, htree, hch, hh⟩
  · rw [hnone] at hsome
    cases hsome
  rw [hmount] at htree hh
  -- The mirrored call opens the counterpart, which is of the same kind.
  simp only [Guarded.create, Mirror.change, relativePath_root, path_entry, Except.ok.injEq]
    at hchange
  obtain ⟨q, hopen⟩ := osOpenFile_snd_eq_ok (edit_of_outcome hchange)
  rw [h.kinds] at hlink
  obtain ⟨-, -, ch', he', -, hch'⟩ := openFile_does (normal_entry c.peerMirror name)
    (h.peerPlain.entry_of_ne hlink _) hopen
  refine h.of_changes he he' htree hreplica ?_ hh
  rw [hch, h.kinds, hch']

/-- `Open` leaves the entries as they are. It sends no request, so with `O_CREAT` it would make a
file on this side only. -/
theorem HandlesInv.openFile (h : HandlesInv c s) {name : EntryName} {flags : UInt32}
    (hlink : s.mount.disk.tree.1.kinds c.mirror.dir [name.name] ≠ some .symlink)
    (hcreate : (OpenFlags.ofBits (flags &&& ~~~0o2000)).create = false)
    (hstep : s.step c (RootOp.openFile name flags).call = some s') : HandlesInv c s' := by
  obtain ⟨errno, err, hcall, hmirrored⟩ := Pair.step_eq_some.mp hstep
  have hreplica : s.replica = s'.replica := congrArg Prod.fst (Except.ok.inj hmirrored)
  have hopen : s.mount.openFile c.proc flags 0 (c.mirror.path name.name) name.name =
      (s'.mount, errno) := Except.ok.inj (Option.some.inj hcall)
  rw [path_entry] at hopen
  rcases h.open_handles hlink hopen with ⟨hmount, -⟩ | ⟨hnew, e, ch, he, htree, hch, hh⟩
  · rw [show s' = s from Pair.ext hmount hreplica.symm]
    exact h
  · refine h.of_changes he .keep htree (by rw [← hreplica]; rfl) ?_ hh
    rw [hch]
    split
    · -- Without `O_CREAT` an entry that is not there is not opened.
      rename_i hnone
      rw [hnew hnone] at hcreate
      cases hcreate
    · rfl

/-- An open handle does not have a path that is not opened, so a change of that path spares it. -/
theorem Pair.path_ne_of_unopened {path : String} (h : s.unopened path = true) {fh : Nat}
    {f : Handle} (hf : s.mount.handle? fh = some f) : f.path ≠ path := by
  have hmem : some f ∈ s.mount.handles := by
    unfold Mount.handle? at hf
    cases hget : s.mount.handles[fh]? with
    | none => simp [hget] at hf
    | some x =>
      obtain rfl : x = some f := by simpa [hget] using hf
      exact List.mem_of_getElem? hget
  have hall := List.all_eq_true.mp h (some f) hmem
  simpa using hall

/-- A change of the entries by a plain system call. It is the same change of the names on both
sides, and it spares the open files. -/
theorem HandlesInv.perform (h : HandlesInv c s) {x : Except Errno Edit}
    {hx : ∀ e, x = .ok e → e.Allowed s.mount.disk.tree.1} (ch : Change) {e' : Edit}
    (hmount : s'.mount = { s.mount with disk := (s.mount.disk.perform x hx).1 })
    (hnone : (s.mount.disk.perform x hx).2 = none)
    (hdoes : ∀ e, x = .ok e → e.Does c.mirror.dir ch)
    (he' : e'.Does c.peerMirror.dir ch) (hreplica : s'.replica.1 = e'.apply s.replica.1)
    (hspares : ∀ fh f, s.mount.handle? fh = some f → ch.spares f.path = true) :
    HandlesInv c s' := by
  -- No errno, so the call made its edit.
  have hperform : s.mount.disk.perform x hx = ((s.mount.disk.perform x hx).1, none) :=
    Prod.ext rfl hnone
  obtain ⟨e, ha, hok, hdisk⟩ := Disk.perform_eq_none hperform
  have he := hdoes e hok
  rw [hdisk] at hmount
  refine h.of_changes he he' (by rw [hmount]; rfl) hreplica rfl fun fh f hf => ?_
  rw [hmount] at hf ⊢
  exact (h.handles fh f hf).commit he ha (hspares fh f hf)

/-- `Rename` moves the entry on both sides. Neither name may be open, since a handle keeps the path
of its opening. -/
theorem HandlesInv.rename (h : HandlesInv c s) (hlb : c.loopback.Posix c.mirror c.proc)
    {name newName : EntryName} {flags : UInt32} (hflags : flags &&& 2 = 0)
    (hold : s.unopened name.name = true) (hnew : s.unopened newName.name = true)
    (hsucc : s.succeeds c (RootOp.rename name newName flags).call = true)
    (hstep : s.step c (RootOp.rename name newName flags).call = some s') :
    HandlesInv c s' := by
  rcases Pair.step_cases (RootOp.rename name newName flags).call rfl rfl hstep with
    rfl | ⟨e', err, hmount, hchange, hreplica, hok⟩
  · exact h
  obtain ⟨hnone, rfl⟩ := hok hsucc
  -- At the root the path of the new parent is empty, and joining it changes nothing.
  have hjoin : join ["", newName.name] = newName.name := by
    simpa using join_slashPath [] [newName]
  simp only [Guarded.rename, Mirror.change, relativePath_root, hjoin, path_entry, Except.ok.injEq]
    at hchange
  simp only [Guarded.rename, Mount.withDisk, hlb.rename _ _ _ _ _ _ hflags, posixLoopback, hflags,
    ne_eq,
    not_true_eq_false, if_false, loopbackPath_root] at hmount hnone
  refine h.perform (if name.name = newName.name then .keep else .move name.name newName.name)
    hmount.symm hnone (fun e he => ?_) ?_ hreplica fun fh f hf => ?_
  · exact rename_does (normal_entry _ _) (normal_entry _ _) h.plain he
  · exact osRename_does (normal_entry _ _) (normal_entry _ _) h.peerPlain
      (edit_of_outcome hchange)
  · have hne := Pair.path_ne_of_unopened hold hf
    have hne' := Pair.path_ne_of_unopened hnew hf
    split
    · rfl
    · exact decide_eq_true ⟨hne.symm, hne'.symm⟩

/-- `Unlink` drops the entry on both sides. The hypothesis keeps it away from the paths of the open
handles, since a request names a file by its path. -/
theorem HandlesInv.unlink (h : HandlesInv c s) (hlb : c.loopback.Posix c.mirror c.proc)
    {name : EntryName} (hunopened : s.unopened name.name = true)
    (hsucc : s.succeeds c (RootOp.unlink name).call = true)
    (hstep : s.step c (RootOp.unlink name).call = some s') : HandlesInv c s' := by
  rcases Pair.step_cases (RootOp.unlink name).call rfl rfl hstep with
    rfl | ⟨e', err, hmount, hchange, hreplica, hok⟩
  · exact h
  obtain ⟨hnone, rfl⟩ := hok hsucc
  simp only [Guarded.unlink, Mirror.change, relativePath_root, path_entry, Except.ok.injEq]
    at hchange
  simp only [Guarded.unlink, Mount.withDisk, hlb.unlink, posixLoopback, loopbackPath_root]
    at hmount hnone
  refine h.perform (.drop name.name) hmount.symm hnone (fun e he => ?_) ?_ hreplica
    fun fh f hf => ?_
  · exact unlink_does (normal_entry _ _) h.plain he
  · exact osRemove_does (normal_entry _ _) h.peerPlain (edit_of_outcome hchange)
  · exact decide_eq_true (Pair.path_ne_of_unopened hunopened hf).symm

/-- What the mirrored `WRITE` of an entry does, when the entry is there. It opens the file with
`O_CREATE` and `O_TRUNC`, so without the entry it would make one. The content has no part in the
kinds of the entries. -/
theorem write_does {m : Mirror} (proc : Process) {t : Store} (hplain : t.Plain true m.dir)
    {name : EntryName} {type : FileType} (htype : t.kinds m.dir [name.name] = some type)
    (hne : type ≠ .symlink) (md : Metadata) (hmd : md.relativePath = name.name)
    (content : List UInt8) :
    ∃ ch, (m.write proc t md content).1.Does m.dir ch ∧ (ch = .keep ∨ ch = .file name.name) ∧
      ch.apply (t.kinds m.dir) = t.kinds m.dir := by
  have hlink : t.kinds m.dir [name.name] ≠ some .symlink := by simpa [htype] using hne
  simp only [Mirror.write, hmd, path_entry]
  split
  · exact ⟨.keep, .keep, .inl rfl, rfl⟩
  · rename_i q e hopen
    obtain ⟨-, -, ch, he, hch, happly⟩ := openFile_does (normal_entry m name)
      (hplain.entry_of_ne hlink _) (ok_of_mapError hopen)
    rw [if_neg (by simp [htype])] at happly
    refine ⟨ch, ?_, hch, happly⟩
    -- Writing to the opened file leaves it a file.
    cases he with
    | keep => exact .keep
    | file n mode old =>
      simp only [writeAt]
      split <;> exact .file n _ _
    | drop n => simp at hch
    | move old new => simp at hch

/-- What the mirrored `COPY_FILE_RANGE` does to its second file. -/
theorem copy_does {m : Mirror} (proc : Process) {t : Store} (hplain : t.Plain true m.dir)
    {name : EntryName} {type : FileType} (htype : t.kinds m.dir [name.name] = some type)
    (hne : type ≠ .symlink) (md : Metadata) (hmd : md.newRelativePath = name.name) :
    ∃ ch, (m.copyFileRange proc t md).1.Does m.dir ch ∧
      (ch = .keep ∨ ch = .file name.name) ∧ ch.apply (t.kinds m.dir) = t.kinds m.dir := by
  have hlink : t.kinds m.dir [name.name] ≠ some .symlink := by simpa [htype] using hne
  simp only [Mirror.copyFileRange, hmd, path_entry]
  split
  · exact ⟨.keep, .keep, .inl rfl, rfl⟩
  split
  · exact ⟨.keep, .keep, .inl rfl, rfl⟩
  rename_i src _ _ _ dst _ hdst
  -- `Mirror` opens both files by their paths. Only what it does to the second one is left to look
  -- at.
  obtain ⟨rfl, -, -⟩ := openFile_does (normal_entry m name) (hplain.entry_of_ne hlink _) hdst
  cases hcopy : Library.Posix.copyFileRange proc t src (m.dir ++ [name.name]) md.readOffset
      md.writeOffset md.writeLen with
  | error err => exact ⟨.keep, .keep, .inl rfl, rfl⟩
  | ok result =>
    unfold Library.Posix.copyFileRange at hcopy
    split at hcopy
    · rename_i hsrc hget
      split at hcopy
      · cases hcopy
      · cases hcopy
        refine ⟨.file name.name, .file _ _ _, .inr rfl, Change.file_apply ?_⟩
        simp [Store.kinds, hget, Node.type]
    · cases hcopy

/-- The path of a handle names an entry of the other peer that is not a link. -/
theorem HandlesInv.peer_entry (h : HandlesInv c s) {fh : Nat} {f : Handle}
    (hf : s.mount.handle? fh = some f) :
    ∃ (name : EntryName) (type : FileType), f.path = name.name ∧
      s.replica.1.kinds c.peerMirror.dir [name.name] = some type ∧ type ≠ .symlink := by
  obtain ⟨name, file, type, hpath, -, -, htype, hne⟩ := h.handles fh f hf
  exact ⟨name, type, hpath, by rw [← h.kinds, htype], hne⟩

/-- New content in the file of a handle, on both sides. The names stay, and so do the files of the
other handles. The two sides need not write the same: the mirrored call may open its file and fail
to write, while the call here fails before. -/
theorem HandlesInv.content (h : HandlesInv c s) {fh : Nat} {f : Handle}
    (hf : s.mount.handle? fh = some f) {disk : Disk}
    (hmount : s'.mount = { s.mount with disk })
    (hdisk : disk = s.mount.disk ∨ ∃ file content, s.mount.disk.file? f.fd = some file ∧
      disk = s.mount.disk.setContent content file.ref)
    {e' : Edit} {ch' : Change} (he' : e'.Does c.peerMirror.dir ch')
    (hch' : ch'.apply (s.replica.1.kinds c.peerMirror.dir) =
      s.replica.1.kinds c.peerMirror.dir)
    (hreplica : s'.replica.1 = e'.apply s.replica.1) : HandlesInv c s' := by
  -- A call that fails writes nothing, while the mirrored one may still open the file.
  have hkeep : disk = s.mount.disk → HandlesInv c s' := by
    intro hsame
    refine h.of_changes .keep he' (by rw [hmount, hsame]; rfl) hreplica ?_ fun fh f hf => ?_
    · rw [h.kinds, hch']
      rfl
    · rw [hmount, hsame] at hf ⊢
      exact h.handles fh f hf
  rcases hdisk with hsame | ⟨file, content, hfile, hset⟩
  · exact hkeep hsame
  · obtain ⟨name, file', type, -, hfile', href, -⟩ := h.handles fh f hf
    obtain rfl : file = file' := Option.some.inj (hfile.symm.trans hfile')
    rw [href] at hset
    rcases s.mount.disk.setContent_cases content (c.mirror.dir ++ [name.name]) with
      hsame | ⟨mode, old, ha, hget, hcommit⟩
    · exact hkeep (hset.trans hsame)
    · have he : (Edit.put (c.mirror.dir ++ [name.name]) (.file mode content)).Does
          c.mirror.dir (.file name.name) := .file name.name mode content
      rw [hset, hcommit] at hmount
      refine h.of_changes he he' (by rw [hmount]; rfl) hreplica ?_ fun fh f hf => ?_
      · rw [Change.file_apply (by simp [Store.kinds, hget, Node.type]), h.kinds, hch']
      · rw [hmount] at hf ⊢
        exact (h.handles fh f hf).commit he ha rfl

/-- `Write` changes the content of one file on both sides. The contents may differ afterwards, but
the entries do not. -/
theorem HandlesInv.write (h : HandlesInv c s) (hlb : c.loopback.Posix c.mirror c.proc)
    {fh : Nat} {data : List UInt8} {offset : Int64}
    (hstep : s.step c (RootOp.write fh data offset).call = some s') : HandlesInv c s' := by
  cases hf : s.mount.handle? fh with
  | none =>
    obtain ⟨errno, err, hcall, -⟩ := Pair.step_eq_some.mp hstep
    simp [RootOp.call, Mount.call, Mount.guarded?, Mount.alone, hf] at hcall
  | some f =>
    have hg : s.mount.guarded? (RootOp.write fh data offset).call =
        some (.write f data offset) := Mount.guarded?_write hf data offset
    have hreq := Mount.request?_of_guarded hg
    have hcall := Mount.call_of_guarded c.mirror c.proc c.loopback hg none
    rcases Pair.step_cases _ hreq hcall hstep with
      rfl | ⟨e', err, hmount, hchange, hreplica, -⟩
    · exact h
    -- The handle is sound, so the mirrored write finds its entry there.
    obtain ⟨name, type, hpath, htype, hne⟩ := h.peer_entry hf
    obtain ⟨ch', he', -, hch'⟩ := write_does c.peerProc h.peerPlain htype hne
      (writeMetadata f offset) hpath data
    have hedit := congrArg Prod.fst (Except.ok.inj hchange)
    rw [show e' = _ from hedit.symm] at hreplica
    refine h.content hf hmount.symm ?_ he' hch' hreplica
    rw [hlb.write]
    exact s.mount.disk.pwrite_cases f.fd data offset

/-- `CopyFileRange` changes the content of one file on both sides. It asks the peers with the paths
of both handles. As the handles are sound, these are the paths of the files that the descriptors
lead to. -/
theorem HandlesInv.copyFileRange (h : HandlesInv c s) {fhIn fhOut : Option Nat}
    {offIn offOut len flags : UInt64}
    (hstep : s.step c (RootOp.copyFileRange fhIn offIn fhOut offOut len flags).call = some s') :
    HandlesInv c s' := by
  cases hin : fhIn.bind s.mount.handle? with
  | none =>
    obtain ⟨errno, err, hcall, -⟩ := Pair.step_eq_some.mp hstep
    -- A handle that is not a `rootFile` is a nil pointer, and there is no step.
    simp [RootOp.call, Mount.call, Mount.guarded?, Mount.alone, hin] at hcall
  | some f =>
    cases hout : fhOut.bind s.mount.handle? with
    | none =>
      obtain ⟨errno, err, hcall, -⟩ := Pair.step_eq_some.mp hstep
      simp [RootOp.call, Mount.call, Mount.guarded?, Mount.alone, hin, hout] at hcall
    | some g =>
      have hop : s.mount.guarded? (RootOp.copyFileRange fhIn offIn fhOut offOut len flags).call =
          some (.copyFileRange f g offIn offOut len flags) :=
        Mount.guarded?_copyFileRange hin hout "" offIn offOut len flags
      have hreq := Mount.request?_of_guarded hop
      have hcall := Mount.call_of_guarded c.mirror c.proc c.loopback hop none
      rcases Pair.step_cases _ hreq hcall hstep with
        rfl | ⟨e', err, hmount, hchange, hreplica, -⟩
      · exact h
      obtain ⟨fh, -, hg⟩ := Option.bind_eq_some_iff.mp hout
      obtain ⟨name, type, hpath, htype, hne⟩ := h.peer_entry hg
      obtain ⟨ch', he', -, hch'⟩ := copy_does c.peerProc h.peerPlain htype hne
        (copyMetadata f g offIn offOut len) hpath
      have hedit := congrArg Prod.fst (Except.ok.inj hchange)
      rw [show e' = _ from hedit.symm] at hreplica
      exact h.content hg hmount.symm (s.mount.disk.copyFileRange_cases ..) he' hch' hreplica

/-- Every operation that leaves the handles alone keeps the invariant. There is one lemma for each
operation, as the two sides do different things in each of them. -/
theorem HandlesInv.step (h : HandlesInv c s) (hlb : c.loopback.Posix c.mirror c.proc)
    {op : RootOp} (hstep : Pair.orderlyStep c s op = some s') : HandlesInv c s' := by
  -- What the guards of an orderly step say: the operation leaves the handles alone, and it succeeds
  -- on both sides.
  obtain ⟨hleaves, hcarried⟩ := restrict_eq_some.mp hstep
  obtain ⟨hsucc, hstep⟩ := restrict_eq_some.mp hcarried
  cases op with
  | create name flags mode => exact h.create (of_decide_eq_true hleaves) hsucc hstep
  | openFile name flags =>
    obtain ⟨hlink, hcreate⟩ := of_decide_eq_true hleaves
    exact h.openFile hlink hcreate hstep
  | rename name newName flags =>
    obtain ⟨hflags, hold, hnew⟩ := of_decide_eq_true hleaves
    exact h.rename hlb hflags hold hnew hsucc hstep
  | unlink name => exact h.unlink hlb hleaves hsucc hstep
  | write fh data offset => exact h.write hlb hstep
  | copyFileRange fhIn offIn fhOut offOut len flags => exact h.copyFileRange hstep

end Steps

/-- The path names the counterpart of the file that the descriptor of the handle refers to, and
both are there. -/
def Designates (c : Setup) (s : Pair) (fh : Nat) (path : String) : Prop :=
  ∃ f file rel type, s.mount.handle? fh = some f ∧ s.mount.disk.file? f.fd = some file ∧
    file.ref = .named (c.mirror.dir ++ rel) ∧ c.peerMirror.path path = c.peerMirror.dir ++ rel ∧
    s.mount.disk.tree.1.kinds c.mirror.dir rel = some type ∧
    s.replica.1.kinds c.peerMirror.dir rel = some type ∧ type ≠ .symlink

/-- Mirroring the request changes nothing but what is at the path. -/
def ChangesOnly (c : Setup) (s : Pair) (req : Request) (path : String) : Prop :=
  ∀ replica err, c.peerMirror.mirror c.peerProc s.replica (some req) = .ok (replica, err) →
    ∀ q, q ≠ c.peerMirror.path path → replica.1.get q = s.replica.1.get q

section Requests
variable {c : Setup} {s : Pair}

/-- The path of a sound handle names the counterpart of its file. -/
theorem HandlesInv.designates (h : HandlesInv c s) {fh : Nat} {f : Handle}
    (hf : s.mount.handle? fh = some f) : Designates c s fh f.path := by
  obtain ⟨name, file, type, hpath, hfile, href, htype, hne⟩ := h.handles fh f hf
  refine ⟨f, file, [name.name], type, hf, hfile, href, ?_, htype, by rw [← h.kinds, htype], hne⟩
  rw [hpath, path_entry]

/-- A request whose edit is at most a change of one file. It is used for the requests of the
handles. -/
private theorem changesOnly_of_does {req : Request} {name : EntryName}
    (hdoes : ∀ e err, c.peerMirror.change c.peerProc s.replica.1 req = .ok (e, err) →
      ∃ ch, e.Does c.peerMirror.dir ch ∧ (ch = .keep ∨ ch = .file name.name)) :
    ChangesOnly c s req name.name := by
  intro replica err hmirror q hq
  rw [path_entry] at hq
  cases hchange : c.peerMirror.change c.peerProc s.replica.1 req with
  | error p =>
    rw [Mirror.mirror_of_error hchange] at hmirror
    cases hmirror
  | ok result =>
    rw [Mirror.mirror_of_ok hchange] at hmirror
    cases hmirror
    obtain ⟨ch, he, hch⟩ := hdoes result.1 result.2 hchange
    exact he.get_of_file hch hq

/-- The request of `Write`: it carries the path that the handle was opened with, and that is still
the path of its file. -/
theorem HandlesInv.write_request (h : HandlesInv c s) {fh : Nat} {data : List UInt8}
    {offset : Int64} {req : Request}
    (hreq : s.mount.request? (RootOp.write fh data offset).call = some req) :
    ∃ md, req.metadata = some md ∧ Designates c s fh md.relativePath ∧
      ChangesOnly c s req md.relativePath := by
  obtain ⟨op, hop, rfl⟩ := Option.map_eq_some_iff.mp hreq
  obtain ⟨f, hf, rfl⟩ := Option.map_eq_some_iff.mp hop
  refine ⟨writeMetadata f offset, rfl, h.designates hf, ?_⟩
  obtain ⟨name, type, hpath, htype, hne⟩ := h.peer_entry hf
  show ChangesOnly c s _ f.path
  rw [hpath]
  refine changesOnly_of_does fun e err hchange => ?_
  obtain ⟨ch, he, hch, -⟩ := write_does c.peerProc h.peerPlain htype hne
    (writeMetadata f offset) hpath data
  -- `change` makes the edit of `write` for a request of this type.
  have hedit : (c.peerMirror.write c.peerProc s.replica.1 (writeMetadata f offset) data).1 = e :=
    congrArg Prod.fst (Except.ok.inj hchange)
  exact ⟨ch, hedit ▸ he, hch⟩

/-- The request of `CopyFileRange`, which names two files. The second is the one that changes. -/
theorem HandlesInv.copy_request (h : HandlesInv c s) {fhIn fhOut : Option Nat}
    {offIn offOut len flags : UInt64} {req : Request}
    (hreq : s.mount.request? (RootOp.copyFileRange fhIn offIn fhOut offOut len flags).call =
      some req) :
    ∃ i j md, fhIn = some i ∧ fhOut = some j ∧ req.metadata = some md ∧
      Designates c s i md.relativePath ∧ Designates c s j md.newRelativePath ∧
      ChangesOnly c s req md.newRelativePath := by
  obtain ⟨op, hop, rfl⟩ := Option.map_eq_some_iff.mp hreq
  simp only [RootOp.call, Mount.guarded?] at hop
  split at hop
  · rename_i f g hin hout
    cases hop
    obtain ⟨i, rfl, hf⟩ := Option.bind_eq_some_iff.mp hin
    obtain ⟨j, rfl, hg⟩ := Option.bind_eq_some_iff.mp hout
    refine ⟨i, j, copyMetadata f g offIn offOut len, rfl, rfl, rfl, h.designates hf,
      h.designates hg, ?_⟩
    obtain ⟨name, type, hpath, htype, hne⟩ := h.peer_entry hg
    show ChangesOnly c s _ g.path
    rw [hpath]
    refine changesOnly_of_does fun e err hchange => ?_
    obtain ⟨ch, he, hch, -⟩ := copy_does c.peerProc h.peerPlain htype hne
      (copyMetadata f g offIn offOut len) hpath
    have hedit : (c.peerMirror.copyFileRange c.peerProc s.replica.1
        (copyMetadata f g offIn offOut len)).1 = e := congrArg Prod.fst (Except.ok.inj hchange)
    exact ⟨ch, hedit ▸ he, hch⟩
  · cases hop

end Requests

/-- From equal trees and no handles, in every state that is reached by operations at the root of
the mount that both peers carry out and that leave the paths of the open handles alone, every
`WRITE` and `COPY_FILE_RANGE` request of a handle names the counterpart of its file on the other
peer, and it changes nothing else there. -/
theorem handles_designate (c : Setup) (hlb : c.loopback.Posix c.mirror c.proc) (s₀ s : Pair)
    (hplain : s₀.mount.disk.tree.1.Plain true c.mirror.dir)
    (hpeer : s₀.replica.1.Plain true c.peerMirror.dir)
    (hequal : ∀ rel, s₀.mount.disk.tree.1.get (c.mirror.dir ++ rel) =
      s₀.replica.1.get (c.peerMirror.dir ++ rel))
    (hnone : s₀.mount.handles = []) (hreach : Reaches (Pair.orderlyStep c) s₀ s) (op : RootOp)
    (req : Request) (hreq : s.mount.request? op.call = some req) :
    (∀ fh data offset, op = .write fh data offset → ∃ md, req.metadata = some md ∧
      Designates c s fh md.relativePath ∧ ChangesOnly c s req md.relativePath) ∧
    ∀ fhIn offIn fhOut offOut len flags,
      op = .copyFileRange fhIn offIn fhOut offOut len flags →
      ∃ i j md, fhIn = some i ∧ fhOut = some j ∧ req.metadata = some md ∧
        Designates c s i md.relativePath ∧ Designates c s j md.newRelativePath ∧
        ChangesOnly c s req md.newRelativePath := by
  -- There are no handles yet, and equal trees have equal kinds.
  have hinit : HandlesInv c s₀ :=
    ⟨hplain, hpeer, funext fun rel => by simp only [Store.kinds, hequal],
      fun fh f hf => by simp [Mount.handle?, hnone] at hf⟩
  have hinv : HandlesInv c s :=
    hreach.invariant (fun _ _ _ hstep hi => HandlesInv.step hi hlb hstep) hinit
  constructor
  · rintro fh data offset rfl
    exact hinv.write_request hreq
  · rintro fhIn offIn fhOut offOut len flags rfl
    exact hinv.copy_request hreq

/-- The same files `a` and `b` on both sides, and no handle. -/
def plainPair : Pair := ⟨{ disk := { tree := someTree } }, someTree⟩

def entryA : EntryName := ⟨"a", by decide, by decide, by decide, by decide⟩
def entryC : EntryName := ⟨"c", by decide, by decide, by decide, by decide⟩

/-- The file `a` is opened and renamed to `c`. The descriptor refers to `c`, and a write through
the handle makes a new file `a` on the other peer. -/
theorem renamed_handle :
    ∃ s s', run (fun s op => Pair.step someSetup s (RootOp.call op)) plainPair
        [.openFile entryA 2, .rename entryA entryC 0] = some s ∧
      s.step someSetup (RootOp.write 0 [7] 0).call = some s' ∧
      s.mount.disk.file? 0 = some ⟨.named ["m", "c"], true, true⟩ ∧
      (s.mount.request? (RootOp.write 0 [7] 0).call).bind Request.metadata =
        some { relativePath := "a" } ∧
      s.replica.1.get ["m", "a"] = none ∧
      (s'.replica.1.get ["m", "a"]).map Node.type = some .regular := by
  have hobs : (run (fun s op => Pair.step someSetup s (RootOp.call op)) plainPair
      [.openFile entryA 2, .rename entryA entryC 0]).any (fun s =>
        (s.step someSetup (RootOp.write 0 [7] 0).call).any fun s' =>
          s.mount.disk.file? 0 = some ⟨.named ["m", "c"], true, true⟩ ∧
          (s.mount.request? (RootOp.write 0 [7] 0).call).bind Request.metadata =
            some { relativePath := "a" } ∧
          s.replica.1.get ["m", "a"] = none ∧
          (s'.replica.1.get ["m", "a"]).map Node.type = some .regular) = true := by decide
  simp only [Option.any_eq_true, decide_eq_true_eq] at hobs
  obtain ⟨s, hrun, s', hstep, hobs⟩ := hobs
  exact ⟨s, s', hrun, hstep, hobs⟩

/-- After `Open` alone, the request of the handle names its file. Nothing has happened to the entry
since then. -/
theorem opened_handle :
    ∃ s req md, Reaches (Pair.orderlyStep someSetup) plainPair s ∧
      s.mount.request? (RootOp.write 0 [7] 0).call = some req ∧ req.metadata = some md ∧
      Designates someSetup s 0 md.relativePath ∧
      ChangesOnly someSetup s req md.relativePath := by
  have hopened : ∃ s, Reaches (Pair.orderlyStep someSetup) plainPair s ∧
      (s.mount.request? (RootOp.write 0 [7] 0).call).isSome = true :=
    Reaches.of_any plainPair [.openFile entryA 2] _ (by decide)
  obtain ⟨s, hs, hsome⟩ := hopened
  obtain ⟨req, hreq⟩ := Option.isSome_iff_exists.mp hsome
  obtain ⟨md, hmd, hdes, honly⟩ := (handles_designate someSetup (posixLoopback_posix _ _)
    plainPair s (by decide) (by decide) (fun _ => rfl) rfl hs (.write 0 [7] 0) req hreq).1
    0 [7] 0 rfl
  exact ⟨s, req, md, hs, hreq, hmd, hdes, honly⟩

end ReplicatedFs.Rfs
