import ReplicatedFs.Library.Posix.Content
import ReplicatedFs.Rfs.Replica

/-!
# `ReplicatedFs.Proofs.Rfs.Writes`: where writes and their mirrored copies lead

`rootFile.Write` writes to a file that is open. `Mirror.Mirror` opens the file for every `WRITE`
request, and it opens it with `O_TRUNC`. So the replica has what the last write put there and
nothing else, while the initiator keeps what the write did not reach.

* `Shares.step`: what one write does on both sides.
* `Shares.run`: what a sequence of writes does.
* `writes_converge_iff`: both sides agree at the end exactly when the last write leaves nothing of
  what was there before it.
-/

set_option autoImplicit false

namespace ReplicatedFs.Rfs

open ReplicatedFs.Protobuf
open Library Library.Posix

/-- One write through a handle. -/
structure Written where
  data : List UInt8
  offset : Int64
  deriving DecidableEq, Repr

/-- The call of `rootFile.Write`. -/
def Written.call (fh : Nat) (w : Written) : Call := .file fh (.write w.data w.offset)

/-- The content after a `pwrite`. -/
def Written.over (content : List UInt8) (w : Written) : List UInt8 :=
  overwrite content w.data w.offset.toInt.toNat

/-- The write leaves nothing of the content: it reaches the end of it, and before the offset
there are zeros only. A write of no bytes leaves everything. -/
def Written.Replaces (content : List UInt8) (w : Written) : Prop :=
  if w.data = [] then content = []
  else (∀ b ∈ content.take w.offset.toInt.toNat, b = 0) ∧
    content.length ≤ w.offset.toInt.toNat + w.data.length

/-- The handle `fh` can write to a file with the content `here`. Its path leads to a file of the
other peer with the content `there`, which can be written to. -/
structure Shares (c : Setup) (fh : Nat) (s : Pair) (here there : List UInt8) : Prop where
  handle : ∃ f file, s.mount.handle? fh = some f ∧ s.mount.disk.file? f.fd = some file ∧
    file.write = true ∧ s.mount.disk.content? file.ref = some here ∧
    ∃ q mode, resolve c.peerProc s.replica.1 true (c.peerMirror.path f.path) =
      .ok (.existing q (.file mode there)) ∧ c.peerProc.may mayWrite mode = true

/-- Writing to an empty file. This is what the mirror does, because it truncates the file before it
writes. -/
theorem Written.over_nil (w : Written) :
    w.over [] = if w.data = [] then [] else List.replicate w.offset.toInt.toNat 0 ++ w.data := by
  unfold Written.over overwrite
  split
  · rfl
  · simp

/-- Before the offset there are zeros only. A hole in a file is read as zeros. -/
private theorem before_eq_iff (content : List UInt8) (k : Nat) :
    (content ++ List.replicate (k - content.length) 0).take k = List.replicate k 0 ↔
      ∀ b ∈ content.take k, b = 0 := by
  rw [List.eq_replicate_iff, List.take_append]
  constructor
  · intro h b hb
    exact h.2 b (List.mem_append_left _ hb)
  · intro h
    refine ⟨by simp; omega, fun b hb => ?_⟩
    rcases List.mem_append.mp hb with hb | hb
    · exact h b hb
    · exact List.eq_of_mem_replicate (List.mem_of_mem_take hb)

/-- A write gives what it gives on an empty file exactly when it leaves nothing of the content.
`Replaces` says this about the bytes: there are none behind the data, and those before the offset
are zeros, which is what a hole is read as. -/
theorem Written.over_eq_iff (content : List UInt8) (w : Written) :
    w.over content = w.over [] ↔ w.Replaces content := by
  rw [Written.over_nil]
  unfold Written.over Written.Replaces overwrite
  split
  · rfl
  · generalize w.offset.toInt.toNat = k
    rw [← before_eq_iff, ← List.drop_eq_nil_iff]
    constructor
    · intro h
      -- The parts before the data have equal lengths, so the parts are compared one by one.
      rw [List.append_assoc] at h
      obtain ⟨hbefore, hafter⟩ := List.append_inj h (by simp; omega)
      exact ⟨hbefore, by simpa using hafter⟩
    · rintro ⟨hbefore, hafter⟩
      rw [hbefore, hafter, List.append_nil]

/-- The content after `pwrite`s, one after the other. -/
def writtenAll (content : List UInt8) (ws : List Written) : List UInt8 :=
  ws.foldl Written.over content

/-- The content when the file is truncated before each of them. -/
def rewrittenAll (content : List UInt8) (ws : List Written) : List UInt8 :=
  ws.foldl (fun _ w => w.over []) content

/-- Only the last write decides whether the two are equal. On the other side each write starts from
an empty file. -/
theorem written_eq_iff (content : List UInt8) (ws : List Written) :
    writtenAll content ws = rewrittenAll content ws ↔
      ∀ earlier w, ws = earlier ++ [w] → w.Replaces (writtenAll content earlier) := by
  -- The replica forgets all but the last write, so the list is split at its end.
  induction ws using List.reverseRecOn with
  | nil => simp [writtenAll, rewrittenAll]
  | append_singleton earlier w =>
    have hlast : writtenAll content (earlier ++ [w]) = w.over (writtenAll content earlier) := by
      simp [writtenAll]
    have hlast' : rewrittenAll content (earlier ++ [w]) = w.over [] := by
      simp [rewrittenAll]
    rw [hlast, hlast', Written.over_eq_iff]
    constructor
    · intro h earlier' w' heq
      obtain ⟨rfl, hw⟩ := List.append_inj' heq rfl
      cases hw
      exact h
    · intro h
      exact h earlier w rfl

section Write
variable {c : Setup} {fh : Nat} {s : Pair} {here there : List UInt8}

/-- The local side of a write: `pwrite` on the descriptor, at the offset of the call. The bytes
around the data stay. The offset must not be negative, since `pwrite` fails then and both sides do
nothing. -/
theorem Shares.write_local (hlb : c.loopback.Posix c.mirror c.proc)
    (h : Shares c fh s here there) {w : Written} (hoff : 0 ≤ w.offset) :
    ∃ f file, s.mount.handle? fh = some f ∧ s.mount.disk.file? f.fd = some file ∧
      s.mount.call c.mirror c.proc c.loopback none (w.call fh) =
        some (.ok ({ s.mount with disk := s.mount.disk.setContent (w.over here) file.ref },
          none)) := by
  obtain ⟨f, file, hf, hfile, hwrite, hcontent, -⟩ := h.handle
  refine ⟨f, file, hf, hfile, ?_⟩
  have hnot : ¬ w.offset < 0 := by simpa using hoff
  have hpwrite : c.loopback.write s.mount.disk f.fd w.data w.offset =
      (s.mount.disk.setContent (w.over here) file.ref, none) := by
    rw [hlb.write]
    simp [posixLoopback, Disk.pwrite, hfile, hwrite, hnot, hcontent, errno?, Written.over]
  rw [Written.call, Mount.call_of_guarded _ _ _ (Mount.guarded?_write hf w.data w.offset)]
  -- Nothing is looked up for a `WRITE`, so the local `Mirror.Consult` agrees.
  have hpermitted : ∀ onward, s.mount.permitted c.mirror c.proc none
      (Guarded.write f w.data w.offset).request onward = .ok onward := fun _ => rfl
  rw [hpermitted]
  simp only [Guarded.write, Mount.withDisk, hpwrite]

/-- The other side: `Mirror.Mirror` truncates the file before it writes to it. So the content is
what the write makes of an empty file, whatever was there before. The path of the handle leads to
the file with the content `there`. -/
theorem Shares.write_remote (h : Shares c fh s here there) {f : Handle}
    (hf : s.mount.handle? fh = some f) {w : Written} (hoff : 0 ≤ w.offset) :
    ∃ q mode replica, s.mirrored c (w.call fh) = .ok (replica, none) ∧
      resolve c.peerProc s.replica.1 true (c.peerMirror.path f.path) =
        .ok (.existing q (.file mode there)) ∧ c.peerProc.may mayWrite mode = true ∧
      replica.1 = s.replica.1.put q (.file mode (w.over [])) := by
  obtain ⟨f', file, hf', -, -, -, q, mode, hq, hmay⟩ := h.handle
  obtain rfl : f = f' := Option.some.inj (hf.symm.trans hf')
  have hnot : ¬ w.offset < 0 := by simpa using hoff
  have hasks : s.mount.asks c.mirror c.proc (w.call fh) =
      some (writeRequest f w.data w.offset) := by
    rw [Written.call, Mount.asks, Mount.request?_of_guarded (Mount.guarded?_write hf _ _)]
    rfl
  -- `O_TRUNC` empties the file, and `WriteAt` writes over nothing.
  have hchange : c.peerMirror.change c.peerProc s.replica.1
      (writeRequest f w.data w.offset) = .ok (.put q (.file mode (w.over [])), none) := by
    simp [Mirror.change, writeRequest, writeMetadata, Mirror.write, osOpenFile,
      openFile_of_usual, OpenFlags.usual, openPath, OpenFlags.follows, hq,
      hmay, Except.mapError, writeAt, hnot, Written.over]
  have hmirror := Mirror.mirror_of_ok hchange
  refine ⟨q, mode, _, Eq.trans ?_ hmirror, hq, hmay, rfl⟩
  unfold Pair.mirrored
  rw [hasks]

/-- One write. The content of the initiator is written over, and the one of the replica is
replaced. -/
theorem Shares.step (hlb : c.loopback.Posix c.mirror c.proc) (h : Shares c fh s here there)
    {w : Written} (hoff : 0 ≤ w.offset) :
    ∃ s', s.step c (w.call fh) = some s' ∧ Shares c fh s' (w.over here) (w.over []) := by
  obtain ⟨f, file, hf, hfile, hcall⟩ := h.write_local hlb hoff
  obtain ⟨q, mode, replica, hmirrored, hq, hmay, hreplica⟩ := h.write_remote hf hoff
  obtain ⟨f', file', hf', hfile', hwrite, hcontent, -⟩ := h.handle
  obtain rfl : f = f' := Option.some.inj (hf.symm.trans hf')
  obtain rfl : file = file' := Option.some.inj (hfile.symm.trans hfile')
  refine ⟨⟨_, replica⟩, Pair.step_eq_some.mpr ⟨none, none, hcall, hmirrored⟩, ?_⟩
  refine ⟨f, file, hf, ?_, hwrite, Disk.content?_setContent hcontent _, q, mode, ?_, hmay⟩
  · simpa using hfile
  · rw [hreplica]
    exact resolve_put_file hq _

/-- A sequence of writes. The contents of the two sides go their own ways, and both are computed
from the writes. -/
theorem Shares.run (hlb : c.loopback.Posix c.mirror c.proc) (h : Shares c fh s here there)
    (ws : List Written) (hoff : ∀ w ∈ ws, 0 ≤ w.offset) :
    ∃ s', Library.run (Pair.step c) s (ws.map (Written.call fh)) = some s' ∧
      Shares c fh s' (writtenAll here ws) (rewrittenAll there ws) := by
  induction ws generalizing s here there with
  | nil => exact ⟨s, rfl, h⟩
  | cons w ws ih =>
    obtain ⟨m, hm, hshares⟩ := h.step hlb (hoff w (by simp))
    obtain ⟨s', hs', hshares'⟩ := ih hshares fun w' hw' => hoff w' (by simp [hw'])
    exact ⟨s', run_cons_eq_some.mpr ⟨m, hm, hs'⟩, hshares'⟩

end Write

/-- From equal contents, every sequence of writes at offsets that are not negative goes through on
both sides. The contents are equal at the end exactly when there is no write, or the last one
leaves nothing of what the initiator had before it. -/
theorem writes_converge_iff (c : Setup) (hlb : c.loopback.Posix c.mirror c.proc) (fh : Nat)
    (s : Pair) (content : List UInt8) (hs : Shares c fh s content content)
    (ws : List Written) (hoff : ∀ w ∈ ws, 0 ≤ w.offset) :
    ∃ s' here there, run (Pair.step c) s (ws.map (Written.call fh)) = some s' ∧
      Shares c fh s' here there ∧
      (here = there ↔
        ∀ earlier w, ws = earlier ++ [w] → w.Replaces (writtenAll content earlier)) := by
  obtain ⟨s', hrun, hshares⟩ := hs.run hlb ws hoff
  exact ⟨s', _, _, hrun, hshares, written_eq_iff content ws⟩

/-- The same files on both sides. The file `f` has two bytes. -/
def twoBytes : Tree := someTree.add ["m"] "f" (.file 0o644 [1, 2])

/-- `Open` of `f` for reading and writing, and a write of its first byte. The second byte stays on
the initiator and is lost on the replica. -/
theorem mirrored_write_truncates :
    ∃ s', run (Pair.step someSetup) ⟨{ disk := { tree := twoBytes } }, twoBytes⟩
        [.node "f" (.openFile 2), Written.call 0 ⟨[3], 0⟩] = some s' ∧
      s'.mount.disk.tree.1.get ["m", "f"] = some (.file 0o644 [3, 2]) ∧
      s'.replica.1.get ["m", "f"] = some (.file 0o644 [3]) := by
  have hobs : (run (Pair.step someSetup) ⟨{ disk := { tree := twoBytes } }, twoBytes⟩
      [.node "f" (.openFile 2), Written.call 0 ⟨[3], 0⟩]).any (fun s' =>
        s'.mount.disk.tree.1.get ["m", "f"] = some (.file 0o644 [3, 2]) ∧
          s'.replica.1.get ["m", "f"] = some (.file 0o644 [3])) = true := by decide
  simpa only [Option.any_eq_true, decide_eq_true_eq] using hobs

/-- The file `f` is open for reading and writing. -/
def openPair : Pair where
  mount :=
    { disk := { tree := twoBytes, files := [some ⟨.named ["m", "f"], true, true⟩] }
      handles := [some ⟨"f", 0⟩] }
  replica := twoBytes

/-- A write of both bytes gives the same content on both sides. It replaces all that was in the
file. -/
theorem whole_write_converges :
    ∃ s' here there, run (Pair.step someSetup) openPair [Written.call 0 ⟨[3, 4], 0⟩] = some s' ∧
      Shares someSetup 0 s' here there ∧ here = there := by
  have hshares : Shares someSetup 0 openPair [1, 2] [1, 2] :=
    ⟨⟨"f", 0⟩, _, rfl, rfl, rfl, rfl, ["m", "f"], 0o644, by decide, by decide⟩
  obtain ⟨s', here, there, hrun, hs', hiff⟩ := writes_converge_iff someSetup
    (posixLoopback_posix _ _) 0 openPair [1, 2] hshares [⟨[3, 4], 0⟩] (by decide)
  refine ⟨s', here, there, hrun, hs', hiff.mpr ?_⟩
  intro earlier w hw
  obtain ⟨rfl, hw⟩ := List.append_inj' (show [] ++ [_] = earlier ++ [w] from hw) rfl
  cases hw
  exact ⟨by simp, by decide⟩

end ReplicatedFs.Rfs
