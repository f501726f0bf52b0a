import ReplicatedFs.Rfs.Root

/-!
# `ReplicatedFs.Proofs.Rfs.Permission`: local changes and their permission

A guarded operation changes nothing when `Replicate` fails (`Mount.permitted_of_error`). So a run
in which every `Replicate` fails leaves the mirror directory as it was, as long as no call is a
`Call.direct` one (`unpermitted_unchanged`). The direct calls are not guarded: `Open` hands its
flags to the system call, and the inherited operations are not overridden
(`changed_without_permission`).
-/

set_option autoImplicit false

namespace ReplicatedFs.Rfs

open Library Library.Posix Protobuf P2p

section Step
variable {m : Mirror} {proc : Process} {lb : Loopback} {s s' : Mount} {errno : Option Errno}

/-- Without permission, a guarded operation returns an error and does nothing. -/
theorem Mount.permitted_of_error {err : ReplicateError} {req : Request}
    {onward : Mount × Option Errno}
    (h : s.permitted m proc (some err) req onward = .ok (s', errno)) : s' = s := by
  unfold Mount.permitted at h
  split at h
  · cases h
  · cases h
    rfl
  · exact absurd ‹_› replicate_of_error

/-- The flags that matter are the same without `O_APPEND`, which go-fuse takes away. -/
private theorem ofBits_append (flags : UInt32) :
    OpenFlags.ofBits (flags &&& ~~~0o2000) = OpenFlags.ofBits flags := by
  simp only [OpenFlags.ofBits, UInt32.and_assoc]
  rfl

/-- `Open` changes nothing when it neither creates nor truncates. The descriptor is new, and is not
among the contents. -/
theorem Mount.openFile_contents {flags : UInt32} {mode : Mode} {p : Path} {path : String}
    (hcreate : (OpenFlags.ofBits flags).create = false)
    (htrunc : (OpenFlags.ofBits flags).trunc = false) :
    (s.openFile proc flags mode p path).1.disk.contents = s.disk.contents := by
  unfold Mount.openFile
  rw [ofBits_append]
  -- With or without an errno, the disk is the one after `open`.
  have hdisk := s.disk.openFile_contents proc hcreate htrunc mode p
  split
  · rename_i heq
    rw [heq] at hdisk
    exact hdisk
  · rename_i heq
    rw [heq] at hdisk
    exact hdisk

/-- A call that asks nobody. The direct ones are excluded, and the rest looks at the mirror
directory only. -/
theorem Mount.alone_contents (hlb : lb.Lawful) {call : Call}
    (hdirect : call.direct = false) (h : s.alone m proc lb call = some (.ok (s', errno))) :
    s'.disk.contents = s.disk.contents := by
  cases call with
  | node path op =>
    cases op with
    | openFile flags =>
      obtain ⟨hcreate, htrunc⟩ := Bool.or_eq_false_iff.mp hdirect
      obtain rfl : (s.openFile proc flags 0 (m.path path) path).1 = s' :=
        congrArg Prod.fst (Except.ok.inj (Option.some.inj h))
      exact Mount.openFile_contents hcreate htrunc
    | setattr mode =>
      cases h
      rfl
    | inspect inspection =>
      cases h
      exact hlb.inspect s.disk path inspection
    -- These change the mirror directory and ask nobody.
    | mknod | setxattr | removexattr => cases hdirect
    | create | mkdir | rename | rmdir | symlink | link | unlink | copyFileRange => cases h
  | file fh op =>
    cases op with
    | write => cases h
    | allocate => cases hdirect
    | inspect inspection =>
      obtain ⟨f, -, hf⟩ := Option.map_eq_some_iff.mp h
      cases hf
      exact hlb.inspectFile s.disk f.fd inspection

/-- One step without permission, whose call is not a direct one. A guarded operation stops at its
guard, and any other is one of those that only look. -/
theorem Mount.step_contents (hlb : lb.Lawful) {l : Label} (hanswer : l.answer.isSome)
    (hdirect : l.call.direct = false) (h : s.step m proc lb l = some s') :
    s'.disk.contents = s.disk.contents := by
  obtain ⟨call, answer⟩ := l
  obtain ⟨err, rfl⟩ := Option.isSome_iff_exists.mp hanswer
  unfold Mount.step at h
  split at h
  · rename_i u errno hcall
    cases h
    unfold Mount.call at hcall
    split at hcall
    · -- `Replicate` has returned an error, and the mount is as it was.
      rw [Mount.permitted_of_error (Option.some.inj hcall)]
    · exact Mount.alone_contents hlb hdirect hcall
  · cases h

end Step

/-- When every `Replicate` fails and no call is a direct one, the mirror directory is at the end
what it was at the start. -/
theorem unpermitted_unchanged (m : Mirror) (proc : Process) (lb : Loopback)
    (hlb : lb.Lawful) (s s' : Mount) (ls : List Label)
    (hrun : run (Mount.step m proc lb) s ls = some s') (hanswer : ∀ l ∈ ls, l.answer.isSome)
    (hdirect : ∀ l ∈ ls, l.call.direct = false) :
    s'.disk.contents = s.disk.contents := by
  have hguard : ∀ (_ : Mount), ∀ l ∈ ls, (l.answer.isSome && !l.call.direct) = true := by
    intro _ l hl
    simp [hanswer l hl, hdirect l hl]
  -- The invariant: what is stored is what was stored at the start.
  refine run_invariant (I := fun u => u.disk.contents = s.disk.contents)
    (fun u l u' hstep hu => ?_) (run_restrict hguard hrun) rfl
  obtain ⟨hg, hstep⟩ := restrict_eq_some.mp hstep
  simp only [Bool.and_eq_true, Bool.not_eq_true'] at hg
  exact (Mount.step_contents hlb hg.1 hg.2 hstep).trans hu

/-- The mount before any call. -/
def someMount : Mount := { disk := { tree := someTree } }

/-- The steps of the mount, with the system calls behind the inherited operations. -/
def someStep : Mount → Label → Option Mount :=
  Mount.step someMirror someProcess (posixLoopback someMirror someProcess)

/-- The calls, with a `Replicate` that permits nothing. -/
def refused (calls : List Call) : List Label :=
  calls.map fun call => { call, answer := some .notPermitted }

/-- An `Open` with guarded calls around it. -/
def guardedCalls : List Call :=
  [.node "" (.mkdir "c" 0o755), .node "a" (.openFile 2), .file 0 (.write [7] 0),
    .node "" (.rename "a" "" "d" 0), .file 0 (.inspect .release)]

/-- The guarded calls are all refused, and the mirror directory is what it was. So the guard does
protect the files from these calls. -/
theorem refused_calls_change_nothing :
    ∃ s', run someStep someMount (refused guardedCalls) = some s' ∧
      s'.disk.contents = someMount.disk.contents := by
  have hsome : (run someStep someMount (refused guardedCalls)).isSome = true := by decide
  obtain ⟨s', hs'⟩ := Option.isSome_iff_exists.mp hsome
  exact ⟨s', hs', unpermitted_unchanged _ _ _ (posixLoopback_lawful _ _) _ _ _ hs' (by decide)
    (by decide)⟩

/-- The calls change the mirror directory although `Replicate` permits nothing. -/
def ChangesUnpermitted (calls : List Call) : Prop :=
  ∃ s', run someStep someMount (refused calls) = some s' ∧
    s'.disk.contents ≠ someMount.disk.contents

/-- `Open` with `O_TRUNC`. -/
def truncatingCalls : List Call := [.node "a" (.openFile 0o1001)]

/-- `Mknod` of a regular file. -/
def makingCalls : List Call := [.node "" (.mknod "c" 0o100644 0)]

/-- `Allocate` past the end of an open file. -/
def allocatingCalls : List Call := [.node "a" (.openFile 2), .file 0 (.allocate 0 4 0)]

/-- A run that can be evaluated and changes what is at the path. -/
private theorem changesUnpermitted_at {calls : List Call} (p : Path)
    (h : (run someStep someMount (refused calls)).any
      (fun u => u.disk.tree.1.get p ≠ someMount.disk.tree.1.get p) = true) :
    ChangesUnpermitted calls := by
  unfold ChangesUnpermitted
  cases hrun : run someStep someMount (refused calls) with
  | none => simp [hrun] at h
  | some s' =>
    refine ⟨s', rfl, fun heq => ?_⟩
    have htree : s'.disk.tree = someMount.disk.tree := congrArg Prod.fst heq
    simp [hrun, htree] at h

/-- Three ways to change the mirror directory while `Replicate` permits nothing: `Open` that
truncates the file, `Mknod`, and `Allocate`. None of them asks the peers. -/
theorem changed_without_permission :
    ChangesUnpermitted truncatingCalls ∧ ChangesUnpermitted makingCalls ∧
      ChangesUnpermitted allocatingCalls :=
  ⟨changesUnpermitted_at ["m", "a"] (by decide), changesUnpermitted_at ["m", "c"] (by decide),
    changesUnpermitted_at ["m", "a"] (by decide)⟩

end ReplicatedFs.Rfs
