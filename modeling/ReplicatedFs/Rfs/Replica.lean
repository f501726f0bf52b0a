import ReplicatedFs.Rfs.Request

/-!
# `ReplicatedFs.Rfs.Replica`: one peer makes the calls, another one mirrors them

A `Pair` is the mount of the peer that makes the calls with the mirror directory of another
peer. In one step every peer agrees to a call. The one that makes it goes on with its system
call, and the other one gives the request to `Mirror.Mirror`. Each of them works on its own
files, so the order of the two does not matter, and neither looks at how the other one fares.

A call that asks nobody, or that the local `Mirror.Consult` is against, is mirrored by nobody.

`Loopback.Posix` and `Loopback.PosixEntries` say that go-fuse passes the operations that are used
here on to the system.
-/

set_option autoImplicit false

namespace ReplicatedFs.Rfs

open Library.Posix Protobuf

/-- The two peers. `mirror` is the directory under the mount. -/
structure Setup where
  mirror : Mirror
  proc : Process
  loopback : Loopback
  peerMirror : Mirror
  peerProc : Process

/-- The mount, and the files of the other peer. -/
@[ext] structure Pair where
  mount : Mount
  replica : Tree

section Step
variable (c : Setup) (s : Pair)

/-- What the call does to the files of the other peer, with the error of `Mirror.Mirror`. -/
def Pair.mirrored (call : Call) : Except Panic (Tree × Option String) :=
  match s.mount.asks c.mirror c.proc call with
  | none => .ok (s.replica, none)
  | some req => c.peerMirror.mirror c.peerProc s.replica (some req)

/-- One call that every peer agrees to. -/
def Pair.step (call : Call) : Option Pair :=
  match s.mount.call c.mirror c.proc c.loopback none call, s.mirrored c call with
  | some (.ok (mount, _)), .ok (replica, _) => some { mount, replica }
  | _, _ => none

/-- The call succeeds on both sides. -/
def Pair.succeeds (call : Call) : Bool :=
  match s.mount.call c.mirror c.proc c.loopback none call, s.mirrored c call with
  | some (.ok (_, errno)), .ok (_, err) => errno.isNone && err.isNone
  | _, _ => false

end Step

/-- `Rename` without `RENAME_EXCHANGE`, `Unlink` and `Write` of go-fuse are the system calls. -/
structure Loopback.Posix (m : Mirror) (proc : Process) (lb : Loopback) : Prop where
  rename : ∀ d path name newParent newName flags, flags &&& 2 = 0 →
    lb.rename d path name newParent newName flags =
      (posixLoopback m proc).rename d path name newParent newName flags
  unlink : ∀ d path name, lb.unlink d path name = (posixLoopback m proc).unlink d path name
  write : ∀ d fd data offset,
    lb.write d fd data offset = (posixLoopback m proc).write d fd data offset

/-- The loopback file system that makes the system calls satisfies this assumption. -/
theorem posixLoopback_posix (m : Mirror) (proc : Process) :
    (posixLoopback m proc).Posix m proc where
  rename _ _ _ _ _ _ _ := rfl
  unlink _ _ _ := rfl
  write _ _ _ _ := rfl

/-- `Mkdir`, `Rmdir` and `Unlink` of go-fuse are the system calls. -/
structure Loopback.PosixEntries (m : Mirror) (proc : Process) (lb : Loopback) : Prop where
  mkdir : ∀ d path name mode,
    lb.mkdir d path name mode = (posixLoopback m proc).mkdir d path name mode
  rmdir : ∀ d path name, lb.rmdir d path name = (posixLoopback m proc).rmdir d path name
  unlink : ∀ d path name, lb.unlink d path name = (posixLoopback m proc).unlink d path name

/-- And it satisfies this one, which is about the operations that make and remove entries. -/
theorem posixLoopback_posixEntries (m : Mirror) (proc : Process) :
    (posixLoopback m proc).PosixEntries m proc where
  mkdir _ _ _ _ := rfl
  rmdir _ _ _ := rfl
  unlink _ _ _ := rfl

/-- Two peers with plain system calls. -/
def someSetup : Setup :=
  ⟨someMirror, someProcess, posixLoopback someMirror someProcess, someMirror, someProcess⟩

/-- One step, seen from its result. The call goes through on this side, and the other peer mirrors
the request if there is one. -/
theorem Pair.step_eq_some {c : Setup} {s s' : Pair} {call : Call} :
    s.step c call = some s' ↔
      ∃ errno err, s.mount.call c.mirror c.proc c.loopback none call =
          some (.ok (s'.mount, errno)) ∧ s.mirrored c call = .ok (s'.replica, err) := by
  unfold Pair.step
  constructor
  · intro h
    split at h
    · -- The two sides are independent of each other: the call here, and the request there.
      rename_i mount errno replica err hcall hmirrored
      cases h
      exact ⟨errno, err, hcall, hmirrored⟩
    · cases h
  · rintro ⟨errno, err, hcall, hmirrored⟩
    rw [hcall, hmirrored]

/-- A step of a call with a request. The peers do not agree, and nothing happens, or the call goes
on and the request is mirrored. In the second case both sides have their edit, and `succeeds` says
that neither has failed. -/
theorem Pair.step_cases {c : Setup} {s s' : Pair} (call : Call) {req : Request}
    {onward : Mount × Option Errno} (hreq : s.mount.request? call = some req)
    (hcall : s.mount.call c.mirror c.proc c.loopback none call =
      some (s.mount.permitted c.mirror c.proc none req onward))
    (hstep : s.step c call = some s') :
    s' = s ∨ ∃ e err, onward.1 = s'.mount ∧
      c.peerMirror.change c.peerProc s.replica.1 req = .ok (e, err) ∧
      s'.replica.1 = e.apply s.replica.1 ∧
      (s.succeeds c call = true → onward.2 = none ∧ err = none) := by
  obtain ⟨errno, err, hlocal, hmirrored⟩ := Pair.step_eq_some.mp hstep
  rw [hcall, Option.some.injEq] at hlocal
  have hsucceeds : s.succeeds c call = (errno.isNone && err.isNone) := by
    unfold Pair.succeeds
    rw [hcall, hlocal, hmirrored]
  -- Without the consent of the local `Consult` the request is not sent.
  rcases Mount.permitted_cases hreq hlocal with ⟨hasks, hmount, -⟩ | ⟨hasks, honward⟩
  · left
    unfold Pair.mirrored at hmirrored
    rw [hasks] at hmirrored
    exact Pair.ext hmount (congrArg Prod.fst (Except.ok.inj hmirrored)).symm
  · right
    unfold Pair.mirrored at hmirrored
    rw [hasks] at hmirrored
    -- `Mirror` of the other peer may panic, and then there is no step.
    cases hchange : c.peerMirror.change c.peerProc s.replica.1 req with
    | error p =>
      simp only [Mirror.mirror_of_error hchange] at hmirrored
      cases hmirrored
    | ok result =>
      simp only [Mirror.mirror_of_ok hchange, Except.ok.injEq] at hmirrored
      obtain ⟨hreplica, herr⟩ := Prod.mk.inj hmirrored
      refine ⟨result.1, result.2, by rw [← honward], rfl, by rw [← hreplica], fun hsucc => ?_⟩
      rw [hsucceeds, Bool.and_eq_true, Option.isNone_iff_eq_none,
        Option.isNone_iff_eq_none] at hsucc
      rw [← honward, herr]
      exact hsucc

end ReplicatedFs.Rfs
