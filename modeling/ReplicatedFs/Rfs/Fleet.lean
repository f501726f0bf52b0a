import ReplicatedFs.P2p.Cluster
import ReplicatedFs.Rfs.Request

/-!
# `ReplicatedFs.Rfs.Fleet`: the hosts with their file systems

A `Fleet` is the network of hosts of `P2p/Cluster.lean` with the mount of each of them. Here
nothing is left open that a host decides from its files:

* a FUSE call asks its own `Mirror.Consult` (`Fleet.call`), and then calls `Replicate` with its
  request (`Fleet.replicate`). It waits for the return of that call, and goes on with the mount
  as it is then (`Fleet.resume`);
* a handler gets its verdict from `Mirror.Consult` on the files of its host;
* a handler that calls `Mirror.Mirror` changes the files of its host.

The steps of different hosts, and of different goroutines of one host, interleave in any way.
The nil response of `Mirror.Consult` and a panic of `Mirror` stop the process.

`Fleet.issued` is a history variable, the FUSE calls that called `Replicate`.
-/

set_option autoImplicit false

namespace ReplicatedFs.Rfs

open Library.Posix Protobuf P2p

/-- What a host runs on: its mirror directory, its process and its go-fuse. -/
structure Site where
  mirror : Mirror
  proc : Process
  loopback : Loopback

/-- A FUSE call before its `Replicate` call. `Mirror.Consult` had nothing against its request. -/
structure Asking where
  request : Request
  call : Call
  deriving DecidableEq, Repr

/-- A FUSE call that waits for its `Replicate` call, which is the task at `ref`. -/
structure Waiting where
  ref : Nat
  call : Call
  deriving DecidableEq, Repr

/-- A FUSE call of a host, with the transaction that it asked for. -/
structure FleetCall where
  host : PeerName
  tid : TransactionID
  call : Call
  deriving DecidableEq, Repr

/-- The hosts, their mounts, and the FUSE calls in progress. -/
structure Fleet where
  system : System
  mounts : PeerName → Mount
  asking : PeerName → List Asking := fun _ => []
  waiting : PeerName → List Waiting := fun _ => []
  crashed : PeerName → Option Panic := fun _ => none
  issued : List FleetCall := []

/-- The labels of the fleet. `network` are the steps of `System.step` that have nothing to do
with files. -/
inductive FleetLabel
  | call (host : PeerName) (call : Call)
  | replicate (host : PeerName) (index : Nat) (tid : TransactionID)
  | resume (host : PeerName) (ref : Nat)
  | consult (host : PeerName) (ref : Nat)
  | mirror (host : PeerName) (ref : Nat)
  | network (action : Action)
  deriving DecidableEq, Repr

/-- The host that makes the step. -/
def FleetLabel.host? : FleetLabel → Option PeerName
  | .call x _ | .replicate x _ _ | .resume x _ | .consult x _ | .mirror x _ => some x
  | .network (.host x _) => some x
  | .network (.lose _ _) => none

/-- The label is a new FUSE call. -/
def FleetLabel.isCall : FleetLabel → Bool
  | .call _ _ => true
  | _ => false

/-- The step depends on the files of the host. -/
def usesFiles : Action → Bool
  | .host _ (.replicate _ _) => true
  | .host _ (.task _ (.consulted _)) => true
  | .host _ (.task _ (.mirrored _)) => true
  | _ => false

/-- The handles of a call. -/
def Call.handles : Call → List Nat
  | .node _ (.copyFileRange fhIn _ fhOut _ _ _) => fhIn.toList ++ fhOut.toList
  | .file fh _ => [fh]
  | _ => []

/-- The handle that a call releases. -/
def Call.released? : Call → Option Nat
  | .file fh (.inspect .release) => some fh
  | _ => none

/-- `Mirror.Mirror` on the disk of the mount. -/
def Mount.mirrored (m : Mirror) (proc : Process) (s : Mount) (req : Request) :
    Except Panic (Mount × Option String) :=
  match h : m.change proc s.disk.tree.1 req with
  | .error p => .error p
  | .ok (e, err) =>
    .ok ({ s with disk := s.disk.commit e (Mirror.change_allowed s.disk.tree.2 h) }, err)

section Step
variable (sites : PeerName → Site) (c : Cluster) (s : Fleet)

/-- The fleet after a panic of the host `x`. -/
def Fleet.crash (x : PeerName) (p : Panic) : Fleet :=
  { s with crashed := Function.update s.crashed x (some p) }

/-- The FUSE calls of the host that are in progress. -/
def Fleet.inProgress (x : PeerName) : List Call :=
  (s.asking x).map Asking.call ++ (s.waiting x).map Waiting.call

/-- The kernel releases a handle only when no call on it is in progress. -/
def Fleet.admits (x : PeerName) (call : Call) : Bool :=
  call.released?.all fun fh => (s.inProgress x).all fun other => fh ∉ other.handles

/-- A FUSE call up to its `Replicate` call. If it makes none it returns at once. -/
def Fleet.call (x : PeerName) (call : Call) : Option Fleet :=
  let site := sites x
  if s.admits x call then
    match (s.mounts x).asks site.mirror site.proc call with
    | some request =>
      some { s with asking := Function.update s.asking x (s.asking x ++ [⟨request, call⟩]) }
    | none =>
      match (s.mounts x).call site.mirror site.proc site.loopback none call with
      | none => none
      | some (.error p) => some (s.crash x p)
      | some (.ok (mount, _)) => some { s with mounts := Function.update s.mounts x mount }
  else none

/-- A FUSE call calls `Replicate`, which is a new task of the host. -/
def Fleet.replicate (x : PeerName) (index : Nat) (tid : TransactionID) : Option Fleet :=
  match (s.asking x)[index]? with
  | none => none
  | some a =>
    (s.system.step c (.host x (.replicate tid a.request))).map fun system =>
      { s with
          system
          asking := Function.update s.asking x ((s.asking x).eraseIdx index)
          waiting := Function.update s.waiting x
            (s.waiting x ++ [⟨(s.system.hosts x).tasks.length, a.call⟩])
          issued := s.issued ++ [⟨x, tid, a.call⟩] }

/-- The FUSE call of the task at `ref` gets the answer of `Replicate`. It goes on only if the
answer is nil. -/
def Fleet.resume (x : PeerName) (ref : Nat) : Option Fleet :=
  match (s.waiting x).find? (·.ref = ref), s.system.task? x ref with
  | some w, some t =>
    let left := Function.update s.waiting x ((s.waiting x).filter (·.ref ≠ ref))
    match t.goroutine with
    | .replicate (.returned none) =>
      ((s.mounts x).onward (sites x).mirror (sites x).proc (sites x).loopback w.call).map
        fun (mount, _) =>
          { s with mounts := Function.update s.mounts x mount, waiting := left }
    | .replicate (.returned (some _)) => some { s with waiting := left }
    | _ => none
  | _, _ => none

/-- The handler at `ref` calls `Mirror.Consult`. -/
def Fleet.consult (x : PeerName) (ref : Nat) : Option Fleet :=
  match (s.system.task? x ref).map Task.goroutine with
  | some (.handle (.consult _ request)) =>
    match (sites x).mirror.consult (sites x).proc (s.mounts x).disk.tree.1 request with
    | .ok (some response) =>
      (s.system.step c (.host x (.task ref (.consulted response)))).map fun system =>
        { s with system }
    | .ok none => some (s.crash x .nilDereference)
    | .error p => some (s.crash x p)
  | _ => none

/-- The handler at `ref` calls `Mirror.Mirror`. -/
def Fleet.mirror (x : PeerName) (ref : Nat) : Option Fleet :=
  match (s.system.task? x ref).map Task.goroutine with
  | some (.handle (.mirror (some request))) =>
    match (s.mounts x).mirrored (sites x).mirror (sites x).proc request with
    | .ok (mount, err) =>
      (s.system.step c (.host x (.task ref (.mirrored err)))).map fun system =>
        { s with system, mounts := Function.update s.mounts x mount }
    | .error p => some (s.crash x p)
  | _ => none

/-- The process of the host has panicked, in a FUSE call or a call of `Mirror`, or elsewhere. -/
def Fleet.stopped (x : PeerName) : Bool :=
  (s.crashed x).isSome || (s.system.hosts x).panicked.isSome

/-- One step of the fleet. A host that has panicked makes none. -/
def Fleet.step (l : FleetLabel) : Option Fleet :=
  if l.host?.any s.stopped then none
  else match l with
    | .call x call => s.call sites x call
    | .replicate x index tid => s.replicate c x index tid
    | .resume x ref => s.resume sites x ref
    | .consult x ref => s.consult sites c x ref
    | .mirror x ref => s.mirror sites c x ref
    | .network action =>
      if usesFiles action then none
      else (s.system.step c action).map fun system => { s with system }

end Step

/-- No message is lost, no broadcast fails and no context ends. A message is also lost when it has
arrived and `listen` drops it, because a handler has put its error in the variable they share, so
this is excluded as well. -/
def Fleet.faultFree (c : Cluster) (s : Fleet) : FleetLabel → Bool
  | .network action => P2p.faultFree c s.system action
  | _ => true

/-- The steps of fault-free runs. New FUSE calls are among them. -/
def Fleet.stepFF (sites : PeerName → Site) (c : Cluster) : Fleet → FleetLabel → Option Fleet :=
  Library.restrict (Fleet.step sites c) (Fleet.faultFree c)

/-- The fleet before any call. -/
def Fleet.init (c : Cluster) (clocks : PeerName → UInt64) (disks : PeerName → Disk) : Fleet where
  system := System.init c clocks
  mounts x := { disk := disks x }

/-- Every transaction is over, and no FUSE call is in progress. From here only a new call can start
anything. -/
structure Fleet.Settled (c : Cluster) (s : Fleet) : Prop where
  dead : ∀ x i t, s.system.task? x i = some t → t.goroutine.alive = false
  flight : s.system.inFlight = []
  asking : ∀ x ∈ c.names, s.asking x = []
  waiting : ∀ x ∈ c.names, s.waiting x = []

/-- The tree of the mount after `Mirror.Mirror` is the one that it leaves. -/
theorem Mount.mirrored_of_ok {m : Mirror} {proc : Process} {s s' : Mount} {req : Request}
    {err : Option String} (h : s.mirrored m proc req = .ok (s', err)) :
    ∃ e, m.change proc s.disk.tree.1 req = .ok (e, err) ∧
      s'.disk.tree.1 = e.apply s.disk.tree.1 := by
  unfold Mount.mirrored at h
  split at h
  · cases h
  · rename_i e err' hchange
    cases h
    exact ⟨e, hchange, rfl⟩

/-- Hosts with plain system calls. -/
def someSites : PeerName → Site :=
  fun _ => ⟨someMirror, someProcess, posixLoopback someMirror someProcess⟩

/-- Two hosts with the same files. -/
def someFleet : Fleet := Fleet.init duo (fun _ => 0) fun _ => { tree := someTree }

/-- A call of `a` for a new directory, up to the vote of `b`. -/
def votedCall : List FleetLabel :=
  let request : Request :=
    { type := .mkdir, metadata := some { relativePath := "c", mode := 0o755 } }
  [.call "a" (.node "" (.mkdir "c" 0o755)), .replicate "a" 0 "t",
    .network (.host "a" (.task 0 .run)), .network (.host "a" (.task 0 (reaching ["b"])))] ++
  (hears "b" (newRequestMessage "t" "a" request)).map .network ++
  [.consult "b" 0, .network (.host "b" (.task 0 .run)),
    .network (.host "b" (.task 0 (reaching ["a"])))]

end ReplicatedFs.Rfs
