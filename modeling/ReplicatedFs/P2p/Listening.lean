import ReplicatedFs.P2p.Cluster
import ReplicatedFs.P2p.Listener

/-!
# `ReplicatedFs.P2p.Listening`: the network with the variables of `listen`

In `System.step` a message goes from the network to the transactions map in one step. Here `listen`
takes it in two, with the goroutines of the host in between. It reads the message, and then it tests
`err`, which any closure on the host may have assigned in the meantime.

A `ListeningSystem` is a `System` with a `Listener` for each host. A message that was read stays in
flight until the test, so that the two layers agree on where a message is. The test then is a step
of `System`: the delivery of the message, or its loss when `err` is set.

`ListeningSystem.faultFree` are the runs in which the network and the contexts are without fault:
every broadcast reaches every peer, every message is read by `listen`, and nothing times out. It
says nothing about `err`. `ListeningSystem.undisturbed` is that.
-/

set_option autoImplicit false

namespace ReplicatedFs.P2p

open ReplicatedFs.Protobuf

/-- The system with the variables of each `listen`. -/
structure ListeningSystem where
  system : System
  listeners : PeerName → Listener := fun _ => {}

/-- The system before any call. -/
def ListeningSystem.init (c : Cluster) (clocks : PeerName → UInt64) : ListeningSystem where
  system := System.init c clocks

/-- The labels of the system. -/
inductive ListeningAction
  /-- `listen` takes a message from `ReceiveC` and decodes it. -/
  | read (name : PeerName) (msg : Message)
  /-- `listen` tests `err`. -/
  | test (name : PeerName)
  /-- A closure of `listen` assigns the result of its handler to `err`. -/
  | assign (name : PeerName) (ref : Nat)
  /-- A step that has nothing to do with these variables. -/
  | other (action : Action)

/-- A call of `Replicate`. -/
def ListeningAction.isCall : ListeningAction → Bool
  | .other action => action.isCall
  | _ => false

/-- What the test of `err` is for the network. Every message of the network can be decoded, so `msg`
is not nil. -/
def Reading.action? (name : PeerName) (r : Reading) : Option Action :=
  r.msg.map fun msg => if r.failed then .lose name msg else .host name (.receive msg)

namespace ListeningSystem
variable (c : Cluster) (s : ListeningSystem)

/-- The system after a step of one `listen`. -/
def setListener (x : PeerName) (l : Listener) : ListeningSystem :=
  { s with listeners := Function.update s.listeners x l }

/-- The steps that leave `msg` and `err` alone. A message that was read is not lost any more, and a
closure deletes its transaction after its assignment. -/
def admits : Action → Bool
  | .host _ (.receive _) => false
  | .host x e => (s.listeners x).allows (s.system.hosts x) e
  | .lose x msg => decide ((s.listeners x).message? ≠ some msg)

/-- One step of the system. -/
def step : ListeningAction → Option ListeningSystem
  | .read x msg =>
    if (x ∈ c.names ∧ s.system.admits c x (.receive msg) = true) ∧
        (s.system.hosts x).panicked.isNone ∧ (s.system.hosts x).listen.isNone ∧
        (s.listeners x).reading.isNone then
      -- The message stays in flight until it is tested, so that a drop is a loss of the system.
      some (s.setListener x ((s.listeners x).read (.ok msg)))
    else none
  | .test x =>
    ((s.listeners x).reading.bind (Reading.action? x)).bind fun action =>
      (s.system.step c action).map fun system =>
        { s.setListener x (s.listeners x).next with system }
  | .assign x ref =>
    if x ∈ c.names ∧ (s.system.hosts x).panicked.isNone then
      ((s.listeners x).assign (s.system.hosts x) ref).map (s.setListener x)
    else none
  | .other action =>
    if s.admits action then (s.system.step c action).map fun system => { s with system } else none

/-- No loss in the network, no timeout or cancellation, and every broadcast reaches every peer. -/
def faultFree : ListeningAction → Bool
  | .other action => P2p.faultFree c s.system action
  | _ => true

/-- No closure puts its error in the place of a message that `listen` has just decoded. -/
def undisturbed : ListeningAction → Bool
  | .assign x ref => (s.listeners x).undisturbed (s.system.hosts x) ref
  | _ => true

end ListeningSystem

/-- The steps of the runs without a fault of the network or of a context. -/
def ListeningSystem.stepFF (c : Cluster) :
    ListeningSystem → ListeningAction → Option ListeningSystem :=
  Library.restrict (ListeningSystem.step c) (ListeningSystem.faultFree c)

/-- The steps of those in which `listen` is not disturbed either. -/
def ListeningSystem.stepClean (c : Cluster) :
    ListeningSystem → ListeningAction → Option ListeningSystem :=
  Library.restrict (ListeningSystem.stepFF c) ListeningSystem.undisturbed

/-- The states of the runs without a fault, in which `listen` is not disturbed. -/
def ReachableClean (c : Cluster) (s : ListeningSystem) : Prop :=
  ∃ clocks, Library.Reaches (ListeningSystem.stepClean c) (ListeningSystem.init c clocks) s

/-- The host `y` receives a message, and its reader takes it. -/
def listens (y : PeerName) (msg : Message) : List ListeningAction :=
  [.read y msg, .test y, .other (.host y .notify)]

/-- The closure at `ref` assigns the result of its handler, and deletes the transaction. -/
def ends (y : PeerName) (ref : Nat) : List ListeningAction :=
  [.assign y ref, .other (.host y (.task ref .run))]

end ReplicatedFs.P2p
