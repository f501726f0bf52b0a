import Mathlib.Logic.Function.Basic
import ReplicatedFs.Library.Run
import ReplicatedFs.P2p.Host

/-!
# `ReplicatedFs.P2p.Cluster`: the network of hosts

A `Cluster` is the shared configuration: at least two peers with distinct names. A `System`
is the state of all its hosts with the messages between them. One label of the system is one
step of one host, or the loss of a message in flight. Delivery is in any order: `receive`
picks any message in flight to the host.

The guard `System.admits` is what makes the hosts honest. A host receives what was sent to
it. A `Replicate` call draws a fresh UUID, for a request with metadata, which is what
`rfs` builds. `Mirror.Consult` answers with a verdict.

A message may be lost between `Send` and the transactions map: `recv` fails, `ReadMessage`
fails, or `listen` drops it because a handler wrote the `err` variable they share. `lose`
stands for all of these. `faultFree` excludes it, with every failed or partial broadcast and
every finished context. So a fault-free run is also one in which `listen` drops nothing, which is
more than the network can promise. `ReplicatedFs.P2p.Listening` has the variable `err` as a part of
the state and tells the two apart.

`System.log` is a history variable, the calls of `Conn.Broadcast` in order.
-/

set_option autoImplicit false

namespace ReplicatedFs.P2p

open ReplicatedFs.Protobuf

/-- The peers of the configuration. -/
structure Cluster where
  names : List PeerName
  nodup : names.Nodup
  two_le : 2 ≤ names.length

/-- The peers of the host `x`: all the others, in the order of the configuration. -/
def Cluster.peers (c : Cluster) (x : PeerName) : List PeerName := c.names.filter (· ≠ x)

/-- The hosts and the messages in flight, each with its destination. -/
structure System where
  hosts : PeerName → Host
  inFlight : List (PeerName × Message) := []
  log : List Sent := []

/-- The system before any call, with the given conflicts clocks. -/
def System.init (c : Cluster) (clocks : PeerName → UInt64) : System where
  hosts x := { name := x, peers := c.peers x, clock := clocks x }

/-- The labels of the system. -/
inductive Action
  | host (name : PeerName) (event : Event)
  | lose (name : PeerName) (msg : Message)
  deriving DecidableEq, Repr

/-- The label is a new call of `Replicate`. -/
def Action.isCall : Action → Bool
  | .host _ (.replicate _ _) => true
  | _ => false

/-- The transaction id was drawn by some host. -/
def System.used (c : Cluster) (s : System) (tid : TransactionID) : Bool :=
  c.names.any fun x => (s.hosts x).tasks.any fun t => t.trans.tid = tid

/-- The step of the host `x` is one that an honest host can make. -/
def System.admits (c : Cluster) (s : System) (x : PeerName) : Event → Bool
  | .replicate tid request => !s.used c tid && request.metadata.isSome
  | .receive msg => (x, msg) ∈ s.inFlight
  | .task _ (.consulted response) => decide response.IsVerdict
  | _ => true

/-- The messages in flight after a step of the host `x`. -/
def System.flightAfter (s : System) (x : PeerName) (e : Event) (sent : Option Sent) :
    List (PeerName × Message) :=
  let left := match e with
    | .receive msg => s.inFlight.erase (x, msg)
    | _ => s.inFlight
  left ++ sent.toList.flatMap fun b => b.reached.map fun y => (y, b.msg)

/-- One step of the system. -/
def System.step (c : Cluster) (s : System) : Action → Option System
  | .host x e =>
    if x ∈ c.names ∧ s.admits c x e = true then
      ((s.hosts x).step e).map fun (h, sent) =>
        { hosts := Function.update s.hosts x h
          inFlight := s.flightAfter x e sent
          log := s.log ++ sent.toList }
    else none
  | .lose x msg =>
    if (x, msg) ∈ s.inFlight then some { s with inFlight := s.inFlight.erase (x, msg) }
    else none

/-- No loss, be it in the network or by `listen`, no timeout or cancellation, and every broadcast
reaches every peer. -/
def faultFree (c : Cluster) (_ : System) : Action → Bool
  | .lose _ _ => false
  | .host _ (.task _ (.contextDone _)) => false
  | .host _ (.task _ (.broadcast (.refused _))) => false
  | .host x (.task _ (.broadcast (.sent failed reached))) =>
    (c.peers x).all fun p => p ∉ failed ∧ p ∈ reached
  | _ => true

/-- The states of any run. -/
def Reachable (c : Cluster) (s : System) : Prop :=
  ∃ clocks, Library.Reaches (System.step c) (System.init c clocks) s

/-- The steps of fault-free runs. -/
def System.stepFF (c : Cluster) : System → Action → Option System :=
  Library.restrict (System.step c) (faultFree c)

/-- The states of fault-free runs. -/
def ReachableFF (c : Cluster) (s : System) : Prop :=
  ∃ clocks, Library.Reaches (System.stepFF c) (System.init c clocks) s

/-- A fault-free run can be continued, and its states stay reachable in this way. -/
theorem ReachableFF.trans {c : Cluster} {s s' : System} (h : ReachableFF c s)
    (h' : Library.Reaches (System.stepFF c) s s') : ReachableFF c s' := by
  obtain ⟨clocks, hs⟩ := h
  exact ⟨clocks, hs.trans h'⟩

/-- A run that can be evaluated, with what is observed at its end. -/
theorem Reachable.of_run (c : Cluster) (clocks : PeerName → UInt64) (as : List Action)
    (p : System → Bool)
    (h : (Library.run (System.step c) (System.init c clocks) as).any p = true) :
    ∃ s, Reachable c s ∧ p s = true := by
  obtain ⟨s, hs, hp⟩ := Library.Reaches.of_any _ as p h
  exact ⟨s, ⟨clocks, hs⟩, hp⟩

/-- A fault-free run that can be evaluated, with what is observed at its end. -/
theorem ReachableFF.of_run (c : Cluster) (clocks : PeerName → UInt64) (as : List Action)
    (p : System → Bool)
    (h : (Library.run (System.stepFF c) (System.init c clocks) as).any p = true) :
    ∃ s, ReachableFF c s ∧ p s = true := by
  obtain ⟨s, hs, hp⟩ := Library.Reaches.of_any _ as p h
  exact ⟨s, ⟨clocks, hs⟩, hp⟩

/-- The task at the index `ref` of the host `x`. -/
def System.task? (s : System) (x : PeerName) (ref : Nat) : Option Task := (s.hosts x).tasks[ref]?

/-- What reached or is about to reach the host `x`: the messages `listen` put in a transaction
and the ones in flight. -/
def System.arrived (s : System) (x : PeerName) : List Message :=
  (s.hosts x).tasks.flatMap Task.inbox ++ (s.inFlight.filter (·.1 = x)).map Prod.snd

/-- The peers of a host are the other hosts. A host is never its own peer. -/
@[simp] theorem Cluster.mem_peers {c : Cluster} {x y : PeerName} :
    y ∈ c.peers x ↔ y ∈ c.names ∧ y ≠ x := by
  simp [Cluster.peers]

/-- No peer is counted twice, so the number of responses that `Replicate` waits for is the number of
peers. -/
theorem Cluster.nodup_peers (c : Cluster) (x : PeerName) : (c.peers x).Nodup :=
  c.nodup.filter _

/-- A host has one peer less than there are names. The names are distinct, so this is an exact
count. -/
theorem Cluster.length_peers {c : Cluster} {x : PeerName} (hx : x ∈ c.names) :
    (c.peers x).length + 1 = c.names.length := by
  have hperm : c.names.Perm (x :: c.peers x) := by
    rw [List.perm_ext_iff_of_nodup c.nodup (by simp [c.nodup_peers])]
    intro y
    by_cases hy : y = x <;> simp [hy, hx]
  simpa using hperm.length_eq.symm

/-- There is another host. A cluster has at least two names. -/
theorem Cluster.length_peers_pos {c : Cluster} {x : PeerName} (hx : x ∈ c.names) :
    0 < (c.peers x).length := by
  have := c.length_peers hx
  have := c.two_le
  omega

/-- Two hosts. -/
def duo : Cluster := ⟨["a", "b"], by decide, by decide⟩

/-- Three hosts. -/
def trio : Cluster := ⟨["a", "b", "c"], by decide, by decide⟩

/-- A `MKDIR` request. -/
def mkdirRequest (path : String) (clock : UInt64) : Request :=
  { type := .mkdir, metadata := some { relativePath := path }, clock }

/-- A broadcast that reaches the listed hosts and reports no error. -/
def reaching (names : List PeerName) : Input := .broadcast (.sent [] names)

/-- The host `x` calls `Replicate` and broadcasts its request to the listed hosts. -/
def calls (x : PeerName) (ref : Nat) (tid : TransactionID) (request : Request)
    (names : List PeerName) : List Action :=
  [.host x (.replicate tid request), .host x (.task ref .run),
    .host x (.task ref (reaching names))]

/-- The host `y` receives a message and its reader takes it. -/
def hears (y : PeerName) (msg : Message) : List Action :=
  [.host y (.receive msg), .host y .notify]

/-- The handler at `ref` has taken a request. `Mirror.Consult` answers `ACK`, and the vote is
broadcast to the listed hosts. -/
def votes (y : PeerName) (ref : Nat) (names : List PeerName) : List Action :=
  [.host y (.task ref (.consulted ack)), .host y (.task ref .run),
    .host y (.task ref (reaching names))]

end ReplicatedFs.P2p
