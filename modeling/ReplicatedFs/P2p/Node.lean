import ReplicatedFs.Connection.Transfer
import ReplicatedFs.Library.Channel
import ReplicatedFs.P2p.Listener
import ReplicatedFs.Protobuf.Codec

/-!
# `ReplicatedFs.P2p.Node`: a host with its pool

A `Node` is what `run` in `main.go` starts: the goroutines of `p2p.Host` and those of the
`connection.Pool` that it uses. Between them are

* `Broadcast`: it reads `activeConnections`, and then starts one `Send` for each peer. A `Send` is a
  goroutine of the pool. `Broadcast` returns when all of them have returned.
* `Connection.Listen`, one for each peer: it waits until the connection is open, calls `Recv`, and
  sends what it got on the channel `msgs`. `Establish` starts a goroutine that sends on
  `openNotify`, and `opened` counts the ones that still wait.
* `Host.listen`, which reads `msgs`. The variables that it shares with its closures are those of
  `ReplicatedFs.P2p.Listener`.
* `Host.Close`: it waits until there are no transactions, cancels the context, and closes the pool.

A label of `NodeEvent` is one step of one goroutine. A step of the pool is one of `Pool.step`, and a
step of the host is one of `Host.next`.

`returned` and the `broadcasts` that are done are histories. No step reads them.
-/

set_option autoImplicit false

namespace ReplicatedFs.P2p

open Protobuf
open Connection (ConnId Pool PoolMessage MultiErr RecvOutcome)
open Library (Channel)

/-- A `Send` that `Broadcast` has started, which is the goroutine at `ref` of the pool. `conn` is
the QUIC connection that it uses, and `failed` says whether it ends with an error. -/
structure SendCall where
  peer : PeerName
  ref : Nat
  conn : Option ConnId := none
  failed : Option Bool := none
  deriving DecidableEq, Repr

/-- A `Broadcast` of the goroutine at `ref` of the host. -/
structure BroadcastCall where
  ref : Nat
  sends : List SendCall
  done : Bool := false
  deriving DecidableEq, Repr

/-- Where `Connection.Listen` is. `recv` is the call of `Recv` by the goroutine at `ref` of the
pool, with what it is going to return. -/
inductive NodeListenPc
  | head
  | wait
  | recv (ref : Nat) (result : Option PoolMessage)
  | sink (msg : PoolMessage)
  | returned
  deriving DecidableEq, Repr

/-- Where `Host.Close` is. `conn` is the call of `Pool.Close`. -/
inductive ClosePc
  | wait
  | cancel
  | conn (ref : Nat)
  | returned (errs : MultiErr)
  deriving DecidableEq, Repr

/-- A host with its pool. `listening` says that `Host.listen` has not returned, and `cancelled` that
the context of `Run` is done. -/
structure Node where
  host : Host
  listener : Listener := {}
  pool : Pool
  msgs : Channel (PeerName × PoolMessage)
  listeners : PeerName → NodeListenPc := fun _ => .head
  opened : PeerName → Nat := fun _ => 0
  broadcasts : List BroadcastCall := []
  listening : Bool := true
  cancelled : Bool := false
  close : Option ClosePc := none
  crashed : Bool := false
  /-- What the calls of `Recv` for a peer returned. -/
  returned : PeerName → List PoolMessage := fun _ => []

/-- `NewPool`, `NewHost` and `Run`. Nothing is in the channel, and every `Connection.Listen` is at
the head of its loop. -/
def Node.init (name : PeerName) (peers : List PeerName) (messageBufferSize : Nat) : Node where
  host := { name, peers }
  pool := (Connection.newPool name peers).run
  msgs := .empty messageBufferSize

/-- The labels of a node. -/
inductive NodeEvent
  /-- A step of the host that has nothing to do with the pool. -/
  | host (e : Event)
  /-- `proto.Marshal` fails in `broadcast`. -/
  | marshalFails (ref : Nat)
  /-- `Broadcast` is called, up to the start of its goroutines. -/
  | broadcast (ref : Nat)
  /-- `Broadcast` returns. The peers are the ones that get the message. -/
  | broadcasted (index : Nat) (reached : List PeerName)
  /-- `Host.listen` takes a message from the channel and calls `ReadMessage`. -/
  | receive
  /-- `Host.listen` tests `err`. -/
  | test
  /-- The closure at `ref` assigns the result of its handler to `err`. -/
  | assign (ref : Nat)
  /-- `Host.listen` finds its context done. -/
  | stop
  /-- A step of the pool. -/
  | pool (e : Connection.Event)
  /-- The operation of `Recv` returns. -/
  | recv (peer : PeerName) (outcome : RecvOutcome)
  /-- `Connection.Listen` reads the status. -/
  | head (peer : PeerName)
  /-- `WaitForOpen` returns, because of `openNotify` or of the context. -/
  | opened (peer : PeerName)
  | unopened (peer : PeerName)
  /-- `Recv` returns, and the message goes to the channel. -/
  | received (peer : PeerName)
  | sink (peer : PeerName)
  /-- `Host.Close` is called, and takes a step. -/
  | close
  | closing

/-- The step goes through the pool. -/
def Event.isBroadcast : Event → Bool
  | .task _ (.broadcast _) => true
  | .receive _ => true
  | _ => false

/-- The goroutine of the host is at a call of `Conn.Broadcast`. -/
def Task.broadcasting (t : Task) : Bool :=
  match t.goroutine with
  | .replicate (.broadcast _) | .handle (.respond _ _) => true
  | _ => false

/-- The goroutine that takes the step, with its input. -/
def mover? (p : Pool) : Connection.Event → Option (Nat × Connection.Task × Connection.Input)
  | .task ref input => p.tasks[ref]?.map fun t => (ref, t, input)
  | _ => none

/-- What a step of the pool says about a `Send`: it fails on a dead connection, it loads the QUIC
connection, and it ends with what `handleErrors` makes of the error. -/
def SendCall.observe (p : Pool) (e : Connection.Event) (c : SendCall) : SendCall :=
  match mover? p e with
  | some (ref, t, input) =>
    if ref = c.ref then
      match t, input with
      | .operate peer .check, .run =>
        if (p.pool peer).status = .dead then { c with failed := some true } else c
      | .operate peer .load, .run => { c with conn := (p.pool peer).conn }
      | .operate _ (.running _), .operated err =>
        { c with failed := some (decide (Connection.handleErrors err ≠ .ok)) }
      | _, _ => c
    else c
  | none => c

/-- What a step of the pool says about the `Recv` of `Connection.Listen`. It returns at once when it
finds the connection dead. -/
def NodeListenPc.observe (p : Pool) (e : Connection.Event) (pc : NodeListenPc) : NodeListenPc :=
  match pc, mover? p e with
  | .recv ref none, some (ref', .operate peer .check, .run) =>
    if ref' = ref ∧ (p.pool peer).status = .dead then
      .recv ref (some { err := some (.conn Connection.ConnErr.closed.code) })
    else pc
  | _, _ => pc

/-- The peer for which the step establishes a connection, and so starts the goroutine that sends on
`openNotify`. -/
def opens? (p : Pool) (e : Connection.Event) : Option PeerName :=
  match mover? p e with
  | some (_, .establish h .lock, .run) =>
    if (p.pool h.peer).locked = false ∧ (p.pool h.peer).status ≠ .alive then some h.peer else none
  | _ => none

/-- The error of the operation of `Recv`, as the pool sees it. -/
def recvError (outcome : RecvOutcome) : Option Connection.NetError :=
  match Connection.recv outcome with
  | .failed err => some err.kind
  | _ => none

namespace Node
variable (codec : Codec) (s : Node)

/-- A panic has stopped the process. -/
def stopped : Bool :=
  s.crashed || s.host.panicked.isSome || decide (.panicked ∈ s.pool.tasks)

/-- A step of the host. -/
def hostStep (e : Event) : Option Node := (s.host.next e).map fun host => { s with host }

/-- The node after a step of the pool. -/
def afterPool (e : Connection.Event) (pool : Pool) : Node :=
  { s with
      pool
      listeners := fun peer => (s.listeners peer).observe s.pool e
      opened := fun peer => s.opened peer + (if opens? s.pool e = some peer then 1 else 0)
      broadcasts := s.broadcasts.map fun b =>
        { b with sends := b.sends.map (SendCall.observe s.pool e) } }

/-- A step of the pool. -/
def poolStep (e : Connection.Event) : Option Node := (s.pool.step e).map (s.afterPool e)

/-- The goroutine at `ref` is at a call of `Conn.Broadcast` and has not made it yet. One call at a
time is open for a goroutine. -/
def calls (ref : Nat) : Bool :=
  (s.host.tasks[ref]?.any Task.broadcasting) && !s.broadcasts.any fun b => b.ref = ref && !b.done

/-- `Broadcast` up to the start of its goroutines. It compares the number of active connections with
the number of peers, and only then starts one `Send` for each peer. The two are not in one critical
section, so a `Send` may still find its connection dead. -/
def broadcast (ref : Nat) : Option Node :=
  if s.calls ref then
    -- `ErrPeerIsDown`.
    if s.pool.activeConnections ≠ s.pool.peers.length then
      s.hostStep (.task ref (.broadcast (.refused .peerIsDown)))
    else
      -- The goroutines of the calls come behind those that the pool has.
      let sends := s.pool.peers.zipIdx s.pool.tasks.length
      some { s with
          pool := { s.pool with tasks := s.pool.tasks ++ s.pool.peers.map (.operate · .check) }
          broadcasts := s.broadcasts ++
            [{ ref, sends := sends.map fun c => { peer := c.1, ref := c.2 } }] }
  else none

/-- `Broadcast` returns. A `Send` that had no QUIC connection did not reach its peer. For the others
nothing is known: the bytes may be lost after `Send` returned `nil`, and they may have arrived
although it failed. -/
def broadcasted (index : Nat) (reached : List PeerName) : Option Node :=
  match s.broadcasts[index]? with
  | none => none
  | some b =>
    if b.done = false ∧ (∀ c ∈ b.sends, s.pool.tasks[c.ref]? = some .ended) ∧
        ∀ y ∈ reached, ∃ c ∈ b.sends, c.peer = y ∧ c.conn.isSome then
      let failed := (b.sends.filter fun c => c.failed = some true).map SendCall.peer
      (s.hostStep (.task b.ref (.broadcast (.sent failed reached)))).map fun s =>
        { s with broadcasts := s.broadcasts.set index { b with done := true } }
    else none

/-- `Host.listen` takes a message from the channel. It goes on to the next one when the pool reports
an error, and calls `ReadMessage` otherwise. -/
def receive : Option Node :=
  if s.listening = true ∧ s.host.listen = none ∧ s.listener.reading = none then
    match s.msgs.receive with
    | none => none
    | some ((_, m), msgs) =>
      let s := { s with msgs }
      if m.err.isSome then some s
      else some { s with listener := s.listener.read (codec.readMessage m.data) }
  else none

/-- `Host.listen` tests `err`. With nil in the place of a message, `Put` panics. -/
def test : Option Node :=
  match s.listener.reading.map Reading.tested with
  | none => none
  | some .dropped => some { s with listener := s.listener.next }
  | some .nilMessage => some { s with crashed := true }
  | some (.accepted msg) =>
    (s.hostStep (.receive msg)).map fun s => { s with listener := s.listener.next }

/-- `Connection.Listen` calls `Recv`. -/
def startRecv (peer : PeerName) : Option Node :=
  (s.pool.step (.operate peer)).map fun pool =>
    { s with
        pool
        listeners := Function.update s.listeners peer (.recv s.pool.tasks.length none) }

/-- The operation of `Recv` returns. -/
def recv (peer : PeerName) (outcome : RecvOutcome) : Option Node :=
  match s.listeners peer with
  | .recv ref none =>
    match s.pool.tasks[ref]? with
    | some (.operate _ (.running _)) =>
      let result (m : PoolMessage) : Option Node :=
        (s.poolStep (.task ref (.operated (recvError outcome)))).map fun s =>
          { s with listeners := Function.update s.listeners peer (.recv ref (some m)) }
      match Connection.Status.recv .alive outcome with
      | .panicked => some { s with crashed := true }
      | .data bytes => result { data := bytes }
      | .failed err => result { err := some err }
    | _ => none
  | _ => none

/-- The goroutine at `ref` of the pool is the `Recv` of a `Connection.Listen`. -/
def receives (ref : Nat) : Bool :=
  s.pool.peers.any fun peer =>
    match s.listeners peer with
    | .recv ref' _ => ref' = ref
    | _ => false

/-- The steps of the pool that take nothing from the rest of the node. The calls of `Send`, `Recv`
and `Pool.Close` are steps of the node, and so is the end of a `Recv` of `Connection.Listen`, which
brings a message. -/
def admits : Connection.Event → Bool
  | .operate _ | .close => false
  | .drop _ => true
  -- The end of a `Recv` is the label `recv`, which says what was read.
  | .task ref (.operated _) => !s.receives ref
  | .task _ _ => true

/-- One step of `Host.Close`: the wait for an empty map of transactions, the cancellation of the
context together with the call of `Pool.Close`, and the return of that. -/
def closing : Option Node :=
  match s.close with
  | some .wait => if s.host.ts.entries.isEmpty then some { s with close := some .cancel } else none
  -- The cancellation of the context and the call of `Pool.Close` are one step here.
  | some .cancel =>
    (s.pool.step .close).map fun pool =>
      { s with pool, cancelled := true, close := some (.conn s.pool.tasks.length) }
  | some (.conn ref) =>
    match s.pool.tasks[ref]? with
    | some (.shut (.returned errs)) => some { s with close := some (.returned errs) }
    | _ => none
  | _ => none

/-- One step of a node. -/
def step (e : NodeEvent) : Option Node :=
  if s.stopped then none
  else match e with
    | .host e =>
      if e.isBroadcast = false ∧ s.listener.allows s.host e = true then s.hostStep e else none
    | .marshalFails ref =>
      if s.calls ref then s.hostStep (.task ref (.broadcast (.refused .marshal))) else none
    | .broadcast ref => s.broadcast ref
    | .broadcasted index reached => s.broadcasted index reached
    | .receive => s.receive codec
    | .test => s.test
    | .assign ref => (s.listener.assign s.host ref).map fun listener => { s with listener }
    | .stop =>
      if s.cancelled = true ∧ s.host.listen = none ∧ s.listener.reading = none then
        some { s with listening := false }
      else none
    | .pool e => if s.admits e then s.poolStep e else none
    | .recv peer outcome => s.recv peer outcome
    | .head peer =>
      if s.listeners peer = .head then
        if (s.pool.pool peer).status = .dead then
          some { s with listeners := Function.update s.listeners peer .wait }
        else s.startRecv peer
      else none
    | .opened peer =>
      if s.listeners peer = .wait ∧ 0 < s.opened peer then
        (s.startRecv peer).map fun s' =>
          { s' with opened := Function.update s.opened peer (s.opened peer - 1) }
      else none
    | .unopened peer =>
      if s.listeners peer = .wait ∧ s.cancelled = true then
        some { s with listeners := Function.update s.listeners peer .returned }
      else none
    | .received peer =>
      match s.listeners peer with
      | .recv ref (some m) =>
        if s.pool.tasks[ref]? = some .ended then
          some { s with
              listeners := Function.update s.listeners peer (.sink m)
              returned := Function.update s.returned peer (s.returned peer ++ [m]) }
        else none
      | _ => none
    | .sink peer =>
      match s.listeners peer with
      | .sink m =>
        (s.msgs.send (peer, m)).map fun msgs =>
          { s with msgs, listeners := Function.update s.listeners peer .head }
      | _ => none
    | .close => if s.close = none then some { s with close := some .wait } else none
    | .closing => s.closing

end Node

end ReplicatedFs.P2p
