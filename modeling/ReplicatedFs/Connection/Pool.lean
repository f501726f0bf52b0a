import ReplicatedFs.Connection.Connection

/-!
# `ReplicatedFs.Connection.Pool`: the connections of a host

The model of `connection/pool.go`. A pool has one `Connection` for each peer. `Run` starts one
goroutine that accepts and one for each peer that dials. Both count themselves in
`activeConnectionHandlers` while they have a QUIC connection that is not settled, and look at
`closed` after that. `Close` sets `closed` first, and then waits for the counter.

A `Task` is a goroutine. It is at a point of its own code, or in a call of `Establish` or of
`Connection.Close` that it made (`Handler`, `Closer` say for whom). A step of a task is one access
to the state that the goroutines share, with the input that the environment gives: what a dial, a
send or a receive returns. `Event` is one step of the pool, so a list of events is one
interleaving.

* The context that `Close` cancels is not in the state. Every dial, accept, send and receive may
  fail at any time.
* The backoff and the ticks are left out. A goroutine that waits for them takes no step here, also
  when it waits forever (`ReplicatedFs.Connection.Dial` has the pool with its backoffs).
* `Broadcast` and `Listen` call `Send` and `Recv`. Here a call of these may come at any time.
* `counted` and `broken` are histories. No step of the code reads them.
-/

set_option autoImplicit false

namespace ReplicatedFs.Connection

open Protobuf

/-- The errors of `dialOnce` and of the handlers of `acceptConnections`. `net` is one of the dial
or of `Accept`. -/
inductive AddError
  | poolClosed
  | net (text : String)
  | establish (err : EstablishError)
  deriving DecidableEq, Repr

/-- The goroutine that counted itself as a handler: `dial` for a peer, `acceptConnections`, or the
goroutine that this started. -/
inductive Caller
  | dial (peer : PeerName)
  | accept
  | handler
  deriving DecidableEq, Repr

/-- A call of `Pool.add`. The peer is the one that the certificate names. -/
structure Handler where
  caller : Caller
  peer : PeerName
  perspective : Perspective
  conn : ConnId
  deriving DecidableEq, Repr

/-- Where `dial` is, with `dialOnce`. -/
inductive DialPc
  | head
  | wait
  | add
  | check
  | dial
  deriving DecidableEq, Repr

/-- What `Accept` returned: a QUIC connection with the peer, or an error. -/
abbrev Accepted := Except String (ConnId × PeerName)

/-- Where `acceptConnections` is. -/
inductive AcceptPc
  | accept
  | add (result : Accepted)
  | check (result : Accepted)
  | refuse (result : Accepted)
  deriving DecidableEq, Repr

/-- `MultiErr`. -/
abbrev MultiErr := List (String × String)

/-- Who called `Connection.Close`: `watchConnection`, a `Send` or `Recv` on the QUIC connection, or
`Pool.Close` after it closed the connections to some of the peers. -/
inductive Closer
  | watch (conn : ConnId)
  | operate (conn : ConnId)
  | shut (closed : List PeerName) (errs : MultiErr)
  deriving DecidableEq, Repr

/-- Where `Pool.Close` is. -/
inductive ShutPc
  | store
  | wait
  | listener
  | closing (closed : List PeerName) (errs : MultiErr)
  | returned (errs : MultiErr)
  deriving DecidableEq, Repr

/-- A goroutine. `leave` is the call of `removeConnectionHandler`. -/
inductive Task
  | dial (peer : PeerName) (pc : DialPc)
  | accept (pc : AcceptPc)
  | establish (handler : Handler) (pc : EstablishPc)
  | leave (caller : Caller) (result : Option AddError)
  | watch (peer : PeerName) (conn : ConnId)
  | operate (peer : PeerName) (pc : OperatePc)
  | close (closer : Closer) (peer : PeerName) (pc : ClosePc)
  | shut (pc : ShutPc)
  | ended
  | panicked
  deriving DecidableEq, Repr

/-- `Pool`. `peers` are the keys of its map, and `done` are the QUIC connections whose context is
done. -/
structure Pool where
  host : PeerName
  peers : List PeerName
  pool : PeerName → Connection
  activeConnectionHandlers : Int := 0
  activeConnections : Int := 0
  closed : Bool := false
  tasks : List Task := []
  done : List ConnId := []
  /-- The resolvents that were sent. -/
  sent : List (ConnId × Resolvent) := []
  /-- What the counters gave out for a QUIC connection. -/
  counted : List (ConnId × UInt32) := []
  /-- The QUIC connections on which an operation failed for good. -/
  broken : List ConnId := []

/-- `NewPool`. -/
def newPool (host : PeerName) (peers : List PeerName) : Pool :=
  { host, peers := peers.dedup, pool := newConnection host }

/-- `Run`. -/
def Pool.run (p : Pool) : Pool :=
  { p with
      closed := false
      tasks := p.tasks ++ .accept .accept :: p.peers.map (.dial · .head) }

/-- `VerifyConnection`, for the common names of the certificates. It gives the peer that `add`
reads from the first one. -/
def Pool.verifyConnection (p : Pool) (certificates : List PeerName) : Except String PeerName :=
  match certificates with
  | [peerName] =>
    if peerName ∈ p.peers then .ok peerName
    else .error ("CN: " ++ peerName ++ ", is not authorized to participate in the peer network")
  | _ =>
    .error ("expected exactly one peer certificate, got " ++ toString certificates.length)

/-- What the environment contributes to a step of a goroutine. -/
inductive Input
  | run
  /-- A dial or `Accept` returns. -/
  | handshake (result : Except String (ConnId × List PeerName))
  /-- The send of a resolvent returns. -/
  | sent (err : Option String)
  /-- The receive of a resolvent returns. -/
  | received (result : Except String (List UInt8))
  /-- The operation of `Send` or `Recv` returns. -/
  | operated (err : Option NetError)
  /-- `CloseWithError`, or `Close` of the listener, returns. -/
  | closed (err : Option String)
  /-- The map iteration of `Pool.Close` goes to a peer. -/
  | visit (peer : PeerName)
  deriving DecidableEq, Repr

/-- What a step of a goroutine leads to: the state that it shares, the goroutine itself, and one
that it starts. -/
structure Outcome where
  pool : Pool
  task : Task
  spawned : Option Task := none

/-- The pool with another connection to the peer. -/
def Pool.update (p : Pool) (peer : PeerName) (c : Connection) : Pool :=
  { p with pool := Function.update p.pool peer c }

/-- `closeConn`. The context of the QUIC connection is done unless it fails. -/
def Pool.closeConn (p : Pool) (conn : ConnId) (err : Option String) : Pool :=
  if err = none then { p with done := conn :: p.done } else p

/-- The first half of `addConnectionHandler`. -/
def Pool.addHandler (p : Pool) : Pool :=
  { p with activeConnectionHandlers := p.activeConnectionHandlers + 1 }

/-- `removeConnectionHandler`. -/
def Pool.removeHandler (p : Pool) : Pool :=
  { p with activeConnectionHandlers := p.activeConnectionHandlers - 1 }

/-- One step of `dial`. -/
def Pool.dialStep (p : Pool) (peer : PeerName) : DialPc → Input → Option Outcome
  | .head, .run =>
    some ⟨p, .dial peer (if (p.pool peer).status = .alive then .wait else .add), none⟩
  -- The ticks of the inner loop do nothing until the connection is dead.
  | .wait, .run => if (p.pool peer).status = .dead then some ⟨p, .dial peer .add, none⟩ else none
  | .add, .run => some ⟨p.addHandler, .dial peer .check, none⟩
  | .check, .run =>
    some ⟨p, if p.closed then .leave (.dial peer) (some .poolClosed) else .dial peer .dial, none⟩
  | .dial, .handshake (.error text) => some ⟨p, .leave (.dial peer) (some (.net text)), none⟩
  | .dial, .handshake (.ok (conn, certificates)) =>
    match p.verifyConnection certificates with
    -- The handshake fails with the error of `VerifyConnection`.
    | .error text => some ⟨p, .leave (.dial peer) (some (.net text)), none⟩
    | .ok name => some ⟨p, .establish ⟨.dial peer, name, .client, conn⟩ .check, none⟩
  | _, _ => none

/-- One step of `acceptConnections`. A QUIC connection that is not verified does not get here. -/
def Pool.acceptStep (p : Pool) : AcceptPc → Input → Option Outcome
  | .accept, .handshake (.error text) => some ⟨p, .accept (.add (.error text)), none⟩
  | .accept, .handshake (.ok (conn, certificates)) =>
    match p.verifyConnection certificates with
    | .error _ => none
    | .ok name => some ⟨p, .accept (.add (.ok (conn, name))), none⟩
  | .add result, .run => some ⟨p.addHandler, .accept (.check result), none⟩
  | .check result, .run =>
    -- The error of `Accept` is looked at after that, so there may be no QUIC connection to refuse.
    if p.closed then some ⟨p, .accept (.refuse result), none⟩
    else match result with
      | .error text => some ⟨p, .leave .accept (some (.net text)), none⟩
      | .ok (conn, name) =>
        some ⟨p, .accept .accept, some (.establish ⟨.handler, name, .server, conn⟩ .check)⟩
  -- `closeConn` does nothing without a QUIC connection.
  | .refuse (.error _), .run => some ⟨p, .leave .accept (some .poolClosed), none⟩
  | .refuse (.ok (conn, _)), .closed err =>
    some ⟨p.closeConn conn err, .leave .accept (some .poolClosed), none⟩
  | _, _ => none

/-- One step of `Establish`, and of `Pool.add` after it. -/
def Pool.establishStep (p : Pool) (h : Handler) : EstablishPc → Input → Option Outcome
  -- The fast path reads the status and the perspective without the mutex.
  | .check, .run =>
    some ⟨p, .establish h
      (if (p.pool h.peer).established then .returned (some .alreadyEstablished) else .count), none⟩
  -- The calls for one peer share the counter, and only `Close` resets it.
  | .count, .run =>
    let c := p.pool h.peer
    let ctr := c.counter + 1
    some ⟨{ p.update h.peer { c with counter := ctr } with counted := (h.conn, ctr) :: p.counted },
      .establish h (.send ctr), none⟩
  | .send ctr, .sent none =>
    some ⟨{ p with sent := (h.conn, ⟨h.perspective, ctr⟩) :: p.sent },
      .establish h (.receive ctr), none⟩
  | .send _, .sent (some text) =>
    some ⟨p, .establish h (.returned (some (.resolve (.net text)))), none⟩
  | .receive _, .received (.error text) =>
    some ⟨p, .establish h (.returned (some (.resolve (.net text)))), none⟩
  | .receive ctr, .received (.ok data) =>
    some ⟨p, .establish h
      (match verdict h.perspective p.host h.peer ctr data with
        | .error err => .returned (some (.resolve err))
        | .ok () => .lock), none⟩
  | .lock, .run =>
    let c := p.pool h.peer
    if c.locked then none
    -- Another call may have been faster since the fast path.
    else if c.status = .alive then
      some ⟨p, .establish h (.returned (some .alreadyEstablished)), none⟩
    else
      some ⟨{ p.update h.peer (c.assign h.perspective h.conn) with
          activeConnections := p.activeConnections + 1 },
        .establish h (.returned none), some (.watch h.peer h.conn)⟩
  | .returned none, .run => some ⟨p, .leave h.caller none, none⟩
  -- `Pool.add` closes a QUIC connection that is not used.
  | .returned (some err), .closed result =>
    some ⟨p.closeConn h.conn result, .leave h.caller (some (.establish err)), none⟩
  | _, _ => none

/-- The goroutine after `removeConnectionHandler`. `dial` and `acceptConnections` go on unless the
pool is closed. -/
def Caller.next (caller : Caller) (result : Option AddError) : Task :=
  match caller with
  | .dial peer => if result = some .poolClosed then .ended else .dial peer .head
  | .accept => if result = some .poolClosed then .ended else .accept .accept
  | .handler => .ended

/-- One step of `Send` or `Recv`. -/
def Pool.operateStep (p : Pool) (peer : PeerName) : OperatePc → Input → Option Outcome
  | .check, .run =>
    some ⟨p, if (p.pool peer).status = .dead then .ended else .operate peer .load, none⟩
  -- The status and the QUIC connection are read one after the other.
  | .load, .run =>
    some ⟨p, match (p.pool peer).conn with
      | none => .panicked
      | some conn => .operate peer (.running conn), none⟩
  | .running conn, .operated err =>
    match handleErrors err with
    | .closed _ =>
      some ⟨{ p with broken := conn :: p.broken }, .close (.operate conn) peer .lock, none⟩
    | _ => some ⟨p, .ended, none⟩
  | _, _ => none

/-- The goroutine after `Connection.Close`, with the error that it returned. `Pool.Close` is the
only caller that keeps it. -/
def Closer.next (closer : Closer) (peer : PeerName) (err : Option String) : Task :=
  match closer with
  | .watch _ | .operate _ => .ended
  | .shut closed errs =>
    .shut (.closing (peer :: closed) (errs ++ (err.map fun e => (peer, e)).toList))

/-- One step of `Connection.Close`. A QUIC connection whose context is done is not closed again,
and the error is the one that `Close` was called with. -/
def Pool.closeStep (p : Pool) (closer : Closer) (peer : PeerName) :
    ClosePc → Input → Option Outcome
  | .lock, .run =>
    let c := p.pool peer
    if c.locked then none
    -- Somebody else has closed it.
    else if c.status = .dead then some ⟨p, closer.next peer none, none⟩
    else some ⟨p.update peer c.markDead, .close closer peer .finish, none⟩
  | .finish, .closed result =>
    let c := p.pool peer
    match c.conn with
    -- The method is called on a nil interface.
    | none => some ⟨p, .panicked, none⟩
    | some conn =>
      let closed := p.done.contains conn
      let q := if closed then p else p.closeConn conn result
      let err := if closed then some ConnErr.closed.text else result
      some ⟨{ q.update peer c.reset with activeConnections := p.activeConnections - 1 },
        closer.next peer err, none⟩
  | _, _ => none

/-- One step of `Pool.Close`. -/
def Pool.shutStep (p : Pool) : ShutPc → Input → Option Outcome
  | .store, .run => some ⟨{ p with closed := true }, .shut .wait, none⟩
  -- Each tick reads the counter once.
  | .wait, .run =>
    if p.activeConnectionHandlers = 0 then some ⟨p, .shut .listener, none⟩ else none
  | .listener, .closed err =>
    let errs := (err.map fun e => ("QUIC listener", "failed to close QUIC listener: " ++ e)).toList
    some ⟨p, .shut (.closing [] errs), none⟩
  | .closing closed errs, .visit peer =>
    if peer ∈ p.peers ∧ peer ∉ closed then some ⟨p, .close (.shut closed errs) peer .lock, none⟩
    else none
  | .closing closed errs, .run =>
    if ∀ peer ∈ p.peers, peer ∈ closed then some ⟨p, .shut (.returned errs), none⟩ else none
  | _, _ => none

/-- One step of a goroutine. -/
def Pool.taskStep (p : Pool) : Task → Input → Option Outcome
  | .dial peer pc, input => p.dialStep peer pc input
  | .accept pc, input => p.acceptStep pc input
  | .establish handler pc, input => p.establishStep handler pc input
  | .leave caller result, .run => some ⟨p.removeHandler, caller.next result, none⟩
  | .watch peer conn, .run =>
    if conn ∈ p.done then some ⟨p, .close (.watch conn) peer .lock, none⟩ else none
  | .operate peer pc, input => p.operateStep peer pc input
  | .close closer peer pc, input => p.closeStep closer peer pc input
  | .shut pc, input => p.shutStep pc input
  | _, _ => none

/-- The pool after a step of the goroutine at `ref`. -/
def Pool.apply (p : Pool) (ref : Nat) (o : Outcome) : Pool :=
  { o.pool with tasks := p.tasks.set ref o.task ++ o.spawned.toList }

/-- The labels of a pool: `Send` or `Recv` is called, `Pool.Close` is called, a QUIC connection is
closed by the other end or lost, a goroutine takes a step. -/
inductive Event
  | operate (peer : PeerName)
  | close
  | drop (conn : ConnId)
  | task (ref : Nat) (input : Input)
  deriving DecidableEq, Repr

/-- One step of a pool. A goroutine that panicked ends the program. -/
def Pool.step (p : Pool) (e : Event) : Option Pool :=
  if .panicked ∈ p.tasks then none
  else match e with
    | .operate peer =>
      if peer ∈ p.peers then some { p with tasks := p.tasks ++ [.operate peer .check] } else none
    | .close => some { p with tasks := p.tasks ++ [.shut .store] }
    | .drop conn => some { p with done := conn :: p.done }
    | .task ref input =>
      match p.tasks[ref]? with
      | none => none
      | some t => (p.taskStep t input).map (p.apply ref)

end ReplicatedFs.Connection
