import ReplicatedFs.Connection.Perspective

/-!
# `ReplicatedFs.Connection.Connection`: the connection to one peer

The model of `connection/connection.go`. A `Connection` outlives the QUIC connections that carry
it. `Establish` assigns a QUIC connection to it, and `Close` gives it up again.

Several goroutines work on one `Connection`: the handlers that call `Establish`, one
`watchConnection` for each QUIC connection that was assigned, and any number of `Send` and `Recv`.
The types with the suffix `Pc` say where such a call is. A call moves from one access of the shared
state to the next. The fields `status`, `perspective` and `conn` are also read without the mutex,
so each of these reads is a step of its own.

What runs between `Lock` and `Unlock` is one step in `Establish`, where nothing blocks. `Close`
keeps the mutex while it closes the QUIC connection, so it takes two steps, and `locked` says that
it is between them.
-/

set_option autoImplicit false

namespace ReplicatedFs.Connection

/-- A `quic.Connection`. Both ends know it by the same number. -/
abbrev ConnId := Nat

/-- `Status`. Nothing sets `StatusShutdown`. -/
inductive Status
  | dead
  | alive
  | shutdown
  deriving DecidableEq, Repr

end ReplicatedFs.Connection

namespace ReplicatedFs

open Connection Protobuf

/-- `Connection`. The counter is the one of its `perspectiveResolver`, and `locked` its mutex. -/
structure Connection where
  host : PeerName
  peer : PeerName
  conn : Option ConnId := none
  status : Status := .dead
  perspective : Perspective := .unknown
  counter : UInt32 := 0
  locked : Bool := false
  deriving DecidableEq, Repr

end ReplicatedFs

namespace ReplicatedFs.Connection

open Protobuf

/-- `NewConnection`. -/
def newConnection (host peer : PeerName) : Connection := { host, peer }

/-- The connection is alive on the QUIC connection. -/
def aliveOn (c : Connection) (conn : ConnId) : Prop :=
  c.status = .alive ∧ c.conn = some conn

instance (c : Connection) (conn : ConnId) : Decidable (c.aliveOn conn) :=
  inferInstanceAs (Decidable (_ ∧ _))

/-- The errors of `Establish`. -/
inductive EstablishError
  | alreadyEstablished
  | resolve (err : ResolveError)
  deriving DecidableEq, Repr

/-- Where a call of `Establish` is. `ctr` is what the counter gave out. -/
inductive EstablishPc
  | check
  | count
  | send (ctr : UInt32)
  | receive (ctr : UInt32)
  | lock
  | returned (err : Option EstablishError)
  deriving DecidableEq, Repr

/-- The fast path of `Establish`. -/
def established (c : Connection) : Bool :=
  c.status = .alive && c.perspective ≠ .unknown

/-- What `Establish` assigns under the mutex. -/
def assign (c : Connection) (perspective : Perspective) (conn : ConnId) : Connection :=
  { c with conn := some conn, perspective, status := .alive }

/-- Where a call of `Close` is. At `finish` it holds the mutex. -/
inductive ClosePc
  | lock
  | finish
  deriving DecidableEq, Repr

/-- `Close` up to the call of `closeConn`. -/
def markDead (c : Connection) : Connection := { c with status := .dead, locked := true }

/-- `Close` after the call of `closeConn`, with the reset of the resolver. -/
def reset (c : Connection) : Connection :=
  { c with perspective := .unknown, counter := 0, locked := false }

/-- The errors of a send or of a receive, as `handleErrors` tells them apart. -/
inductive NetError
  | eof
  | canceled
  | op (temporary : Bool)
  | stream (code : Nat)
  | application (err : ConnErr)
  | other (text : String)
  deriving DecidableEq, Repr

/-- What `handleErrors` concludes. For `closed` it calls `Close`. -/
inductive Handled
  | ok
  | failed (err : NetError)
  | closed (err : NetError)
  deriving DecidableEq, Repr

/-- `handleErrors`. -/
def handleErrors : Option NetError → Handled
  | none => .ok
  | some .eof => .closed .eof
  | some .canceled => .closed .canceled
  | some (.op temporary) =>
    if temporary = false then .closed (.op temporary) else .failed (.op temporary)
  | some (.stream code) => .failed (.stream code)
  | some (.application err) =>
    match err with
    -- The other end has refused a second QUIC connection.
    | .alreadyEstablished => .ok
    | .closed => .closed (.application .closed)
    | _ => .failed (.application err)
  | some (.other text) => .failed (.other text)

/-- Where a call of `Send` or `Recv` is. At `running` it sends or receives on the QUIC
connection. -/
inductive OperatePc
  | check
  | load
  | running (conn : ConnId)
  deriving DecidableEq, Repr

end ReplicatedFs.Connection
