import ReplicatedFs.Connection.NetOp
import ReplicatedFs.Connection.Pool
import ReplicatedFs.Library.Run

/-!
# `ReplicatedFs.Connection.Transfer`: from the streams to `Broadcast` and `Listen`

The model of `Send`, `Recv`, `Listen` and `handleErrors` in `connection/connection.go`, and of
`Broadcast` in `connection/pool.go`, with the error values. `Pool` has the same calls as goroutines
that compete for a `Connection`. There an error is only a kind of error (`NetError`), and
`handleErrors_kind` in `Proofs/Connection/Delivery.lean` says that this is enough.

A call reads the status of its connection when it starts, so the status is an input of the call,
next to the outcome of the operation on the stream. `Broadcast` makes its calls of `Send` in
parallel, and each has its own status and its own outcome. They share nothing but `MultiErr`, which
has one entry for each name.

* An error with a method `Cause` is one of `errors.Wrap`, so `Cause` never ends in `nil`.
* `Listen` is a loop, and one of its steps is one event of `ListenEvent`.
-/

set_option autoImplicit false

namespace ReplicatedFs.Connection

open Protobuf

/-- The error that `handleErrors` looks at. -/
def Err.root (err : Err) : Err := err.cause.unwrap.getD err.cause

/-- `handleErrors`, with the error that it returns. The flag says that it calls `Close`. -/
def handleErr : Option Err → Option Err × Bool
  | none => (none, false)
  | some err =>
    -- `Close` is called, and the error is reported as that of a closed connection.
    let closed (err : Err) : Option Err × Bool := (some (.wrap ConnErr.closed.text err), true)
    match err.root with
    | .eof | .canceled => closed err
    | .opError temporary _ | .opErrorOf temporary _ _ =>
      if temporary = false then closed err else (some err, false)
    | .quicStream code _ => (some (.stream code), false)
    | .application code _ =>
      -- The other end has refused the connection as a second one. The error is dropped.
      if code = ConnErr.alreadyEstablished.code then (none, false)
      else if code = ConnErr.closed.code then closed (.conn code)
      else (some (.conn code), false)
    | _ => (some err, false)

/-- What `handleErrors` takes an error for. -/
def Err.kind (err : Err) : NetError :=
  match err.root with
  | .eof => .eof
  | .canceled => .canceled
  | .opError temporary _ | .opErrorOf temporary _ _ => .op temporary
  | .quicStream code _ => .stream code.toNat
  | .application code _ => .application (.ofCode code)
  | root => .other root.text

/-- `Send`, when it finds the connection with the status. -/
def Status.send (status : Status) (outcome : SendOutcome) : Option Err :=
  if status = .dead then some (.conn ConnErr.closed.code)
  else (handleErr (Connection.send outcome)).1.map (.wrap "failed to send data")

/-- `Recv`, when it finds the connection with the status. -/
def Status.recv (status : Status) (outcome : RecvOutcome) : Received :=
  if status = .dead then .failed (.conn ConnErr.closed.code)
  else match Connection.recv outcome with
    | .panicked => .panicked
    | .data bytes => .data bytes
    | .failed err =>
      match (handleErr (some err)).1 with
      | some err => .failed (.wrap "failed to receive data" err)
      -- `data` is still `nil`.
      | none => .data []

/-- One call of `Send`. -/
structure SendTurn where
  status : Status
  outcome : SendOutcome
  deriving DecidableEq, Repr

/-- What `Broadcast` returns other than `nil`. -/
inductive BroadcastErr
  | peerIsDown
  | multi (errs : List (PeerName × Err))
  deriving DecidableEq, Repr

/-- `Broadcast`. -/
def Pool.broadcast (p : Pool) (turns : PeerName → SendTurn) : Option BroadcastErr :=
  if p.activeConnections ≠ p.peers.length then some .peerIsDown
  else
    let errs := p.peers.filterMap fun peer =>
      ((turns peer).status.send (turns peer).outcome).map (peer, ·)
    if errs = [] then none else some (.multi errs)

/-- `Message` of `connection/pool.go`. -/
structure PoolMessage where
  data : List UInt8 := []
  err : Option Err := none
  deriving DecidableEq, Repr

/-- Where `Listen` is. -/
inductive ListenPc
  | head
  | wait
  | recv
  | returned
  | panicked
  deriving DecidableEq, Repr

/-- A step of `Listen`: it reads the status, `WaitForOpen` returns, or `Recv` returns. -/
inductive ListenEvent
  | head (status : Status)
  | opened (err : Option String)
  | recv (status : Status) (outcome : RecvOutcome)
  deriving DecidableEq, Repr

/-- `Listen`, with what it put on the sink. Every message is kept with the outcome of the `recv`
before it. -/
structure Listener where
  pc : ListenPc := .head
  sunk : List (RecvOutcome × PoolMessage) := []
  deriving DecidableEq, Repr

/-- One step of `Listen`. -/
def Listener.step (l : Listener) : ListenEvent → Option Listener
  | .head status =>
    if l.pc = .head then some { l with pc := if status = .dead then .wait else .recv } else none
  | .opened err =>
    if l.pc = .wait then some { l with pc := if err = none then .recv else .returned } else none
  | .recv status outcome =>
    if l.pc = .recv then
      match status.recv outcome with
      | .panicked => some { l with pc := .panicked }
      | .failed err => some { pc := .head, sunk := (outcome, ⟨[], some err⟩) :: l.sunk }
      | .data bytes => some { pc := .head, sunk := (outcome, ⟨bytes, none⟩) :: l.sunk }
    else none

end ReplicatedFs.Connection
