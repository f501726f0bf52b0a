import ReplicatedFs.Protobuf.Message

/-!
# `ReplicatedFs.Connection.Perspective`: who is the client of a connection

The model of `connection/perspective.go`, with the fallback that `Establish` passes to it.

Both ends of a QUIC connection send one byte, the resolvent: the perspective of the sender in the
two upper bits, and its counter in the rest. The counter is a `uint32`, and nothing keeps it below
64. A greater one overwrites the perspective, and what does not fit is cut off.

The round trip itself is not here: `resolve` gets the bytes that were received. What happens when
a send or a receive fails is part of `Establish`.
-/

set_option autoImplicit false

namespace ReplicatedFs.Connection

open Protobuf

/-- `Perspective`, a byte with three named values. -/
inductive Perspective
  | unknown
  | server
  | client
  | other (value : UInt8)
  deriving DecidableEq, Repr

/-- The value of a perspective. -/
def Perspective.toByte : Perspective → UInt8
  | .unknown => 0
  | .server => 1
  | .client => 2
  | .other value => value

/-- The perspective with the value. -/
def Perspective.ofByte (value : UInt8) : Perspective :=
  if value = 0 then .unknown
  else if value = 1 then .server
  else if value = 2 then .client
  else .other value

/-- `connErr`. -/
inductive ConnErr
  | unspecified
  | alreadyEstablished
  | closed
  | cancelled
  | notResolved
  deriving DecidableEq, Repr

/-- `Error`. -/
def ConnErr.text : ConnErr → String
  | .alreadyEstablished => "connection was already established"
  | .closed => "connection is closed"
  | .cancelled => "context was cancelled"
  | .notResolved => "connection was not resolved and both peers have agreed to close it"
  | .unspecified => "unspecified connection error"

/-- The errors of `Resolve`. `net` is one of a send or of a receive. Their texts are left out: they
are logged, and sent as the reason when the connection is closed, and no code reads them. -/
inductive ResolveError
  | net (text : String)
  | invalidResolvent (data : List UInt8)
  | samePerspective
  | notResolved
  deriving DecidableEq, Repr

/-- `perspectiveResolvent`. -/
structure Resolvent where
  perspective : Perspective
  ctr : UInt32
  deriving DecidableEq, Repr

/-- `Encode`. -/
def Resolvent.encode (r : Resolvent) : List UInt8 :=
  [((r.perspective.toByte.toUInt32 <<< 6) ||| r.ctr).toUInt8]

/-- `Decode`. -/
def Resolvent.decode : List UInt8 → Except ResolveError Resolvent
  | [b] => .ok ⟨.ofByte (b >>> 6), (b &&& 63).toUInt32⟩
  | data => .error (.invalidResolvent data)

/-- `perspectiveResolver.resolve` after the round trip: whether both counters are equal. -/
def resolve (perspective : Perspective) (ctr : UInt32) (data : List UInt8) :
    Except ResolveError Bool :=
  match Resolvent.decode data with
  | .error err => .error err
  | .ok resolvent =>
    if resolvent.perspective = perspective then .error .samePerspective
    else .ok (ctr = resolvent.ctr)

/-- The fallback of `Establish`: naming takes precedence. -/
def fallback (host peer : PeerName) : Perspective → Bool
  | .client => host < peer
  | .server => host > peer
  | _ => false

/-- `Resolve` with this fallback, after the round trip. -/
def verdict (perspective : Perspective) (host peer : PeerName) (ctr : UInt32)
    (data : List UInt8) : Except ResolveError Unit :=
  match resolve perspective ctr data with
  | .error err => .error err
  | .ok resolved =>
    if !resolved && !fallback host peer perspective then .error .notResolved else .ok ()

end ReplicatedFs.Connection
