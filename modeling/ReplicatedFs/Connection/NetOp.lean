import ReplicatedFs.Connection.Perspective
import ReplicatedFs.Library.BigEndian

/-!
# `ReplicatedFs.Connection.NetOp`: frames on QUIC streams

The model of `connection/net_op.go` and `connection/errors.go`. Every message takes a stream of its
own. `send` writes the length of the data in eight bytes, and the data after them. `recv` reads the
length, allocates a buffer of that size and fills it.

What QUIC does is a parameter of the two functions: `SendOutcome` and `RecvOutcome` say where an
operation fails, and with which error. `Err` is an error value of Go, as far as the code looks into
it: what it wraps, and the types that `handleErrors` tells apart.

The context of an operation is done because it was canceled, or because its deadline is exceeded.
By the documentation of `context` there is no third case, so the `default` of `streamContextDone`
is left out.
-/

set_option autoImplicit false

namespace ReplicatedFs.Connection

open Library

/-- The values of `streamErr` that have a name. -/
def streamErrTimeout : UInt64 := 0

def streamErrCancelled : UInt64 := 1

def streamErrInvalidSizeHeader : UInt64 := 2

def streamErrReadHeader : UInt64 := 3

def streamErrReadBody : UInt64 := 4

def streamErrWrite : UInt64 := 5

/-- `Error` of a `streamErr`. -/
def streamErrText (code : UInt64) : String :=
  if code = streamErrTimeout then "timed out"
  else if code = streamErrCancelled then "context was cancelled"
  else if code = streamErrInvalidSizeHeader then "invalid header size"
  else if code = streamErrReadHeader then "failed to read size header"
  else if code = streamErrReadBody then "failed to read body"
  else if code = streamErrWrite then "failed to write data"
  else "unknown stream error"

/-- The value of a `connErr` with a name. -/
def ConnErr.code : ConnErr → UInt64
  | .unspecified => 0
  | .alreadyEstablished => 1
  | .closed => 2
  | .cancelled => 3
  | .notResolved => 4

/-- The name of a `connErr`. All other values print like the first one. -/
def ConnErr.ofCode (code : UInt64) : ConnErr :=
  if code = 1 then .alreadyEstablished
  else if code = 2 then .closed
  else if code = 3 then .cancelled
  else if code = 4 then .notResolved
  else .unspecified

/-- An error value. `opError` is a `*net.OpError` without an `Err`, and `opErrorOf` is one with it.
`quicStream` is a `*quic.StreamError` and `application` a `*quic.ApplicationError`. `stream` and
`conn` are the errors of this package. `wrap` is what `errors.Wrap` makes, and `unwrappable` is any
other error that wraps one. -/
inductive Err
  | eof
  | unexpectedEOF
  | canceled
  | deadlineExceeded
  | opError (temporary : Bool) (text : String)
  | opErrorOf (temporary : Bool) (text : String) (inner : Err)
  | quicStream (code : UInt64) (text : String)
  | application (code : UInt64) (text : String)
  | stream (code : UInt64)
  | conn (code : UInt64)
  | wrap (text : String) (inner : Err)
  | unwrappable (text : String) (inner : Err)
  | other (text : String)
  deriving DecidableEq, Repr

/-- `Error`. -/
def Err.text : Err → String
  | .eof => "EOF"
  | .unexpectedEOF => "unexpected EOF"
  | .canceled => "context canceled"
  | .deadlineExceeded => "context deadline exceeded"
  | .opError _ text | .opErrorOf _ text _ => text
  | .quicStream _ text | .application _ text | .other text => text
  | .stream code => streamErrText code
  | .conn code => (ConnErr.ofCode code).text
  | .wrap text inner => text ++ ": " ++ inner.text
  | .unwrappable text _ => text

/-- `errors.Cause`. -/
def Err.cause : Err → Err
  | .wrap _ inner => inner.cause
  | err => err

/-- `errors.Unwrap`, of an error that `errors.Cause` returns. -/
def Err.unwrap : Err → Option Err
  | .unwrappable _ inner | .opErrorOf _ _ inner => some inner
  | _ => none

/-- `streamContextDone`. -/
def streamContextDone (timedOut : Bool) : UInt64 :=
  if timedOut then streamErrTimeout else streamErrCancelled

/-- The bytes that `send` writes. -/
def frame (data : List UInt8) : List UInt8 := bigEndian 8 data.length ++ data

/-- What happens to one `send`. When it fails early, `written` bytes were written before. -/
inductive SendOutcome
  | openFailed (err : Err)
  | writeFailed (written : Nat) (err : Err)
  | contextDone (timedOut : Bool) (written : Nat)
  | complete
  deriving DecidableEq, Repr

/-- The bytes on the stream. -/
def SendOutcome.wire (data : List UInt8) : SendOutcome → List UInt8
  | .openFailed _ => []
  | .writeFailed written _ | .contextDone _ written => (frame data).take written
  | .complete => frame data

/-- `send`. -/
def send : SendOutcome → Option Err
  | .openFailed err => some (.wrap "failed to open unidirectional QUIC stream" err)
  -- The error of the stream survives as a text only.
  | .writeFailed _ err => some (.wrap err.text (.stream streamErrWrite))
  | .contextDone timedOut _ => some (.stream (streamContextDone timedOut))
  | .complete => none

/-- What happens to one `recv`: no stream comes, or there is one with some bytes. `ending` is the
error after them, `io.EOF` at the end of the stream. `done` says that the context is done before
the body is read. -/
inductive RecvOutcome
  | acceptFailed (err : Err)
  | accepted (bytes : List UInt8) (ending : Err) (done : Option Bool)
  deriving DecidableEq, Repr

/-- `io.ReadFull`, with the bytes that are left. -/
def readFull (bytes : List UInt8) (ending : Err) (n : Nat) :
    Except Err (List UInt8 × List UInt8) :=
  if n ≤ bytes.length then .ok (bytes.take n, bytes.drop n)
  else .error (if bytes ≠ [] ∧ ending = .eof then .unexpectedEOF else ending)

/-- The greatest length for which `make` does not panic, on 64-bit Linux. -/
def maxAlloc : Nat := 2 ^ 48

/-- What `recv` ends with. -/
inductive Received
  | data (bytes : List UInt8)
  | failed (err : Err)
  | panicked
  deriving DecidableEq, Repr

/-- The size header, read as an `int64`. -/
def sizeHeader (header : List UInt8) : Int64 := (UInt64.ofNat (ofBigEndian header)).toInt64

/-- `recv` after the size header. -/
def recvBody (size : Nat) (rest : List UInt8) (ending : Err) : Option Bool → Received
  | some timedOut => .failed (.stream (streamContextDone timedOut))
  | none =>
    match readFull rest ending size with
    | .error err => .failed (.wrap err.text (.stream streamErrReadBody))
    | .ok (buf, _) => .data buf

/-- `recv`. -/
def recv : RecvOutcome → Received
  | .acceptFailed err => .failed (.wrap "failed to accept unidirectional QUIC stream" err)
  | .accepted bytes ending done =>
    match readFull bytes ending 8 with
    | .error err => .failed (.wrap err.text (.stream streamErrReadHeader))
    | .ok (header, rest) =>
      let size := sizeHeader header
      if size < 0 then .failed (.stream streamErrInvalidSizeHeader)
      -- The buffer is made before anything of the body is read.
      else if maxAlloc < size.toInt.toNat then .panicked
      else recvBody size.toInt.toNat rest ending done

end ReplicatedFs.Connection
