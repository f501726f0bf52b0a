import Mathlib.Data.String.Basic

/-!
# `ReplicatedFs.Protobuf.Message`: the messages peers exchange

The types of `protobuf/message.proto`, as `proto.Unmarshal` builds them. Optional fields and
sub-messages are `Option`, since an absent one is a nil pointer in Go. Enums of proto3 are
open, so each one has a constructor for the numbers the schema does not name.

`Panic` is how a function of the code can fail to return. `ack`, `nack`, `newRequestMessage` and
`newResponseMessage` follow `protobuf/message.go`. Compression is left to the codec: a message
carries its content as the caller gave it.
-/

set_option autoImplicit false

namespace ReplicatedFs

/-- The ways the code stops a process: a nil pointer dereference and `log.Panic`. -/
inductive Panic
  | nilDereference
  | logPanic
  deriving DecidableEq, Repr

namespace Protobuf

/-- The name of a peer, `config.Peer.Name`. Go compares strings bytewise, which on UTF-8
text is the order of Lean's `String`. -/
abbrev PeerName := String

/-- `transactionID`, the textual UUID of a transaction. -/
abbrev TransactionID := String

/-- `Request_Type`. -/
inductive RequestType
  | create
  | link
  | mkdir
  | rename
  | rmdir
  | setattr
  | symlink
  | unlink
  | write
  | copyFileRange
  | unrecognized (number : Int)
  deriving DecidableEq, Repr

/-- `Request_Metadata`, the parameters of the system call. -/
structure Metadata where
  relativePath : String
  newRelativePath : String := ""
  mode : UInt32 := 0
  writeOffset : Int64 := 0
  readOffset : Int64 := 0
  writeLen : Int64 := 0
  deriving DecidableEq, Repr

/-- `Request`. -/
structure Request where
  type : RequestType
  metadata : Option Metadata
  clock : UInt64 := 0
  content : Option (List UInt8) := none
  deriving DecidableEq, Repr

/-- `Response_Type`. The zero value is `ACK`. -/
inductive ResponseType
  | ack
  | nack
  | unrecognized (number : Int)
  deriving DecidableEq, Repr

/-- `Response_Error`. -/
inductive ResponseError
  | unknown
  | alreadyExists
  | doesNotExist
  | transactionConflict
  | notADirectory
  | notAFile
  | invalidMode
  | unrecognized (number : Int)
  deriving DecidableEq, Repr

/-- `Response`. -/
structure Response where
  type : ResponseType
  error : Option ResponseError := none
  errorMsg : Option String := none
  deriving DecidableEq, Repr

/-- The `oneof type` of `Message`. -/
inductive Payload
  | request (request : Request)
  | response (response : Response)
  | unset
  deriving DecidableEq, Repr

/-- `Message`. -/
structure Message where
  tid : TransactionID
  peerName : PeerName
  payload : Payload
  deriving DecidableEq, Repr

/-- `Message.GetRequest`. -/
def Message.getRequest (m : Message) : Option Request :=
  match m.payload with
  | .request r => some r
  | _ => none

/-- `Message.GetResponse`. -/
def Message.getResponse (m : Message) : Option Response :=
  match m.payload with
  | .response r => some r
  | _ => none

/-- `ACK`. -/
def ack : Response := { type := .ack }

/-- `NACK`, with the text of the error it is given. -/
def nack (respErr : ResponseError) (errMsg : String) : Response :=
  { type := .nack, error := some respErr, errorMsg := some errMsg }

/-- `NewRequestMessage`. -/
def newRequestMessage (tid : TransactionID) (peerName : PeerName) (request : Request) : Message :=
  { tid, peerName, payload := .request request }

/-- `NewResponseMessage`. -/
def newResponseMessage (tid : TransactionID) (peerName : PeerName) (response : Response) :
    Message :=
  { tid, peerName, payload := .response response }

/-- A vote that `handleTransaction` and `processResponses` can use: an `ACK`, or a `NACK` with
its error and text set. `Mirror.Consult` never blames a conflict, which it cannot see. -/
def Response.IsVerdict (r : Response) : Prop :=
  r.type = .ack ∨
    r.type = .nack ∧ r.error.isSome ∧ r.error ≠ some .transactionConflict ∧ r.errorMsg.isSome

instance (r : Response) : Decidable r.IsVerdict :=
  inferInstanceAs (Decidable (_ ∨ _))

section Simp
variable (tid : TransactionID) (name : PeerName) (req : Request) (resp : Response)

/-- The getters read back what the constructors put in. These are the facts that the proofs about
`Put` and `listen` rewrite with. -/
@[simp] theorem newRequestMessage_tid : (newRequestMessage tid name req).tid = tid := rfl

/-- The sender is the host that made the message. The receiver takes it for the initiator of the
transaction. -/
@[simp] theorem newRequestMessage_peerName :
    (newRequestMessage tid name req).peerName = name := rfl

/-- The `oneof` holds the request, as it was given. -/
@[simp] theorem newRequestMessage_getRequest :
    (newRequestMessage tid name req).getRequest = some req := rfl

/-- It holds no response therefore, so that `Put` stores it as a request only. -/
@[simp] theorem newRequestMessage_getResponse :
    (newRequestMessage tid name req).getResponse = none := rfl

/-- The same for a message with a response: it goes to the transaction that it answers. -/
@[simp] theorem newResponseMessage_tid : (newResponseMessage tid name resp).tid = tid := rfl

/-- Its sender is the host that made it, which is the one that votes. -/
@[simp] theorem newResponseMessage_peerName :
    (newResponseMessage tid name resp).peerName = name := rfl

/-- The `oneof` holds no request, so that `Put` leaves the stored one and the initiator as they
are. -/
@[simp] theorem newResponseMessage_getRequest :
    (newResponseMessage tid name resp).getRequest = none := rfl

/-- It holds the response, as it was given. -/
@[simp] theorem newResponseMessage_getResponse :
    (newResponseMessage tid name resp).getResponse = some resp := rfl

end Simp

/-- A message with a request is the one `newRequestMessage` builds from its parts. -/
theorem Message.eq_newRequestMessage {m : Message} {r : Request} (h : m.getRequest = some r) :
    m = newRequestMessage m.tid m.peerName r := by
  obtain ⟨tid, name, payload⟩ := m
  cases payload <;> simp_all [Message.getRequest, newRequestMessage]

end Protobuf

end ReplicatedFs
