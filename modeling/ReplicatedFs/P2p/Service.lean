import ReplicatedFs.Mirror.Consult
import ReplicatedFs.P2p.Listener
import ReplicatedFs.Protobuf.Codec

/-!
# `ReplicatedFs.P2p.Service`: a host with its mirror, from the bytes that it receives

`Host.step` takes the messages, the verdicts of `Mirror.Consult` and the results of `Mirror.Mirror`
from outside. `Service.step` has them from the code: `listen` decodes what `ReceiveC` gives it,
`handleTransaction` calls `Mirror.Consult` and `Mirror.Mirror`. What is left to the environment is
the bytes, what the file system answers, and which goroutine moves. The variables that `listen`
shares with its closures are a part of the state (`ReplicatedFs.P2p.Listener`).

A message is also logged, with the fields of its parts (`protobuf/logging.go`). That is one more
place that reads them.

`replicateData` is the other end: what `Replicate` hands to `Conn.Broadcast`, from the request that
it is called with. `broadcastData` is the same for any message of the host.
-/

set_option autoImplicit false

namespace ReplicatedFs.P2p

open ReplicatedFs.Protobuf
open Library.Posix (Process Tree)

/-- What a host is run with. `logsInfo` and `logsError` say whether the level of the log lets such
an event through. -/
structure Service where
  codec : Codec
  mirror : Mirror
  logsInfo : Bool
  logsError : Bool

/-- What happens to a host. -/
inductive ServiceEvent
  | replicate (tid : TransactionID) (request : Request)
  /-- `listen` gets the bytes and calls `ReadMessage`. -/
  | receive (raw : List UInt8)
  /-- `listen` tests `err` and calls `Put`. -/
  | test
  /-- The closure at `ref` assigns the result of its handler to `err`. -/
  | assign (ref : Nat)
  | notify
  | run (ref : Nat)
  | broadcast (ref : Nat) (result : Broadcast)
  | contextDone (ref : Nat) (err : ContextError)
  | consult (ref : Nat) (answers : Answers)
  | mirror (ref : Nat) (proc : Process) (tree : Tree)

/-- `MarshalZerologObject` of a message. The metadata of a request are logged without a test for
nil. -/
def logMessage (msg : Message) : Except Panic Unit :=
  match msg.getRequest with
  | none => .ok ()
  | some request => if request.metadata.isSome then .ok () else .error .nilDereference

/-- `Put` logs a request for a transaction that has one already. -/
def Host.replaces (h : Host) (msg : Message) : Bool :=
  msg.getRequest.isSome && (h.ts.lookup msg.tid).any fun ref =>
    h.tasks[ref]?.any fun t => t.trans.request.isSome

/-- The host after a panic. -/
def Host.panic (h : Host) (p : Panic) : Host := { h with panicked := some p }

/-- The host after a call that may panic. -/
def Host.andThen {α : Type} (h : Host) (call : Except Panic α) (next : α → Option Host) :
    Option Host :=
  match call with
  | .error p => some (h.panic p)
  | .ok a => next a

/-- The host with the variables of its `listen`. -/
structure ServiceState where
  host : Host
  listener : Listener := {}

/-- A step of the host that leaves the variables of `listen` alone. -/
def ServiceState.onHost (s : ServiceState) (host : Option Host) : Option ServiceState :=
  host.map fun host => { s with host }

namespace Service
variable (v : Service)

/-- The call of `Mirror.Consult` and the look at the type of its response. -/
def consult (answers : Answers) (request : Request) : Except Panic Response :=
  match answers.consult request with
  | .error p => .error p
  | .ok none => .error .nilDereference
  | .ok (some response) => .ok response

/-- `Put`, with the log of a request that replaces another one, and the send on `NotifyChan`. -/
def put (h : Host) (msg : Message) : Option Host :=
  h.andThen (if v.logsError && h.replaces msg then logMessage msg else .ok ()) fun _ =>
    h.next (.receive msg)

/-- `listen` tests `err`. When it is nil, `listen` calls `Put`, which reads the `Tid` of the
message. -/
def test (s : ServiceState) : Option ServiceState :=
  match s.listener.reading.map Reading.tested with
  | none => none
  | some .dropped => some { s with listener := s.listener.next }
  | some .nilMessage => some { s with host := s.host.panic .nilDereference }
  | some (.accepted msg) =>
    (v.put s.host msg).map fun host => { host, listener := s.listener.next }

/-- The reader takes the message and logs it. -/
def notify (h : Host) : Option Host :=
  match h.listen with
  | none => none
  | some (_, msg) =>
    (h.next .notify).bind fun h' =>
      h'.andThen (if v.logsInfo then logMessage msg else .ok ()) fun _ => some h'

/-- One step. -/
def step (s : ServiceState) (e : ServiceEvent) : Option ServiceState :=
  let h := s.host
  if h.panicked.isSome then none
  else match e with
    | .replicate tid request => s.onHost (h.next (.replicate tid request))
    | .receive raw =>
      if h.listen.isSome || s.listener.reading.isSome then none
      else some { s with listener := s.listener.read (v.codec.readMessage raw) }
    | .test => v.test s
    | .assign ref => (s.listener.assign h ref).map fun listener => { s with listener }
    | .notify => s.onHost (v.notify h)
    | .run ref =>
      -- The closure assigns `err` before it deletes the transaction.
      if s.listener.allows h (.task ref .run) then s.onHost (h.next (.task ref .run)) else none
    | .broadcast ref result => s.onHost (h.next (.task ref (.broadcast result)))
    | .contextDone ref err => s.onHost (h.next (.task ref (.contextDone err)))
    | .consult ref answers =>
      match h.handlePc? ref with
      | some (.consult _ request) =>
        -- A panic of `Consult` is one of the host.
        s.onHost (h.andThen (consult answers request) fun response =>
          h.next (.task ref (.consulted response)))
      | _ => none
    | .mirror ref proc tree =>
      match h.handlePc? ref with
      | some (.mirror request) =>
        s.onHost (h.andThen (v.mirror.mirror proc tree request) fun result =>
          h.next (.task ref (.mirrored result.2)))
      | _ => none

end Service

/-- A call of `Replicate`: the id that it draws, and the transactions when it looks for a
conflict. -/
structure Attempt where
  tid : TransactionID
  table : List Transaction

/-- `Replicate` up to its broadcast: what it hands to `Conn.Broadcast`, unless it returns before,
and the request of the caller after it. -/
def replicateData (c : Codec) (name : PeerName) (request : Request) (a : Attempt) :
    Option (List UInt8) × Request :=
  match c.newRequestMessage a.tid name request with
  | (.error _, request') => (none, request')
  | (.ok message, request') =>
    match detectAndResolveConflict a.table message with
    | .ok false =>
      match c.marshal message with
      | .error _ => (none, request')
      | .ok data => (some data, request')
    | _ => (none, request')

/-- The message that `broadcast` is called with. For a request it is what `NewRequestMessage`
returns. -/
def outgoing (c : Codec) (msg : Message) : Except String Message :=
  match msg.payload with
  | .request request => (c.newRequestMessage msg.tid msg.peerName request).1
  | _ => .ok msg

/-- What `broadcast` hands to `Conn.Broadcast`. -/
def broadcastData (c : Codec) (msg : Message) : Except String (List UInt8) :=
  match outgoing c msg with
  | .error err => .error err
  | .ok message =>
    match c.marshal message with
    | .error err => .error ("failed to marshal protobuf message: " ++ err)
    | .ok data => .ok data

/-- Calls of `Replicate` with one request, one after the other. -/
def replicateAll (c : Codec) (name : PeerName) : Request → List Attempt → List (Option (List UInt8))
  | _, [] => []
  | request, a :: attempts =>
    let (data, request') := replicateData c name request a
    data :: replicateAll c name request' attempts

end ReplicatedFs.P2p
