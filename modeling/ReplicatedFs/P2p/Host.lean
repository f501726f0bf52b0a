import Mathlib.Data.List.AList
import ReplicatedFs.P2p.Transaction

/-!
# `ReplicatedFs.P2p.Host`: one host as a state machine of its goroutines

The model of `p2p/host.go`. A host runs one `listen` goroutine, one `Replicate` goroutine for
each local call, and one `handleTransaction` goroutine for each transaction that `listen`
creates. Every `*transaction` is allocated for exactly one reader of its `NotifyChan`: the
`Replicate` or the `handleTransaction` that it was created for. So the heap is a list of
`Task`s, each one a transaction with the goroutine that reads its channel, and a pointer is
an index into that list. `ts` maps a transaction id to such a pointer.

A step of a goroutine is everything up to its next interaction: a use of the transactions
map, a send or a receive on a channel, a `Broadcast`, a call of `Mirror`. `NotifyChan` is
unbuffered, so `listen` stays blocked on its send (`Host.listen`) until the reader takes the
message (`Event.notify`). The labels `Event` and `Input` carry what the environment decides:
which goroutine moves, what a `Broadcast` achieved, what `Consult` answered, when a context is
done.

`Broadcast` runs its sends concurrently and returns when they are finished. Nothing bounds
how long a message stays in flight, so handing over all copies in one step loses no
interleaving. A `Send` that reports an error may still have delivered its bytes, and one that
reports none may not have, so `Broadcast.sent` lists the reported failures and the peers
reached separately.

`Task.inbox` and `Task.ballots` are history variables. No step reads them.
-/

set_option autoImplicit false

namespace ReplicatedFs.P2p

open ReplicatedFs.Protobuf

/-- The error of a finished context. -/
inductive ContextError
  | canceled
  | deadlineExceeded
  deriving DecidableEq, Repr

/-- The errors with which `broadcast` fails before any send. -/
inductive Refusal
  | marshal
  | peerIsDown
  deriving DecidableEq, Repr

/-- The errors `Replicate` returns. `multiErr` names the peers of the `connection.MultiErr`. -/
inductive ReplicateError
  | transactionConflict
  | refused (reason : Refusal)
  | multiErr (peers : List PeerName)
  | context (err : ContextError)
  | notPermitted
  deriving DecidableEq, Repr

/-- What `handleTransaction` ends with. `mirrored` is the return from `Mirror.Mirror`, with the
request it was called with and its error. -/
inductive HandleResult
  | context (err : ContextError)
  | notPermitted
  | mirrored (request : Request) (err : Option String)
  deriving DecidableEq, Repr

/-- The outcome of one call of `broadcast`. -/
inductive Broadcast
  | refused (reason : Refusal)
  | sent (failed reached : List PeerName)
  deriving DecidableEq, Repr

/-- One call of `Conn.Broadcast`: the message, and the peers that get it. -/
structure Sent where
  msg : Message
  reached : List PeerName
  deriving DecidableEq, Repr

/-- The vote on one request: what `Mirror.Consult` answered, and whether
`DetectAndResolveConflict` found a conflict (it is only asked after an `ACK`). -/
structure Ballot where
  request : Request
  verdict : Response
  conflict : Bool
  deriving DecidableEq, Repr

/-- The text of `ErrTransactionConflict`. -/
def errTransactionConflict : String :=
  "transaction conflict detected and resolved in favor of other peer"

/-- The response that `handleTransaction` broadcasts. -/
def Ballot.response (b : Ballot) : Response :=
  if b.conflict then nack .transactionConflict errTransactionConflict else b.verdict

/-- Where a `Replicate` call stands. `collect` is the loop over the awaited responses, with
their number and the peers of the `MultiErr` of the broadcast, none when it returned nil.
`leave` has the deferred `Delete` ahead of it. -/
inductive ReplicatePc
  | check (message : Message)
  | broadcast (message : Message)
  | collect (expected : Nat) (failed : List PeerName)
  | leave (result : Option ReplicateError)
  | returned (result : Option ReplicateError)
  deriving DecidableEq, Repr

/-- Where a `handleTransaction` call stands. `await` is the head of its loop, `mirror` the call
of `Mirror.Mirror`. `leave` has the `Delete` of the spawning closure ahead of it. -/
inductive HandlePc
  | await (ourResponse : ResponseType)
  | consult (msg : Message) (request : Request)
  | detect (msg : Message) (request : Request) (verdict : Response)
  | respond (msg : Message) (ballot : Ballot)
  | mirror (request : Option Request)
  | leave (result : HandleResult)
  | ended (result : HandleResult)
  deriving DecidableEq, Repr

/-- The reader of a transaction's `NotifyChan`. -/
inductive Goroutine
  | replicate (pc : ReplicatePc)
  | handle (pc : HandlePc)
  deriving DecidableEq, Repr

/-- The goroutine has not deleted its transaction from the map yet. -/
def Goroutine.alive : Goroutine → Bool
  | .replicate (.returned _) => false
  | .handle (.ended _) => false
  | _ => true

/-- A transaction with its reader. `taken` counts the messages the reader took from
`NotifyChan`, which is the counter of its loop. `inbox` is the history of the messages that
`listen` put in the transaction, `ballots` the history of the votes cast on it. -/
structure Task where
  trans : Transaction
  goroutine : Goroutine
  taken : Nat := 0
  inbox : List Message := []
  ballots : List Ballot := []
  deriving DecidableEq, Repr

/-- `Host`, with its `transactions` and its `conflicts` clock. `listen` is the pending send on
a `NotifyChan`. A panic stops the whole process. -/
structure Host where
  name : PeerName
  peers : List PeerName
  clock : UInt64 := 0
  ts : AList (fun _ : TransactionID => Nat) := ∅
  tasks : List Task := []
  listen : Option (Nat × Message) := none
  panicked : Option Panic := none

/-- The transactions that `DetectAndResolveConflict` ranges over. -/
def Host.table (h : Host) : List Transaction :=
  h.ts.entries.filterMap fun e => h.tasks[e.2]?.map Task.trans

/-- `transactions.Put`. It finds the transaction of the message or allocates one with the given
reader, and stores the message in it. -/
def Host.put (h : Host) (msg : Message) (reader : Goroutine) : Host × Nat :=
  match h.ts.lookup msg.tid with
  | some ref =>
    ({ h with tasks := h.tasks.modify ref fun t => { t with trans := t.trans.put msg } }, ref)
  | none =>
    ({ h with
        ts := h.ts.insert msg.tid h.tasks.length
        tasks := h.tasks ++ [{ trans := Transaction.put { tid := msg.tid } msg
                               goroutine := reader }] },
      h.tasks.length)

/-- `listen` from the receipt of a message to its send on `NotifyChan`. A transaction created
here starts `handleTransaction`, whose `ourResponse` is the zero value `ACK`. -/
def Host.deliver (h : Host) (msg : Message) : Host :=
  let (h', ref) := h.put msg (.handle (.await .ack))
  { h' with
      tasks := h'.tasks.modify ref fun t => { t with inbox := t.inbox ++ [msg] }
      listen := some (ref, msg) }

/-- The reader is at a receive of its loop. -/
def Task.receiving (peers : Nat) (t : Task) : Bool :=
  match t.goroutine with
  | .replicate (.collect expected _) => t.taken < expected
  | .handle (.await _) => t.taken < peers
  | _ => false

/-- The reader takes a message. `Replicate` only counts it, `handleTransaction` goes on to
consult a request. -/
def Task.notified (msg : Message) (t : Task) : Task :=
  match t.goroutine, msg.getRequest with
  | .handle (.await _), some request =>
    { t with taken := t.taken + 1, goroutine := .handle (.consult msg request) }
  | _, _ => { t with taken := t.taken + 1 }

/-- What the environment contributes to a step of a goroutine. -/
inductive Input
  | run
  | broadcast (result : Broadcast)
  | contextDone (err : ContextError)
  | consulted (response : Response)
  | mirrored (err : Option String)
  deriving DecidableEq, Repr

/-- What a step of a goroutine does besides moving on: it increments the conflicts clock, it
deletes its transaction from the map, it calls `Conn.Broadcast`. -/
structure Move where
  task : Task
  increment : Bool := false
  delete : Bool := false
  sent : Option Sent := none

/-- The task at another point of its code. -/
def Task.goto (t : Task) (g : Goroutine) : Task := { t with goroutine := g }

/-- The peers that get the message. -/
def Broadcast.reached (peers : List PeerName) : Broadcast → List PeerName
  | .refused _ => []
  | .sent _ reached => peers.filter (· ∈ reached)

/-- `Replicate` after its broadcast. -/
def afterBroadcast (peers : List PeerName) : Broadcast → ReplicatePc
  | .refused reason => .leave (some (.refused reason))
  | .sent failed _ =>
    let errs := peers.filter (· ∈ failed)
    if errs ≠ [] ∧ errs.length = peers.length then .leave (some (.multiErr errs))
    else .collect (peers.length - errs.length) errs

/-- The errors of the `NACK`s, as `processResponses` reads them. -/
def nackErrors : List Response → Except Panic (List ResponseError)
  | [] => .ok []
  | r :: rs =>
    if r.type = .nack then
      match r.error with
      | none => .error .nilDereference
      | some e => (nackErrors rs).map (e :: ·)
    else nackErrors rs

/-- `processResponses`: whether it increments the conflicts clock, and what it returns. -/
def processResponses (responses : List Response) :
    Except Panic (Bool × Option ReplicateError) :=
  (nackErrors responses).map fun errors =>
    let otherErrors := errors.countP (· ≠ .transactionConflict)
    (errors.contains .transactionConflict && otherErrors == 0,
      if errors.isEmpty then none else some .notPermitted)

/-- One step of `Replicate`. -/
def replicateStep (h : Host) (t : Task) :
    ReplicatePc → Input → Option (Except Panic Move)
  | .check message, .run =>
    some ((detectAndResolveConflict h.table message).map fun conflict =>
      if conflict then
        { task := t.goto (.replicate (.leave (some .transactionConflict))), increment := true }
      else { task := t.goto (.replicate (.broadcast message)) })
  | .broadcast message, .broadcast result =>
    some (.ok
      { task := t.goto (.replicate (afterBroadcast h.peers result))
        sent := some ⟨message, result.reached h.peers⟩ })
  | .collect expected _, .contextDone err =>
    if t.taken < expected then
      some (.ok { task := t.goto (.replicate (.leave (some (.context err)))) })
    else none
  | .collect expected failed, .run =>
    if t.taken < expected then none
    -- Some peers did not get the request, so it does not matter what came back.
    else if failed ≠ [] then
      some (.ok { task := t.goto (.replicate (.leave (some (.multiErr failed)))) })
    else some ((processResponses t.trans.responses).map fun (increment, result) =>
      { task := t.goto (.replicate (.leave result)), increment })
  | .leave result, .run =>
    some (.ok { task := t.goto (.replicate (.returned result)), delete := true })
  | _, _ => none

/-- The end of `handleTransaction`: its own vote and all gathered ones are free of `NACK`. -/
def permitted (ourResponse : ResponseType) (responses : List Response) : Bool :=
  ourResponse = .ack && !responses.any fun r => r.type = .nack

/-- One step of `handleTransaction`. -/
def handleStep (h : Host) (t : Task) : HandlePc → Input → Option (Except Panic Move)
  | .await _, .contextDone err =>
    if t.taken < h.peers.length then
      some (.ok { task := t.goto (.handle (.leave (.context err))) })
    else none
  | .consult msg request, .consulted response =>
    some (.ok { task := t.goto (.handle (
      if response.type = .ack then .detect msg request response
      else .respond msg ⟨request, response, false⟩)) })
  | .detect msg request verdict, .run =>
    some ((detectAndResolveConflict h.table msg).map fun conflict =>
      { task := t.goto (.handle (.respond msg ⟨request, verdict, conflict⟩)) })
  | .respond msg ballot, .broadcast result =>
    -- The error of this broadcast is only logged.
    some (.ok
      { task := { t with goroutine := .handle (.await ballot.response.type)
                         ballots := t.ballots ++ [ballot] }
        sent := some ⟨newResponseMessage msg.tid h.name ballot.response,
          result.reached h.peers⟩ })
  | .await ourResponse, .run =>
    if t.taken < h.peers.length then none
    else if permitted ourResponse t.trans.responses then
      some (.ok { task := t.goto (.handle (.mirror t.trans.request)) })
    else some (.ok { task := t.goto (.handle (.leave .notPermitted)) })
  | .mirror (some request), .mirrored err =>
    some (.ok { task := t.goto (.handle (.leave (.mirrored request err))) })
  -- `Mirror.Mirror` switches on the type of the request.
  | .mirror none, .run => some (.error .nilDereference)
  | .leave result, .run =>
    some (.ok { task := t.goto (.handle (.ended result)), delete := true })
  | _, _ => none

/-- One step of the goroutine of a task. -/
def Task.step (h : Host) (t : Task) (input : Input) : Option (Except Panic Move) :=
  match t.goroutine with
  | .replicate pc => replicateStep h t pc input
  | .handle pc => handleStep h t pc input

/-- The host after a step of the task at `ref`. The clock wraps around, as `Add` does. -/
def Host.apply (h : Host) (ref : Nat) (m : Move) : Host :=
  { h with
      tasks := h.tasks.set ref m.task
      clock := if m.increment then h.clock + 1 else h.clock
      ts := if m.delete then h.ts.erase m.task.trans.tid else h.ts }

/-- The labels of a host. `replicate` is a call of `Replicate` with the UUID it draws. -/
inductive Event
  | replicate (tid : TransactionID) (request : Request)
  | receive (msg : Message)
  | notify
  | task (ref : Nat) (input : Input)
  deriving DecidableEq, Repr

/-- One step of a host, with the call of `Conn.Broadcast` that it makes. -/
def Host.step (h : Host) (e : Event) : Option (Host × Option Sent) :=
  if h.panicked.isSome then none
  else match e with
    | .replicate tid request =>
      let message := newRequestMessage tid h.name request
      -- A new transaction has a random id, which no other one has.
      if (h.ts.lookup tid).isSome then none
      else some ((h.put message (.replicate (.check message))).1, none)
    -- `listen` is one goroutine: it takes no message while it waits for a reader.
    | .receive msg => if h.listen.isSome then none else some (h.deliver msg, none)
    | .notify =>
      match h.listen with
      | none => none
      | some (ref, msg) =>
        match h.tasks[ref]? with
        | none => none
        | some t =>
          if t.receiving h.peers.length then
            some ({ h with tasks := h.tasks.set ref (t.notified msg), listen := none }, none)
          else none
    | .task ref input =>
      match h.tasks[ref]? with
      | none => none
      | some t =>
        match t.step h input with
        | none => none
        | some (.error p) => some ({ h with panicked := some p }, none)
        | some (.ok m) => some (h.apply ref m, m.sent)

/-- One step of a host. What it broadcasts is left to the network. -/
def Host.next (h : Host) (e : Event) : Option Host := (h.step e).map Prod.fst

end ReplicatedFs.P2p
