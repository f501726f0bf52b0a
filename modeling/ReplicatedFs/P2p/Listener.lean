import ReplicatedFs.P2p.Host

/-!
# `ReplicatedFs.P2p.Listener`: the variables of `listen`

`listen` declares `msg` and `err` once, before its loop. The closure that it starts for a new
transaction captures `err`: it assigns what `handleTransaction` returns to the variable that
`listen` has just set with `ReadMessage` and is about to test. No lock orders the two.

`Host.step` takes up `listen` after the test. A `Listener` is the part before it:

* `Reading` is what `ReadMessage` left in `msg` and `err`, until `listen` looks at `err`.
* `Listener.assign` is the assignment of a closure. It is a step of its own, between the return of
  `handleTransaction` and the `Delete`, so that no interleaving with `listen` is left out.

Two things go wrong between `ReadMessage` and the test. An error of a handler makes `listen` drop a
message that it has decoded. A nil of a handler makes it go on with the nil pointer that
`ReadMessage` returned for bytes that are no message, and `Put` reads its `Tid`.
-/

set_option autoImplicit false

namespace ReplicatedFs.P2p

open ReplicatedFs.Protobuf

/-- `msg` and `err` of `listen` after `ReadMessage`: the pointer, and whether `err` is set. -/
structure Reading where
  msg : Option Message
  failed : Bool
  deriving DecidableEq, Repr

/-- What `ReadMessage` returns: a message and no error, or nil and an error. -/
def Reading.ofResult : Except String Message → Reading
  | .ok msg => ⟨some msg, false⟩
  | .error _ => ⟨none, true⟩

/-- Where `listen` goes after its test of `err`. -/
inductive Tested
  /-- It logs the error and waits for the next message. -/
  | dropped
  /-- It calls `Put`. -/
  | accepted (msg : Message)
  /-- It calls `Put` with nil. -/
  | nilMessage
  deriving DecidableEq, Repr

/-- The test of `err`. It says nothing about `msg`. -/
def Reading.tested (r : Reading) : Tested :=
  if r.failed then .dropped
  else match r.msg with
    | some msg => .accepted msg
    | none => .nilMessage

/-- `handleTransaction` returned an error. -/
def HandleResult.failed : HandleResult → Bool
  | .mirrored _ none => false
  | _ => true

/-- The code of the handler at `ref`. -/
def Host.handlePc? (h : Host) (ref : Nat) : Option HandlePc :=
  match h.tasks[ref]?.map Task.goroutine with
  | some (.handle pc) => some pc
  | _ => none

/-- What `handleTransaction` has returned to the closure at `ref`, which has its `Delete` ahead. -/
def Host.result? (h : Host) (ref : Nat) : Option HandleResult :=
  match h.handlePc? ref with
  | some (.leave result) => some result
  | _ => none

/-- What `listen` has read and not tested yet, and the closures that have assigned to `err`. -/
structure Listener where
  reading : Option Reading := none
  assigned : List Nat := []
  deriving DecidableEq, Repr

namespace Listener
variable (l : Listener) (h : Host)

/-- `listen` calls `ReadMessage`. -/
def read (result : Except String Message) : Listener :=
  { l with reading := some (.ofResult result) }

/-- `listen` is past its test. -/
def next : Listener := { l with reading := none }

/-- The message that `listen` has decoded and not put in a transaction yet. -/
def message? : Option Message := l.reading.bind Reading.msg

/-- The closure at `ref` assigns the result of `handleTransaction` to `err`. -/
def assign (ref : Nat) : Option Listener :=
  match h.result? ref with
  | some result =>
    if ref ∈ l.assigned then none
    else some
      { reading := l.reading.map fun r => { r with failed := result.failed }
        assigned := ref :: l.assigned }
  | none => none

/-- A closure deletes its transaction after its assignment. -/
def allows : Event → Bool
  | .task ref _ => (h.result? ref).isNone || decide (ref ∈ l.assigned)
  | _ => true

/-- The closure at `ref` does not put an error in the place of a message that was decoded. -/
def undisturbed (ref : Nat) : Bool :=
  l.message?.isNone || !(h.result? ref).any HandleResult.failed

/-- The closure at `ref` does not clear the error of bytes that are no message. -/
def harmless (ref : Nat) : Bool :=
  !(l.reading.any fun r => r.msg.isNone) || (h.result? ref).any HandleResult.failed

end Listener

section Lemmas
variable {l l' : Listener} {h : Host} {ref : Nat}

/-- The point of `handleTransaction` at which the goroutine is, if it is one. -/
theorem Host.handlePc?_eq_some {pc : HandlePc} :
    h.handlePc? ref = some pc ↔ ∃ t, h.tasks[ref]? = some t ∧ t.goroutine = .handle pc := by
  unfold Host.handlePc?
  cases h.tasks[ref]? with
  | none => simp
  | some t => cases hg : t.goroutine <;> simp [hg]

/-- `handleTransaction` has returned this result, and the closure that called it has not deleted the
transaction yet. -/
theorem Host.result?_eq_some {result : HandleResult} :
    h.result? ref = some result ↔
      ∃ t, h.tasks[ref]? = some t ∧ t.goroutine = .handle (.leave result) := by
  rw [← Host.handlePc?_eq_some]
  unfold Host.result?
  split
  · rename_i found hpc
    simp [hpc]
  · rename_i hno
    exact ⟨nofun, fun hpc => absurd hpc (hno result)⟩

/-- What the assignment of a closure does: the error of the reading is the one of the handler. -/
theorem Listener.assign_eq_some (ha : l.assign h ref = some l') :
    ∃ result, h.result? ref = some result ∧ ref ∉ l.assigned ∧
      l' = { reading := l.reading.map fun r => { r with failed := result.failed }
             assigned := ref :: l.assigned } := by
  unfold Listener.assign at ha
  split at ha
  · rename_i result hresult
    split at ha <;> cases ha
    rename_i hnew
    exact ⟨result, hresult, hnew, rfl⟩
  · cases ha

/-- No assignment touches `msg`. -/
theorem Listener.message?_assign (ha : l.assign h ref = some l') : l'.message? = l.message? := by
  obtain ⟨result, -, -, rfl⟩ := Listener.assign_eq_some ha
  unfold Listener.message?
  cases l.reading <;> rfl

end Lemmas

end ReplicatedFs.P2p
