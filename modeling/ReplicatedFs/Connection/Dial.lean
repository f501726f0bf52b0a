import ReplicatedFs.Connection.Backoff
import ReplicatedFs.Connection.Pool

/-!
# `ReplicatedFs.Connection.Dial`: the pool with its backoffs

`Pool` lets a goroutine of `dial` go on right after `dialOnce`. Here the goroutine has its `Backoff`
too: it calls `Next` when `dialOnce` fails, `Reset` when it succeeds, and takes no step of its own
until the call returns. The other goroutines go on meanwhile.

`pacers` has a pacer for each index of `Pool.tasks`. Only those of `dial` are used.
-/

set_option autoImplicit false

namespace ReplicatedFs.Connection

open Library

/-- A pool with the backoffs of its goroutines. -/
structure PacedPool where
  pool : Pool
  pacers : Nat → Pacer

/-- The pool with new backoffs. -/
def Pool.paced (p : Pool) (conf : Config.Backoff) : PacedPool :=
  { pool := p, pacers := fun _ => newPacer conf }

/-- The labels of a paced pool: a step of the pool, with the number that `rand.Intn` draws if the
step calls `Next`, or a step of a timer or of a call that waits for it. -/
inductive PacedEvent
  | pool (event : Event) (draw : Nat)
  | fire (ref : Nat)
  | receive (ref : Nat)
  deriving DecidableEq, Repr

/-- What `dial` does after `dialOnce`. -/
def Pacer.dialed (k : Conversion) (s : Pacer) (result : Option AddError) (draw : Nat) : Pacer :=
  match result with
  | none => s.callReset
  | some .poolClosed => s
  | some _ => s.callNext k draw

namespace PacedPool
variable (k : Conversion) (s : PacedPool)

/-- The pool with another backoff at `ref`. -/
def update (ref : Nat) (c : Pacer) : PacedPool :=
  { s with pacers := Function.update s.pacers ref c }

/-- The backoff at `ref` after a step of its goroutine. -/
def pacerAfter (ref draw : Nat) : Pacer :=
  match s.pool.tasks[ref]? with
  | some (.leave (.dial _) result) => (s.pacers ref).dialed k result draw
  | _ => s.pacers ref

/-- A step of the pool, which a goroutine that is in a call of its backoff does not take. -/
def poolStep (draw : Nat) : Event → Option PacedPool
  | .task ref input =>
    if (s.pacers ref).pc = .idle then
      (s.pool.step (.task ref input)).map fun p =>
        { s.update ref (s.pacerAfter k ref draw) with pool := p }
    else none
  | e => (s.pool.step e).map fun p => { s with pool := p }

/-- One step of a paced pool. A call that panicked ends the program. -/
def step (e : PacedEvent) : Option PacedPool :=
  if (List.range s.pool.tasks.length).any fun ref => (s.pacers ref).pc = .panicked then none
  else match e with
    | .pool event draw => s.poolStep k draw event
    | .fire ref => ((s.pacers ref).step k .fire).map (s.update ref)
    | .receive ref => ((s.pacers ref).step k .receive).map (s.update ref)

end PacedPool

end ReplicatedFs.Connection
