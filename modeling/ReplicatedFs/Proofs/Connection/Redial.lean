import ReplicatedFs.Connection.Dial
import ReplicatedFs.Proofs.Connection.Backoff
import ReplicatedFs.Proofs.Connection.PoolStep

/-!
# `ReplicatedFs.Proofs.Connection.Redial`: the dials of a pool with backoffs

A step of the paced pool is a step of the pool, with at most one backoff that moves (`PacedMove`),
and what happens to each backoff is a sequence of its calls (`pacer_of_run`). So all delays are in
the bounds (`inRange_of_paced`), and no call panics with a jitter of one percent or more
(`not_panicked_of_paced`).

A goroutine of `dial` that waits in `Reset` takes no step any more (`dial_stops`). It gets there as
soon as a dial succeeds after one that failed (`reset_waits`). The comment on `dial` says that it
runs forever and dials again when the connection is closed. After such a dial it does not
(`never_redials`, and `lost_peer_not_dialed` for a run in which the connection is lost).
-/

set_option autoImplicit false

namespace ReplicatedFs.Connection

open Library

variable {k : Conversion} {conf : Config.Backoff} {p : Pool} {s s' : PacedPool}
  {es : List PacedEvent} {ref draw : Nat}

/-- What a step of a paced pool does: the pool and at most one backoff move. -/
inductive PacedMove (k : Conversion) (s : PacedPool) : PacedPool → Prop
  | pool {event : Event} {p : Pool} (hpool : s.pool.step event = some p)
      (hother : ∀ ref input, event ≠ .task ref input) : PacedMove k s { s with pool := p }
  | task {ref draw : Nat} {input : Input} {p : Pool} (hidle : (s.pacers ref).pc = .idle)
      (hpool : s.pool.step (.task ref input) = some p) :
      PacedMove k s { s.update ref (s.pacerAfter k ref draw) with pool := p }
  | timer {ref : Nat} {event : PacerEvent} {c : Pacer}
      (hstep : (s.pacers ref).step k event = some c) : PacedMove k s (s.update ref c)

/-- Every step that the paced pool takes is one of these moves, so that a proof splits on what
happens to the backoffs. -/
theorem PacedPool.step_move {e : PacedEvent} (h : s.step k e = some s') : PacedMove k s s' := by
  -- A goroutine whose backoff has panicked stops the process.
  obtain ⟨-, h⟩ := Option.ite_none_left_eq_some.mp h
  cases e with
  | pool event draw =>
    cases event with
    | task ref input =>
      obtain ⟨hidle, h⟩ := Option.ite_none_right_eq_some.mp h
      obtain ⟨p, hpool, rfl⟩ := Option.map_eq_some_iff.mp h
      exact .task hidle hpool
    | _ =>
      obtain ⟨p, hpool, rfl⟩ := Option.map_eq_some_iff.mp h
      exact .pool hpool nofun
  | fire ref =>
    obtain ⟨c, hstep, rfl⟩ := Option.map_eq_some_iff.mp h
    exact .timer hstep
  | receive ref =>
    obtain ⟨c, hstep, rfl⟩ := Option.map_eq_some_iff.mp h
    exact .timer hstep

/-- The backoff is as before, or takes one of its steps. -/
def Pacer.MayStep (k : Conversion) (c c' : Pacer) : Prop := c' = c ∨ ∃ e, c.step k e = some c'

/-- A step of a goroutine begins a call of its backoff, or leaves it as it is. `dial` calls `Next`
after a dial that failed and `Reset` after one that succeeded, and it waits for the call to return
before it goes on. -/
theorem mayStep_pacerAfter (hidle : (s.pacers ref).pc = .idle) :
    (s.pacers ref).MayStep k (s.pacerAfter k ref draw) := by
  have hnext : (s.pacers ref).step k (.next draw) = some ((s.pacers ref).callNext k draw) :=
    if_pos hidle
  rw [PacedPool.pacerAfter]
  split
  · next result _ =>
    match result with
    | none => exact .inr ⟨.reset, if_pos hidle⟩
    | some .poolClosed => exact .inl rfl
    | some (.net _) => exact .inr ⟨.next draw, hnext⟩
    | some (.establish _) => exact .inr ⟨.next draw, hnext⟩
  · exact .inl rfl

/-- An update of one backoff leaves the others as they are, and it moves its own by one step at
most. -/
theorem mayStep_update {moved : Nat} {c : Pacer} (h : (s.pacers moved).MayStep k c) (ref : Nat) :
    (s.pacers ref).MayStep k ((s.update moved c).pacers ref) := by
  by_cases hmoved : ref = moved
  · subst hmoved
    simpa [PacedPool.update] using h
  · exact .inl (Function.update_of_ne hmoved _ _)

/-- In a step of the pool every backoff takes at most one step, so the runs of a backoff alone cover
what it does in the pool. -/
theorem PacedMove.mayStep (hm : PacedMove k s s') (ref : Nat) :
    (s.pacers ref).MayStep k (s'.pacers ref) := by
  cases hm with
  | pool => exact .inl rfl
  | task hidle => exact mayStep_update (mayStep_pacerAfter hidle) ref
  | timer hstep => exact mayStep_update (.inr ⟨_, hstep⟩) ref

/-- The backoff of each goroutine goes through a sequence of its calls. So what was proved of a
single backoff, in all sequences of calls, holds of every backoff in the pool. -/
theorem pacer_of_run (hrun : run (PacedPool.step k) s es = some s') (ref : Nat) :
    Reaches (Pacer.step k) (s.pacers ref) (s'.pacers ref) := by
  refine run_reaches (fun s => s.pacers ref) ?_ hrun
  intro s e s' hstep
  obtain hsame | ⟨e, hcall⟩ := (PacedPool.step_move hstep).mayStep ref
  · rw [hsame]
    exact .refl _
  · exact .single hcall

/-- The timers of the backoffs are as the points of the code say. This is the invariant of a single
backoff, carried over to the pool by the lemma above. -/
theorem timed_of_paced (hrun : run (PacedPool.step k) (p.paced conf) es = some s) (ref : Nat) :
    Timed (s.pacers ref) := by
  obtain ⟨calls, hcalls⟩ := pacer_of_run hrun ref
  exact timed_of_run hcalls

/-- The delays of every goroutine are in the bounds, since each backoff goes through a run of its
own. -/
theorem inRange_of_paced (hconf : conf.initial ≤ conf.max)
    (hrun : run (PacedPool.step k) (p.paced conf) es = some s) (ref : Nat) :
    InRange conf (s.pacers ref) := by
  obtain ⟨calls, hcalls⟩ := pacer_of_run hrun ref
  exact inRange_of_run hconf hcalls

/-- With a jitter of at least one percent that fits, no goroutine panics in its backoff. Below one
percent the bound of the draw is truncated to 0, and a jitter that does not fit into an integer may
become negative. -/
theorem not_panicked_of_paced (hconf : conf.initial ≤ conf.max)
    (hpercent : 1 / 100 ≤ conf.maxFactorJitter) (hfits : conf.maxFactorJitter * 100 < 2 ^ 63)
    (hrun : run (PacedPool.step k) (p.paced conf) es = some s) (ref : Nat) :
    (s.pacers ref).pc ≠ .panicked := by
  obtain ⟨calls, hcalls⟩ := pacer_of_run hrun ref
  exact not_panicked_of_run hconf (toInt_percent_pos hpercent hfits) hcalls

/-- A step of another goroutine leaves this one where it is. Each step of the pool moves one
goroutine. -/
theorem PoolMove.tasks_of_ne {p p' : Pool} {e : Event} {t : Task} (hm : PoolMove p e p')
    (hne : ∀ input, e ≠ .task ref input) (ht : p.tasks[ref]? = some t) :
    p'.tasks[ref]? = some t := by
  have hlt : ref < p.tasks.length := (List.getElem?_eq_some_iff.mp ht).1
  cases hm with
  | operate => rwa [List.getElem?_append_left hlt]
  | close => rwa [List.getElem?_append_left hlt]
  | drop => exact ht
  | task moved input u o hu hm =>
    have hmoved : moved ≠ ref := fun heq => hne input (by rw [heq])
    rw [Pool.apply, List.getElem?_append_left (by simpa using hlt), List.getElem?_set_ne hmoved, ht]

/-- A goroutine that waits in `Reset` stays where it is, in all states that follow. So it never
dials again. -/
theorem dial_stops {t : Task} (hrun : run (PacedPool.step k) (p.paced conf) es = some s)
    (hpc : (s.pacers ref).pc = .reset) (ht : s.pool.tasks[ref]? = some t)
    (hs : Reaches (PacedPool.step k) s s') :
    s'.pacers ref = s.pacers ref ∧ s'.pool.tasks[ref]? = some t := by
  have hstuck := (timed_of_paced hrun ref).step_eq_none (k := k) hpc
  refine hs.invariant (I := fun u => u.pacers ref = s.pacers ref ∧ u.pool.tasks[ref]? = some t)
    ?_ ⟨rfl, ht⟩
  intro u e u' hstep hu
  obtain ⟨hpacer, htask⟩ := hu
  have hm := PacedPool.step_move hstep
  constructor
  · obtain hsame | ⟨e, hcall⟩ := hm.mayStep ref
    · rw [hsame, hpacer]
    · rw [hpacer, hstuck] at hcall
      cases hcall
  · cases hm with
    | pool hpool hother => exact (step_move hpool).tasks_of_ne (hother ref) htask
    | timer => exact htask
    | @task moved draw input p hidle hpool =>
      -- The goroutine itself is in its call, so it is another one that moved.
      have hmoved : moved ≠ ref := by
        intro heq
        rw [heq, hpacer, hpc] at hidle
        cases hidle
      exact (step_move hpool).tasks_of_ne (by simp [hmoved]) htask

/-- A dial that succeeds after one that failed ends in a `Reset` that waits. The failed dial has
called `Next`, so there is a timer, whose value was taken. -/
theorem reset_waits {peer : Protobuf.PeerName} {input : Input}
    (hrun : run (PacedPool.step k) (p.paced conf) es = some s)
    (ht : s.pool.tasks[ref]? = some (.leave (.dial peer) none))
    (hfailed : (s.pacers ref).backoff.timer ≠ none)
    (hstep : s.step k (.pool (.task ref input) draw) = some s') :
    (s'.pacers ref).pc = .reset ∧ s'.pool.tasks[ref]? = some (.dial peer .head) := by
  obtain ⟨-, hstep⟩ := Option.ite_none_left_eq_some.mp hstep
  obtain ⟨hidle, hstep⟩ := Option.ite_none_right_eq_some.mp hstep
  obtain ⟨q, hpool, rfl⟩ := Option.map_eq_some_iff.mp hstep
  constructor
  · -- With a timer `Reset` goes on to its receive.
    obtain ⟨hnone, -⟩ | ⟨-, -, hpc⟩ := (timed_of_paced hrun ref).callReset hidle
    · exact absurd hnone hfailed
    · simpa [PacedPool.update, PacedPool.pacerAfter, ht, Pacer.dialed] using hpc
  · have hlt : ref < s.pool.tasks.length := (List.getElem?_eq_some_iff.mp ht).1
    obtain ⟨-, hpool⟩ := Option.ite_none_left_eq_some.mp hpool
    simp only [ht] at hpool
    obtain ⟨o, ho, rfl⟩ := Option.map_eq_some_iff.mp hpool
    cases input with
    | run =>
      cases ho
      simp [Pool.apply, hlt, Caller.next]
    | _ => cases ho

/-- A dial that succeeds after one that failed is the last one of its goroutine. It goes on to
`Reset`, where it waits forever. When the connection is lost later, this host does not dial the peer
any more. -/
theorem never_redials {peer : Protobuf.PeerName} {input : Input} {s'' : PacedPool}
    (hrun : run (PacedPool.step k) (p.paced conf) es = some s)
    (ht : s.pool.tasks[ref]? = some (.leave (.dial peer) none))
    (hfailed : (s.pacers ref).backoff.timer ≠ none)
    (hstep : s.step k (.pool (.task ref input) draw) = some s')
    (hs : Reaches (PacedPool.step k) s' s'') :
    s''.pool.tasks[ref]? = some (.dial peer .head) := by
  obtain ⟨hpc, htask⟩ := reset_waits hrun ht hfailed hstep
  exact (dial_stops (run_concat hrun hstep) hpc htask hs).2

/-- The first dial of the goroutine fails and the second one succeeds. Then the connection is
lost. -/
def lostRun : List PacedEvent :=
  ([.task 1 .run, .task 1 .run, .task 1 .run, .task 1 (.handshake (.error "refused")),
      .task 1 .run] : List Event).map (.pool · 0) ++
    [.fire 1, .receive 1] ++
    ([.task 1 .run, .task 1 .run, .task 1 .run, .task 1 (.handshake (.ok (7, ["b"]))),
      .task 1 .run, .task 1 .run, .task 1 (.sent none),
      .task 1 (.received (.ok (Resolvent.encode ⟨.server, 1⟩))), .task 1 .run, .task 1 .run,
      .task 1 .run, .drop 7, .task 2 .run, .task 2 .run,
      .task 2 (.closed none)] : List Event).map (.pool · 0)

/-- No one dials a peer whose connection is lost after a dial had failed. The connection to `b` is
dead at the end of this run, and the goroutine that would dial it waits in `Reset`. -/
theorem lost_peer_not_dialed :
    ∃ s, Reaches (PacedPool.step .truncation)
        ((newPool "a" ["b"]).run.paced Config.default.dialBackoff) s ∧
      (s.pool.pool "b").status = .dead ∧
      ∀ s', Reaches (PacedPool.step .truncation) s s' →
        s'.pool.tasks[1]? = some (.dial "b" .head) := by
  have hobs : (run (PacedPool.step .truncation)
      ((newPool "a" ["b"]).run.paced Config.default.dialBackoff) lostRun).any (fun s =>
        decide ((s.pool.pool "b").status = .dead ∧ (s.pacers 1).pc = .reset ∧
          s.pool.tasks[1]? = some (.dial "b" .head))) = true := by
    decide
  obtain ⟨s, hrun, hs⟩ := (Option.any_eq_true _ _).mp hobs
  -- The goroutine is inside `Reset` when the connection is lost.
  obtain ⟨hdead, hpc, ht⟩ := of_decide_eq_true hs
  exact ⟨s, ⟨_, hrun⟩, hdead, fun s' hs' => (dial_stops hrun hpc ht hs').2⟩

end ReplicatedFs.Connection
