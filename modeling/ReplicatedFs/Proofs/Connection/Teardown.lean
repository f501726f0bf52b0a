import ReplicatedFs.Library.Run
import ReplicatedFs.Proofs.Connection.PoolStep

/-!
# `ReplicatedFs.Proofs.Connection.Teardown`: who ends a connection that is alive

`Connection.Close` does not say which QUIC connection it means. A `watchConnection`, or a `Send` or
`Recv` that fails, calls it for the QUIC connection that it worked on (`Task.on`). By then the
`Connection` may be alive on another one, and is closed all the same: `late_watcher` is such a run.
The comment in `Close` says that either `watchConnection` or `handleErrors` gets there first. It
does not count on the second of the two to come after the next `Establish`.

`Pool.settled` admits the runs in which this does not happen. There `Establish` assigns a QUIC
connection only after the goroutines of the earlier ones have returned. In these runs a goroutine
that calls `Close` works on the QUIC connection of the `Connection` (`OwnInv`), and
`alive_until_own_end` follows.
-/

set_option autoImplicit false

namespace ReplicatedFs.Connection

open Protobuf
open Library

/-- The QUIC connection for which `Connection.Close` was called. `Pool.Close` has none. -/
def Closer.conn? : Closer → Option ConnId
  | .watch conn => some conn
  | .operate conn => some conn
  | .shut _ _ => none

/-- The peer and the QUIC connection for which a goroutine calls `Connection.Close`, or may do so
later. -/
def Task.on : Task → Option (PeerName × ConnId)
  | .watch peer conn => some (peer, conn)
  | .operate peer (.running conn) => some (peer, conn)
  | .close closer peer _ => closer.conn?.map fun conn => (peer, conn)
  | _ => none

/-- The steps of a pool that is not closed, and in which `Establish` assigns a QUIC connection only
after `watchConnection` and all of `Send` and `Recv` on the earlier ones have returned. -/
def Pool.settled (p : Pool) : Event → Bool
  | .close => false
  | .task ref _ =>
    match p.tasks[ref]? with
    | some (.establish h .lock) =>
      (p.pool h.peer).status = .alive || p.tasks.all fun t => t.on.all fun q => q.1 ≠ h.peer
    | _ => true
  | _ => true

/-- `Connection.Close` was called for a reason: the QUIC connection was closed, or an operation on
it failed. -/
def Closer.Caused (p : Pool) : Closer → Prop
  | .watch conn => conn ∈ p.done
  | .operate conn => conn ∈ p.broken
  | .shut _ _ => False

/-- A goroutine in `Connection.Close` has a reason, and none is in `Pool.Close`. -/
def Task.Caused (p : Pool) : Task → Prop
  | .close closer _ _ => closer.Caused p
  | .shut _ => False
  | _ => True

/-- The goroutines that may call `Connection.Close` work on the QUIC connection of the
`Connection`. -/
structure OwnInv (p : Pool) : Prop where
  own : ∀ t ∈ p.tasks, ∀ peer conn, t.on = some (peer, conn) →
    (p.pool peer).status = .alive → (p.pool peer).conn = some conn
  caused : ∀ t ∈ p.tasks, t.Caused p

section Step
variable {p : Pool} {ref : Nat} {t t' : Task} {input : Input} {o : Outcome}

/-- The QUIC connections that are done or broken stay so. Both lists only grow. -/
theorem TaskMove.ends (h : TaskMove p t input o) :
    p.done ⊆ o.pool.done ∧ p.broken ⊆ o.pool.broken := by
  cases h with
  | refused | discarded | closeFinish | shutFinish =>
    exact ⟨List.subset_append_right _ _, List.Subset.refl _⟩
  | operateBroken => exact ⟨List.Subset.refl _, List.subset_cons_self _ _⟩
  | _ => exact ⟨List.Subset.refl _, List.Subset.refl _⟩

/-- A reason to close does not go away: what is done or broken stays so. Used for the goroutines
that do not move in a step, when another one adds to the lists. -/
theorem Task.Caused.mono {p' : Pool} (h : t.Caused p) (hdone : p.done ⊆ p'.done)
    (hbroken : p.broken ⊆ p'.broken) : t.Caused p' := by
  cases t with
  | close closer peer pc =>
    cases closer with
    | watch conn => exact hdone h
    | operate conn => exact hbroken h
    | shut closed errs => exact h
  | shut pc => exact h
  | _ => trivial

/-- A call of `Connection.Close` has its reason from the start: the watcher has seen the end of the
QUIC connection, and the operation has failed on it. -/
theorem TaskMove.caused (h : TaskMove p t input o) (ht : t.Caused p)
    (ht' : o.Yields t') : t'.Caused o.pool := by
  rcases ht' with rfl | hnew
  · cases h with
    | woken peer conn hd => exact hd
    | operateBroken peer conn input => exact List.mem_cons_self
    | closeMark closer peer hl hs => exact ht
    | _ => trivial
  · cases h <;> cases hnew <;> trivial

/-- A goroutine starts to work on the QUIC connection that the `Connection` has. `Send` and `Recv`
load it from the field, and the watcher gets the one that `Establish` has just assigned. From then
on it does not look at the field again. -/
theorem TaskMove.on (h : TaskMove p t input o) (ht' : o.Yields t')
    {peer : PeerName} {conn : ConnId} (hon : t'.on = some (peer, conn)) :
    t.on = some (peer, conn) ∨ (o.pool.pool peer).conn = some conn := by
  rcases ht' with rfl | hnew
  · cases h with
    -- `Send` and `Recv` read the field once, and work on what they read.
    | load q conn' hc =>
      obtain ⟨rfl, rfl⟩ : q = peer ∧ conn' = conn := by simpa [Task.on] using hon
      exact .inr hc
    | _ => first | exact .inl hon | cases hon
  · cases h with
    -- The watcher of the new QUIC connection.
    | assign h hl hs =>
      obtain rfl := Option.some.inj hnew
      obtain ⟨rfl, rfl⟩ : h.peer = peer ∧ h.conn = conn := by simpa [Task.on] using hon
      exact .inr (by simp [Pool.update, Connection.assign])
    | acceptSpawn conn name hc => cases hnew; cases hon
    | _ => cases hnew

/-- When `Establish` assigns a QUIC connection, no goroutine works on one of the same peer. This is
the condition `settled` on the run, read for one goroutine. The code does not ensure it, as
`Establish` does not wait for the watcher of the old connection. -/
theorem not_on_of_settled {handler : Handler} (ht : p.tasks[ref]? = some (.establish handler .lock))
    (hg : p.settled (.task ref input) = true) (hs : (p.pool handler.peer).status ≠ .alive)
    (hmem : t ∈ p.tasks) {peer : PeerName} {conn : ConnId} (hon : t.on = some (peer, conn)) :
    peer ≠ handler.peer := by
  have hall : p.tasks.all (fun t => t.on.all fun q => q.1 ≠ handler.peer) = true := by
    simpa [Pool.settled, ht, hs] using hg
  have hself := List.all_eq_true.mp hall t hmem
  rw [hon] at hself
  simpa using hself

/-- A step of a goroutine keeps the invariant. The guard is needed for the step in which `Establish`
assigns a new QUIC connection: goroutines of the earlier one would now work on a connection that is
not theirs. -/
theorem OwnInv.task (hi : OwnInv p) (ht : p.tasks[ref]? = some t) (hm : TaskMove p t input o)
    (hg : p.settled (.task ref input) = true) : OwnInv (p.apply ref o) := by
  have hmem := List.mem_of_getElem? ht
  obtain ⟨hdone, hbroken⟩ := hm.ends
  refine ⟨?_, ?_⟩
  · -- A goroutine on a QUIC connection was on it before, or has just taken it from the
    -- `Connection`.
    have hfrom : ∀ t' ∈ (p.apply ref o).tasks, ∀ peer conn, t'.on = some (peer, conn) →
        (∃ u ∈ p.tasks, u.on = some (peer, conn)) ∨ (o.pool.pool peer).conn = some conn := by
      intro t' ht' peer conn hon
      rcases mem_apply ht' with hnew | hold
      · exact (hm.on hnew hon).imp (fun h => ⟨t, hmem, h⟩) id
      · exact .inl ⟨t', hold, hon⟩
    intro t' ht' peer conn hon hs
    rcases hfrom t' ht' peer conn hon with ⟨u, hu, huon⟩ | hconn
    · rcases hm.alive_before hs with ⟨hbefore, hconn⟩ | ⟨handler, rfl, rfl, hne⟩
      · exact hconn.trans (hi.own u hu peer conn huon hbefore)
      · exact absurd rfl (not_on_of_settled ht hg hne hu huon)
    · exact hconn
  · intro t' ht'
    rcases mem_apply ht' with hnew | hold
    · exact hm.caused (hi.caused t hmem) hnew
    · exact (hi.caused t' hold).mono hdone hbroken

/-- One step keeps the goroutines on the QUIC connection of their `Connection`. A new `Send` or
`Recv` has not loaded it yet. -/
theorem OwnInv.step {p' : Pool} {e : Event} (h : restrict Pool.step Pool.settled p e = some p')
    (hi : OwnInv p) : OwnInv p' := by
  obtain ⟨hg, hstep⟩ := restrict_eq_some.mp h
  cases step_move hstep with
  | operate peer hp =>
    refine ⟨List.forall_mem_append.mpr ⟨hi.own, List.forall_mem_singleton.mpr ?_⟩,
      List.forall_mem_append.mpr ⟨hi.caused, List.forall_mem_singleton.mpr trivial⟩⟩
    intro q conn hon
    cases hon
  -- `Pool.Close` closes connections without a reason of their own, which is why it is not admitted.
  | close => cases hg
  | drop conn =>
    refine ⟨hi.own, ?_⟩
    intro t ht
    exact (hi.caused t ht).mono (List.subset_cons_self _ _) (List.Subset.refl _)
  | task ref input t o ht hm => exact hi.task ht hm hg

/-- The QUIC connections that end are remembered, in every step of the pool. -/
theorem ends_step {p' : Pool} {e : Event} (h : p.step e = some p') :
    p.done ⊆ p'.done ∧ p.broken ⊆ p'.broken := by
  cases step_move h with
  | operate | close => exact ⟨List.Subset.refl _, List.Subset.refl _⟩
  | drop conn => exact ⟨List.subset_cons_self _ _, List.Subset.refl _⟩
  | task ref input t o ht hm => exact hm.ends

/-- One step ends only a connection whose own QUIC connection has ended. Without the invariant a
goroutine that still works on an old QUIC connection could close the new one, since `Close` does not
ask for which one it was called. -/
theorem OwnInv.aliveOn {p' : Pool} {e : Event} (h : p.step e = some p') (hi : OwnInv p)
    {peer : PeerName} {conn : ConnId} (ha : (p.pool peer).aliveOn conn) (hd : conn ∉ p'.done)
    (hb : conn ∉ p'.broken) : (p'.pool peer).aliveOn conn := by
  obtain ⟨hdone, hbroken⟩ := ends_step h
  cases step_move h with
  | operate | close | drop => exact ha
  | task ref input t o ht hm =>
    rcases hm.alive_after ha with hafter | ⟨closer, rfl⟩
    · exact hafter
    · -- The goroutine in `Close` works on this QUIC connection, and has a reason to close it.
      have hmem := List.mem_of_getElem? ht
      have hown : ∀ q, closer.conn? = some q → conn = q := by
        intro q hq
        have hconn := hi.own _ hmem peer q (by simp [Task.on, hq]) ha.1
        exact Option.some.inj (ha.2.symm.trans hconn)
      have hcaused : closer.Caused p := hi.caused _ hmem
      cases closer with
      | watch q => exact absurd (hdone (hown q rfl ▸ hcaused)) hd
      | operate q => exact absurd (hbroken (hown q rfl ▸ hcaused)) hb
      | shut closed errs => exact hcaused.elim

end Step

/-- `Pool.Run` starts the goroutines that dial and accept, and none of them works on a QUIC
connection yet. -/
theorem OwnInv.init (host : PeerName) (peers : List PeerName) :
    OwnInv (newPool host peers).run := by
  refine ⟨?_, ?_⟩
  · intro t ht peer conn hon
    rcases mem_tasks_run ht with rfl | ⟨q, rfl⟩ <;> cases hon
  · intro t ht
    rcases mem_tasks_run ht with rfl | ⟨q, rfl⟩ <;> trivial

/-- A connection that is alive on a QUIC connection stays so from one state to a later one, unless
the QUIC connection has ended by then. -/
structure Outlives (peer : PeerName) (conn : ConnId) (p p' : Pool) : Prop where
  done : p.done ⊆ p'.done
  broken : p.broken ⊆ p'.broken
  alive : (p.pool peer).aliveOn conn → conn ∉ p'.done → conn ∉ p'.broken →
    (p'.pool peer).aliveOn conn

/-- In no steps nothing ends, and a connection that is alive stays so. -/
theorem Outlives.refl (peer : PeerName) (conn : ConnId) (p : Pool) : Outlives peer conn p p :=
  ⟨List.Subset.refl _, List.Subset.refl _, fun h _ _ => h⟩

/-- What has not ended after both runs had not ended after the first. So a connection that is alive
at the start is alive in between, and the second run can start from there. -/
theorem Outlives.trans {peer : PeerName} {conn : ConnId} {p q r : Pool}
    (h : Outlives peer conn p q) (h' : Outlives peer conn q r) : Outlives peer conn p r := by
  refine ⟨List.Subset.trans h.done h'.done, List.Subset.trans h.broken h'.broken, ?_⟩
  intro ha hd hb
  -- What has not ended at the last state had not ended in between.
  have hmid := h.alive ha (fun hm => hd (h'.done hm)) fun hm => hb (h'.broken hm)
  exact h'.alive hmid hd hb

/-- In every run in which `Establish` waits for the goroutines of the earlier QUIC connections, a
connection that is alive stays alive on its QUIC connection, until that one is closed or an
operation on it fails. -/
theorem alive_until_own_end (host : PeerName) (peers : List PeerName) {s s' : Pool}
    (hs : Reaches (restrict Pool.step Pool.settled) (newPool host peers).run s)
    (hs' : Reaches (restrict Pool.step Pool.settled) s s') {peer : PeerName} {conn : ConnId}
    (ha : (s.pool peer).aliveOn conn) (hdone : conn ∉ s'.done) (hbroken : conn ∉ s'.broken) :
    (s'.pool peer).aliveOn conn := by
  have hinv : OwnInv s := hs.invariant (fun _ _ _ => OwnInv.step) (OwnInv.init host peers)
  obtain ⟨es, hes⟩ := hs'
  -- What one step does to the connection, and then the run, since this is transitive.
  have hstep : ∀ p e p', restrict Pool.step Pool.settled p e = some p' → OwnInv p →
      Outlives peer conn p p' := by
    intro p e p' h hi
    have hstep := (restrict_eq_some.mp h).2
    obtain ⟨hd, hb⟩ := ends_step hstep
    exact ⟨hd, hb, hi.aliveOn hstep⟩
  have hrun : Outlives peer conn s s' :=
    run_relation (Outlives.refl peer conn) (fun _ _ _ => Outlives.trans)
      (fun _ _ _ => OwnInv.step) hstep hes hinv
  exact hrun.alive ha hdone hbroken

/-- The dial of the peer from the head of its loop to the assignment, and back to the head. -/
def dialRun (conn : ConnId) : List Event :=
  [.task 1 .run, .task 1 .run, .task 1 .run, .task 1 (.handshake (.ok (conn, ["b"]))),
    .task 1 .run, .task 1 .run, .task 1 (.sent none),
    .task 1 (.received (.ok (Resolvent.encode ⟨.server, 1⟩))), .task 1 .run, .task 1 .run,
    .task 1 .run]

/-- A `Recv` on the first QUIC connection fails and closes it. -/
def recvFails : List Event :=
  [.operate "b", .task 3 .run, .task 3 .run, .task 3 (.operated (some .eof)), .task 3 .run,
    .task 3 (.closed none)]

/-- The `watchConnection` of the first QUIC connection wakes up before the second one is
established, and calls `Close` after that. -/
theorem late_watcher : ∃ s s',
    Reaches (restrict Pool.step fun _ e => e ≠ .close) (newPool "a" ["b"]).run s ∧
    Reaches (restrict Pool.step fun _ e => e ≠ .close) s s' ∧
    (s.pool "b").aliveOn 2 ∧ 2 ∉ s'.done ∧ 2 ∉ s'.broken ∧ ¬ (s'.pool "b").aliveOn 2 := by
  have hrun : ∃ s, Reaches (restrict Pool.step fun _ e => e ≠ .close) (newPool "a" ["b"]).run s ∧
      decide ((s.pool "b").aliveOn 2 ∧
        (run (restrict Pool.step fun _ e => e ≠ .close) s [.task 2 .run]).any fun s' =>
          decide (2 ∉ s'.done ∧ 2 ∉ s'.broken ∧ ¬ (s'.pool "b").aliveOn 2)) = true :=
    Reaches.of_any _ (dialRun 1 ++ recvFails ++ [.task 2 .run] ++ dialRun 2) _ (by decide)
  obtain ⟨s, hs, hp⟩ := hrun
  obtain ⟨ha, hnext⟩ := of_decide_eq_true hp
  obtain ⟨s', hs', hp'⟩ := Reaches.of_any s _ _ hnext
  exact ⟨s, s', hs, hs', ha, of_decide_eq_true hp'⟩

/-- The same goroutines in an order that is admitted. The second QUIC connection survives an
operation with a temporary error. -/
theorem alive_after_watcher : ∃ s s',
    Reaches (restrict Pool.step Pool.settled) (newPool "a" ["b"]).run s ∧
    Reaches (restrict Pool.step Pool.settled) s s' ∧ (s.pool "b").aliveOn 2 ∧
    1 ∈ s'.done ∧ (s'.pool "b").aliveOn 2 := by
  have hrun : ∃ s, Reaches (restrict Pool.step Pool.settled) (newPool "a" ["b"]).run s ∧
      decide ((s.pool "b").aliveOn 2 ∧
        (run (restrict Pool.step Pool.settled) s [.operate "b", .task 5 .run, .task 5 .run,
          .task 5 (.operated (some (.op true)))]).any fun s' =>
          decide (1 ∈ s'.done ∧ 2 ∉ s'.done ∧ 2 ∉ s'.broken)) = true :=
    Reaches.of_any _
      (dialRun 1 ++ recvFails ++ [.task 2 .run, .task 2 .run] ++ dialRun 2) _ (by decide)
  obtain ⟨s, hs, hp⟩ := hrun
  -- The watcher of the first QUIC connection has returned before the second one is assigned.
  obtain ⟨ha, hnext⟩ := of_decide_eq_true hp
  obtain ⟨s', hs', hp'⟩ := Reaches.of_any s _ _ hnext
  obtain ⟨hfirst, hdone, hbroken⟩ := of_decide_eq_true hp'
  exact ⟨s, s', hs, hs', ha, hfirst, alive_until_own_end "a" ["b"] hs hs' ha hdone hbroken⟩

end ReplicatedFs.Connection
