import Mathlib.Data.List.Dedup
import ReplicatedFs.Library.Run
import ReplicatedFs.Proofs.Connection.PoolStep

/-!
# `ReplicatedFs.Proofs.Connection.Shutdown`: `Pool.Close` is final

A handler adds itself to `activeConnectionHandlers` and reads `closed` after that. `Pool.Close` sets
`closed` and reads the counter after that. So when `Pool.Close` finds the counter at 0, every
handler that is added later finds the pool closed. Three invariants carry this over every
interleaving.

* `HandlersInv`: the counter is the number of the handlers.
* `LinkInv`: `activeConnections` is the number of the connections that are alive or about to be
  reset. The mutex of such a connection is held by one call of `Connection.Close`.
* `ShutInv`: after the wait loop there is no handler that found the pool open, and the connections
  that `Pool.Close` went through stay dead.

`shutdown_final` puts the three together.
-/

set_option autoImplicit false

namespace ReplicatedFs.Connection

open Protobuf
open Library

/-! ## The handlers -/
/-! ## The handlers -/

/-- The goroutine is a handler, between `addConnectionHandler` and `removeConnectionHandler`. -/
def Task.handles : Task → Bool
  | .dial _ .check | .dial _ .dial => true
  | .accept (.check _) | .accept (.refuse _) => true
  | .establish _ _ => true
  | .leave _ _ => true
  | _ => false

/-- A step changes the counter as it changes what the goroutines are. A handler is counted from the
step in which it adds one to the counter, and no longer after the step in which it takes one off. -/
theorem TaskMove.handlers {p : Pool} {t : Task} {input : Input} {o : Outcome}
    (h : TaskMove p t input o) :
    o.pool.activeConnectionHandlers + t.handles.toNat =
      p.activeConnectionHandlers + o.task.handles.toNat + (o.spawned.any Task.handles).toNat := by
  cases h with
  | dialDead peer pc hpc hs => rcases hpc with rfl | rfl <;> simp [Task.handles]
  | _ => simp [Task.handles, Pool.addHandler, Pool.removeHandler, Pool.update]

/-- The counter is the number of the handlers. -/
def HandlersInv (p : Pool) : Prop :=
  p.activeConnectionHandlers = p.tasks.countP Task.handles

/-- Every step keeps the count. A goroutine becomes a handler in the step that increments the
counter, and ceases to be one in the step that decrements it. -/
theorem HandlersInv.step {p p' : Pool} {e : Event} (h : p.step e = some p')
    (hi : HandlersInv p) : HandlersInv p' := by
  unfold HandlersInv at hi ⊢
  cases step_move h with
  | operate peer hp => simpa [Task.handles] using hi
  | close => simpa [Task.handles] using hi
  | drop conn => exact hi
  | task ref input t o ht hm =>
    have hcount := countP_apply (o := o) ht Task.handles
    have hmove := hm.handlers
    show o.pool.activeConnectionHandlers = _
    omega

/-! ## The connections -/
/-! ## The connections -/

/-- The connection is alive, or `Close` is about to reset it. -/
def busy (c : Connection) : Bool := c.status = .alive || c.locked

/-- What holds of a connection at all times. -/
structure Sound (c : Connection) : Prop where
  status : c.status ≠ .shutdown
  dead : c.locked = true → c.status = .dead
  conn : c.busy = true → c.conn ≠ none

/-- A connection that neither is open nor is being closed is dead. The invariant of `Pool.Close` is
about `busy`, and this is how the theorem gets from there to the status. -/
theorem Sound.dead_of_not_busy {c : Connection} (h : Sound c) (hb : c.busy = false) :
    c.status = .dead := by
  have hs := h.status
  cases hc : c.status <;> simp_all [busy]

/-- The same, the other way round: what is not dead is counted, with or without the mutex. -/
theorem Sound.busy_of_ne_dead {c : Connection} (h : Sound c) (hs : c.status ≠ .dead) :
    c.busy = true := by
  have hs' := h.status
  cases hc : c.status <;> simp_all [busy]

/-- `Establish` assigns under the mutex. No call of `Close` holds it, so the assignment does not
come between its two steps. -/
theorem Sound.assign {c : Connection} (hl : c.locked = false) (perspective : Perspective)
    (conn : ConnId) : Sound (c.assign perspective conn) :=
  ⟨by simp [Connection.assign], by simp [Connection.assign, hl], by simp [Connection.assign]⟩

/-- `Close` marks the connection before it resets it. In between it is dead, but still counted. -/
theorem Sound.markDead {c : Connection} (h : Sound c) (hs : c.status ≠ .dead) :
    Sound c.markDead :=
  ⟨by simp [Connection.markDead], fun _ => rfl, fun _ => h.conn (h.busy_of_ne_dead hs)⟩

/-- The reset is what takes the connection out of the count. `Close` decrements the counter in the
same step. -/
theorem Sound.reset_busy {c : Connection} (h : Sound c) (hl : c.locked = true) :
    c.reset.busy = false := by
  simp [busy, Connection.reset, h.dead hl]

/-- After the reset the connection is as at the start: dead, not locked and without a
perspective. -/
theorem Sound.reset {c : Connection} (h : Sound c) (hl : c.locked = true) : Sound c.reset := by
  have hdead : c.reset.status = .dead := h.dead hl
  refine ⟨by simp [hdead], fun _ => hdead, ?_⟩
  simp [h.reset_busy hl]

/-- The peer whose connection a goroutine changes. -/
def Task.peer? : Task → Option PeerName
  | .accept (.add (.ok (_, name))) => some name
  | .accept (.check (.ok (_, name))) => some name
  | .establish h _ => some h.peer
  | .watch peer _ => some peer
  | .operate peer _ => some peer
  | .close _ peer _ => some peer
  | _ => none

/-- A goroutine that is just started is not in `Close`, so it does not hold the mutex. The
goroutines that are started are the handlers of accepted connections and the watchers. -/
theorem TaskMove.spawned_finishing {p : Pool} {t : Task} {input : Input} {o : Outcome}
    (h : TaskMove p t input o) (peer : PeerName) :
    o.spawned.any (Task.finishing peer) = false := by
  cases h <;> rfl

/-- A goroutine works for the peer it had, or for one that was verified. The peers of the pool are
the keys of its map, so this says that no goroutine looks up a name that is not in the map. -/
theorem TaskMove.peer {p : Pool} {t t' : Task} {input : Input} {o : Outcome}
    (h : TaskMove p t input o) (ht' : o.Yields t') {peer : PeerName}
    (hp : t'.peer? = some peer) : t.peer? = some peer ∨ peer ∈ p.peers := by
  rcases ht' with rfl | hs
  · cases h with
    | dialed peer name conn input hn => exact .inr (Option.some.inj hp ▸ hn)
    | accepted result input hn =>
      match result, hp with
      | .ok (conn, name), hp => exact .inr (Option.some.inj hp ▸ hn conn name rfl)
    | acceptAdd result => exact .inl (by cases result <;> exact hp)
    | shutVisit closed errs peer hmem => exact .inr (Option.some.inj hp ▸ hmem)
    | _ => first | exact .inl hp | cases hp
  · cases h with
    | acceptSpawn conn name hc => obtain rfl := Option.some.inj hs; exact .inl hp
    | assign h hl hs' => obtain rfl := Option.some.inj hs; exact .inl hp
    | _ => cases hs

/-- The connections and their counter. -/
structure LinkInv (p : Pool) : Prop where
  nodup : p.peers.Nodup
  member : ∀ t ∈ p.tasks, ∀ peer, t.peer? = some peer → peer ∈ p.peers
  sound : ∀ peer, Sound (p.pool peer)
  holds : ∀ peer, p.tasks.countP (Task.finishing peer) = (p.pool peer).locked.toNat
  active : p.activeConnections = (p.peers.map fun peer => (p.pool peer).busy.toNat).sum

section Links
variable {p : Pool} {ref : Nat} {t : Task} {input : Input} {o : Outcome}

/-- A goroutine that holds a mutex shows in the connection, since there is one holder for each mutex
that is held. -/
theorem LinkInv.locked (hi : LinkInv p) (peer : PeerName) (ht : t ∈ p.tasks)
    (hf : t.finishing peer = true) : (p.pool peer).locked = true := by
  have hpos : 0 < p.tasks.countP (Task.finishing peer) := List.countP_pos_iff.mpr ⟨t, ht, hf⟩
  rw [hi.holds peer] at hpos
  cases hl : (p.pool peer).locked with
  | true => rfl
  | false => simp [hl] at hpos

/-- The sum of `active` after a change of one connection. It is stated without a difference, which
might be negative. -/
theorem LinkInv.active_update (hi : LinkInv p) {peer : PeerName} (hp : peer ∈ p.peers)
    (c : Connection) :
    (p.peers.map fun q => (Function.update p.pool peer c q).busy.toNat).sum +
        (p.pool peer).busy.toNat =
      (p.peers.map fun q => (p.pool q).busy.toNat).sum + c.busy.toNat := by
  have hsum := sum_map_update hi.nodup hp (f := fun q => (p.pool q).busy.toNat)
    (g := fun q => (Function.update p.pool peer c q).busy.toNat)
    (fun q _ hne => by rw [Function.update_of_ne hne])
  simpa using hsum

/-- What a step of a goroutine has to show: the connections are sound, the mutexes are held by those
in `Close`, and the counter is right. -/
theorem LinkInv.apply (hi : LinkInv p) (ht : p.tasks[ref]? = some t) (hm : TaskMove p t input o)
    (hsound : ∀ peer, Sound (o.pool.pool peer))
    (hholds : ∀ peer, (o.task.finishing peer).toNat + (p.pool peer).locked.toNat =
      (t.finishing peer).toNat + (o.pool.pool peer).locked.toNat)
    (hactive : o.pool.activeConnections =
      (p.peers.map fun peer => (o.pool.pool peer).busy.toNat).sum) : LinkInv (p.apply ref o) where
  nodup := hm.peers ▸ hi.nodup
  member := by
    intro t' ht' peer hp
    show peer ∈ o.pool.peers
    rw [hm.peers]
    rcases mem_apply ht' with hnew | hold
    · exact (hm.peer hnew hp).elim (hi.member t (List.mem_of_getElem? ht) peer) id
    · exact hi.member t' hold peer hp
  sound := hsound
  holds := by
    intro peer
    -- No step starts a goroutine that holds a mutex.
    have hcount := countP_apply (o := o) ht (Task.finishing peer)
    have hspawned := hm.spawned_finishing peer
    have hbefore := hi.holds peer
    have hchange := hholds peer
    show _ = (o.pool.pool peer).locked.toNat
    simp only [hspawned, Bool.toNat_false] at hcount
    omega
  active := by
    show o.pool.activeConnections = ((o.pool.peers.map _).sum : Nat)
    rw [hm.peers]
    exact hactive

/-- What a step of a goroutine that changes one connection has to show. Its own goroutines are
counted for this connection, and for all others nothing changes. -/
theorem LinkInv.update (hi : LinkInv p) (ht : p.tasks[ref]? = some t) (hm : TaskMove p t input o)
    {peer : PeerName} {c : Connection} (hp : peer ∈ p.peers)
    (hpool : o.pool.pool = Function.update p.pool peer c) (hsound : Sound c)
    (hself : (o.task.finishing peer).toNat + (p.pool peer).locked.toNat =
      (t.finishing peer).toNat + c.locked.toNat)
    (hother : ∀ q, q ≠ peer → o.task.finishing q = t.finishing q)
    (hactive : o.pool.activeConnections + (p.pool peer).busy.toNat =
      p.activeConnections + c.busy.toNat) : LinkInv (p.apply ref o) := by
  refine hi.apply ht hm ?_ ?_ ?_
  · intro q
    rw [hpool]
    by_cases hq : q = peer
    · rw [hq, Function.update_self]
      exact hsound
    · rw [Function.update_of_ne hq]
      exact hi.sound q
  · intro q
    rw [hpool]
    by_cases hq : q = peer
    · rw [hq, Function.update_self]
      exact hself
    · rw [Function.update_of_ne hq, hother q hq]
  · -- The count changes by what this connection adds to it.
    have hsum := hi.active_update hp c
    have hbefore := hi.active
    rw [hpool]
    omega

/-- A step of a goroutine keeps the connections and their counter. `TaskMove.link` says what it can
do to a connection, and each case changes the counter by what it changes about `busy`. -/
theorem LinkInv.task (hi : LinkInv p) (ht : p.tasks[ref]? = some t)
    (hm : TaskMove p t input o) : LinkInv (p.apply ref o) := by
  have hmem := List.mem_of_getElem? ht
  have hpeer : ∀ peer, t.peer? = some peer → peer ∈ p.peers := hi.member t hmem
  cases hm.link with
  | keep hpool hactive hfree hfree' =>
    refine hi.apply ht hm (by rw [hpool]; exact hi.sound) ?_
      (by rw [hpool, hactive]; exact hi.active)
    intro peer
    rw [hpool, hfree, hfree']
  | count h ctr heq hpool hactive hfree hfree' =>
    subst heq
    have hsound := hi.sound h.peer
    refine hi.update ht hm (hpeer _ rfl) hpool ⟨hsound.status, hsound.dead, hsound.conn⟩ ?_ ?_ ?_
    · rw [hfree, hfree']
    · intro q _
      rw [hfree, hfree']
    · rw [hactive]
      rfl
  | assign h heq hl hs hpool hactive hfree' =>
    subst heq
    refine hi.update ht hm (hpeer _ rfl) hpool (Sound.assign hl _ _) ?_ ?_ ?_
    · rw [hfree']
      rfl
    · intro q _
      rw [hfree']
      rfl
    · -- The connection was idle before, so one more is active.
      have hidle : (p.pool h.peer).busy = false := by simp [busy, hl, hs]
      rw [hidle, hactive]
      simp [busy, Connection.assign]
  | mark closer peer heq ho hl hs hpool hactive =>
    subst heq
    have hsound := hi.sound peer
    refine hi.update ht hm (hpeer _ rfl) hpool (hsound.markDead hs) ?_ ?_ ?_
    · simp [ho, Task.finishing, hl, Connection.markDead]
    · intro q hq
      simp [ho, Task.finishing, Ne.symm hq]
    · rw [hactive, hsound.busy_of_ne_dead hs]
      simp [busy, Connection.markDead]
  | finish closer peer heq hpool hactive hfree' =>
    subst heq
    have hlocked := hi.locked peer hmem (by simp [Task.finishing])
    have hsound := hi.sound peer
    refine hi.update ht hm (hpeer _ rfl) hpool (hsound.reset hlocked) ?_ ?_ ?_
    · rw [hfree']
      simp [Task.finishing, hlocked, Connection.reset]
    · intro q hq
      rw [hfree']
      simp [Task.finishing, Ne.symm hq]
    · have hidle := hsound.reset_busy hlocked
      have hbusy : (p.pool peer).busy = true := by simp [busy, hlocked]
      rw [hactive, hidle, hbusy]
      simp
  | nil closer peer heq hconn hpool =>
    -- The connection of a call that holds the mutex has a QUIC connection.
    subst heq
    have hlocked := hi.locked peer hmem (by simp [Task.finishing])
    exact absurd hconn ((hi.sound peer).conn (by simp [busy, hlocked]))

/-- A goroutine that starts holds no mutex, and works for a peer of the pool. The connections and
their counter are as before, so nothing else has to be shown. -/
theorem LinkInv.spawn (hi : LinkInv p) {t : Task} (hfree : ∀ peer, t.finishing peer = false)
    (hpeer : ∀ peer, t.peer? = some peer → peer ∈ p.peers) :
    LinkInv { p with tasks := p.tasks ++ [t] } := by
  refine ⟨hi.nodup, List.forall_mem_append.mpr ⟨hi.member, List.forall_mem_singleton.mpr hpeer⟩,
    hi.sound, ?_, hi.active⟩
  intro peer
  rw [List.countP_append, List.countP_singleton, hfree peer]
  exact hi.holds peer

/-- Every step keeps the connections and their counter. New goroutines do not touch them. -/
theorem LinkInv.step {p' : Pool} {e : Event} (h : p.step e = some p') (hi : LinkInv p) :
    LinkInv p' := by
  cases step_move h with
  | operate peer hp =>
    refine hi.spawn (fun _ => rfl) ?_
    intro q hq
    exact Option.some.inj hq ▸ hp
  | close =>
    refine hi.spawn (fun _ => rfl) ?_
    intro q hq
    cases hq
  | drop conn => exact ⟨hi.nodup, hi.member, hi.sound, hi.holds, hi.active⟩
  | task ref input t o ht hm => exact hi.task ht hm

end Links

/-! ## The end of the pool -/
/-! ## The end of the pool -/

/-- A handler that found the pool open. -/
def Task.admitted : Task → Bool
  | .dial _ .dial => true
  | .establish _ _ => true
  | _ => false

/-- The caller of `Connection.Close` is `Pool.Close`. -/
def Closer.shuts : Closer → Bool
  | .shut _ _ => true
  | _ => false

/-- `Pool.Close` has set `closed`. -/
def Task.stored : Task → Bool
  | .shut .store => false
  | .shut _ => true
  | .close closer _ _ => closer.shuts
  | _ => false

/-- `Pool.Close` has left its wait loop. -/
def Task.past : Task → Bool
  | .shut .store | .shut .wait => false
  | .shut _ => true
  | .close closer _ _ => closer.shuts
  | _ => false

/-- The peers whose connection the caller of `Connection.Close` went through before. -/
def Closer.cleared : Closer → List PeerName
  | .shut closed _ => closed
  | _ => []

/-- The peers whose connection `Pool.Close` went through. -/
def Task.cleared (peers : List PeerName) : Task → List PeerName
  | .shut (.closing closed _) => closed
  | .close closer _ _ => closer.cleared
  | .shut (.returned _) => peers
  | _ => []

/-- A goroutine that was admitted has not left yet, so it is counted as a handler. -/
theorem Task.handles_of_admitted {t : Task} (h : t.admitted = true) : t.handles = true := by
  cases t with
  | dial peer pc => cases pc <;> first | rfl | cases h
  | establish handler pc => rfl
  | _ => cases h

/-- `Close` comes to the connections after it has waited for the handlers. So a connection that it
has gone through cannot be assigned again by a handler from before. -/
theorem Task.past_of_cleared {t : Task} {peers : List PeerName} {peer : PeerName}
    (h : peer ∈ t.cleared peers) : t.past = true := by
  cases t with
  | shut pc => cases pc <;> first | rfl | cases h
  | close closer peer pc => cases closer <;> first | rfl | cases h
  | _ => cases h

/-- And it waits for them after it has stored `closed`. This order is what the whole argument rests
on. -/
theorem Task.stored_of_past {t : Task} (h : t.past = true) : t.stored = true := by
  cases t with
  | shut pc => cases pc <;> first | rfl | cases h
  | close closer peer pc => cases closer <;> first | rfl | cases h
  | _ => cases h

/-- The pool is closed, and no handler found it open. -/
def Sealed (p : Pool) : Prop := p.closed = true ∧ ∀ t ∈ p.tasks, t.admitted = false

/-- `Pool.Close` and the goroutines that it waits for. -/
structure ShutInv (p : Pool) : Prop where
  stored : ∀ t ∈ p.tasks, t.stored = true → p.closed = true
  past : ∀ t ∈ p.tasks, t.past = true → Sealed p
  cleared : ∀ t ∈ p.tasks, ∀ peer ∈ t.cleared p.peers, (p.pool peer).busy = false

section Shut
variable {p : Pool} {ref : Nat} {t t' : Task} {input : Input} {o : Outcome}

/-- A pool that is closed stays closed, as nothing resets the flag. `Run` would reset it, but it is
called only once, before the first step. -/
theorem TaskMove.closed (h : TaskMove p t input o) (hc : p.closed = true) :
    o.pool.closed = true := by
  cases h <;> first | exact hc | rfl

/-- `Pool.Close` sets `closed` first, so whoever is past that point has set it. Another call of
`Close` may have set it before, and it makes no difference which one did. -/
theorem TaskMove.stored (h : TaskMove p t input o) (ht' : o.Yields t')
    (hs : t'.stored = true) : t.stored = true ∨ o.pool.closed = true := by
  rcases ht' with rfl | hnew
  · cases h with
    | shutStore => exact .inr rfl
    | _ => first | exact .inl hs | cases hs
  · cases h <;> cases hnew <;> cases hs

/-- A handler is admitted only while the pool is open. It adds itself to the counter before it looks
at the flag. -/
theorem TaskMove.admitted (h : TaskMove p t input o) (ht' : o.Yields t')
    (ha : t'.admitted = true) : t.admitted = true ∨ p.closed = false := by
  rcases ht' with rfl | hnew
  · cases h with
    | dialOpen peer hc => exact .inr hc
    | _ => first | exact .inl rfl | cases ha
  · cases h with
    | acceptSpawn conn name hc => exact .inr hc
    | assign h hl hs => cases hnew; cases ha
    | _ => cases hnew

/-- `Pool.Close` leaves its wait loop when the counter is 0, and has stored the flag before the
loop. -/
theorem TaskMove.past (h : TaskMove p t input o) (ht' : o.Yields t')
    (hp : t'.past = true) :
    t.past = true ∨ (t.stored = true ∧ p.activeConnectionHandlers = 0) := by
  rcases ht' with rfl | hnew
  · cases h with
    | shutWaited hz => exact .inr ⟨rfl, hz⟩
    | _ => first | exact .inl hp | cases hp
  · cases h <;> cases hnew <;> cases hp

/-- `Pool.Close` goes through a connection when it is dead and its mutex is free. It may find the
connection dead already, or it waits for the mutex and closes it. In both cases the connection is
not counted any more. -/
theorem TaskMove.cleared (hi : LinkInv p) (hmem : t ∈ p.tasks) (h : TaskMove p t input o)
    (ht' : o.Yields t') {peer : PeerName}
    (hc : peer ∈ t'.cleared o.pool.peers) :
    peer ∈ t.cleared p.peers ∨ (o.pool.pool peer).busy = false := by
  rcases ht' with rfl | hnew
  · cases h with
    | shutDead closed errs q hl hs =>
      rcases List.mem_cons.mp hc with rfl | hold
      · exact .inr (by simp [busy, hl, hs])
      · exact .inl hold
    -- `Close` of the connection has just released the mutex.
    | shutFinish closed errs errs' q input conns =>
      rcases List.mem_cons.mp hc with rfl | hold
      · have hlocked := hi.locked peer hmem (by simp [Task.finishing])
        refine .inr ?_
        show (Function.update p.pool peer (p.pool peer).reset peer).busy = false
        rw [Function.update_self]
        exact (hi.sound peer).reset_busy hlocked
      · exact .inl hold
    -- Its loop is over when there is no connection left.
    | shutReturned closed errs hall => exact .inl (hall peer hc)
    | _ => first | exact .inl hc | cases hc
  · cases h <;> cases hnew <;> cases hc

/-- Only an admitted handler makes a connection alive. All other goroutines close connections or use
them. -/
theorem TaskMove.alive (h : TaskMove p t input o) (ha : t.admitted = false) {peer : PeerName}
    (hs : (o.pool.pool peer).status = .alive) : (p.pool peer).status = .alive := by
  rcases h.alive_before hs with hbefore | ⟨handler, rfl, -, -⟩
  · exact hbefore.1
  · cases ha

/-- A mutex is taken only for a connection that is alive, so one that is not counted stays
unlocked. -/
theorem TaskMove.unlocked (hi : LinkInv p) (h : TaskMove p t input o) {peer : PeerName}
    (hb : (p.pool peer).busy = false) : (o.pool.pool peer).locked = false := by
  have hl : (p.pool peer).locked = false := (Bool.or_eq_false_iff.mp hb).2
  have hmove := h.conn peer
  revert hmove
  generalize o.pool.pool peer = c'
  intro hmove
  cases hmove with
  | mark closer ht hs =>
    rw [(hi.sound peer).busy_of_ne_dead hs] at hb
    cases hb
  | reset => rfl
  | keep | count | assign => exact hl

/-- After the wait loop a connection that is dead, with its mutex free, stays so. Only an admitted
handler could assign it, and only a connection that is alive can be closed. -/
theorem TaskMove.busy (hi : LinkInv p) (h : TaskMove p t input o) (ha : t.admitted = false)
    {peer : PeerName} (hb : (p.pool peer).busy = false) : (o.pool.pool peer).busy = false := by
  have hdead := (hi.sound peer).dead_of_not_busy hb
  have hne : (o.pool.pool peer).status ≠ .alive := by
    intro hs
    rw [h.alive ha hs] at hdead
    cases hdead
  simp [Connection.busy, hne, h.unlocked hi hb]

/-- When the counter is 0, no handler is admitted, since every admitted handler is counted. -/
theorem not_admitted_of_handlers (hh : HandlersInv p) (hz : p.activeConnectionHandlers = 0) :
    ∀ t ∈ p.tasks, t.admitted = false := by
  intro t ht
  have hnone : p.tasks.countP Task.handles = 0 := by
    have : (p.tasks.countP Task.handles : Int) = 0 := hh.symm.trans hz
    omega
  cases ha : t.admitted with
  | false => rfl
  | true => exact absurd (Task.handles_of_admitted ha) (List.countP_eq_zero.mp hnone t ht)

/-- A pool that is closed, without a handler that found it open, stays so. A goroutine that looks at
the flag from now on finds it set, and is not admitted. -/
theorem Sealed.task (hs : Sealed p) (ht : p.tasks[ref]? = some t) (hm : TaskMove p t input o) :
    Sealed (p.apply ref o) := by
  obtain ⟨hclosed, hnone⟩ := hs
  refine ⟨hm.closed hclosed, ?_⟩
  intro t' ht'
  rcases mem_apply ht' with hnew | hold
  · by_contra ha
    rcases hm.admitted hnew (by simpa using ha) with hadm | hopen
    · rw [hnone t (List.mem_of_getElem? ht)] at hadm
      cases hadm
    · rw [hclosed] at hopen
      cases hopen
  · exact hnone t' hold

/-- A step of a goroutine keeps what a call of `Close` has achieved. The case that needs an argument
is the end of its wait: the count of handlers is zero then, and `closed` keeps new ones out. -/
theorem ShutInv.task (hh : HandlersInv p) (hl : LinkInv p) (hi : ShutInv p)
    (ht : p.tasks[ref]? = some t) (hm : TaskMove p t input o) : ShutInv (p.apply ref o) := by
  have hmem := List.mem_of_getElem? ht
  refine ⟨?_, ?_, ?_⟩
  · have hclosed : ∀ u ∈ p.tasks, u.stored = true → o.pool.closed = true := fun u hu hs =>
      hm.closed (hi.stored u hu hs)
    intro t' ht' hs
    rcases mem_apply ht' with hnew | hold
    · exact (hm.stored hnew hs).elim (hclosed t hmem) id
    · exact hclosed t' hold hs
  · -- The pool was sealed before, or it is when the counter is found at 0.
    intro t' ht' hp
    have hsealed : Sealed p := by
      rcases mem_apply ht' with hnew | hold
      · rcases hm.past hnew hp with hbefore | ⟨hstored, hz⟩
        · exact hi.past t hmem hbefore
        · exact ⟨hi.stored t hmem hstored, not_admitted_of_handlers hh hz⟩
      · exact hi.past t' hold hp
    exact hsealed.task ht hm
  · have hkeep : ∀ u ∈ p.tasks, ∀ peer ∈ u.cleared p.peers, (o.pool.pool peer).busy = false := by
      intro u hu peer hcleared
      have hsealed := hi.past u hu (Task.past_of_cleared hcleared)
      exact hm.busy hl (hsealed.2 t hmem) (hi.cleared u hu peer hcleared)
    intro t' ht' peer hc
    rcases mem_apply ht' with hnew | hold
    · exact (hm.cleared hl hmem hnew hc).elim (hkeep t hmem peer) id
    · have hc' : peer ∈ t'.cleared o.pool.peers := hc
      rw [hm.peers] at hc'
      exact hkeep t' hold peer hc'

/-- A new goroutine does not break the seal, as long as it is not admitted. -/
theorem Sealed.spawn (hs : Sealed p) {t : Task} (ha : t.admitted = false) :
    Sealed { p with tasks := p.tasks ++ [t] } :=
  ⟨hs.1, List.forall_mem_append.mpr ⟨hs.2, List.forall_mem_singleton.mpr ha⟩⟩

/-- A new goroutine that neither closes the pool nor handles a connection. The invariant is about
those two kinds only. -/
theorem ShutInv.spawn (hi : ShutInv p) {t : Task} (hs : t.stored = false)
    (ha : t.admitted = false) : ShutInv { p with tasks := p.tasks ++ [t] } := by
  -- What is past the wait of `Pool.Close` has stored the flag before.
  have hp : t.past = false := by
    by_contra hp
    rw [Task.stored_of_past (by simpa using hp)] at hs
    cases hs
  have hc : ∀ peer, peer ∉ t.cleared p.peers := by
    intro peer hc
    rw [Task.past_of_cleared hc] at hp
    cases hp
  refine ⟨List.forall_mem_append.mpr ⟨hi.stored, List.forall_mem_singleton.mpr (by simp [hs])⟩,
    List.forall_mem_append.mpr ⟨?_, List.forall_mem_singleton.mpr (by simp [hp])⟩,
    List.forall_mem_append.mpr ⟨hi.cleared, List.forall_mem_singleton.mpr ?_⟩⟩
  · intro u hu hpast
    exact (hi.past u hu hpast).spawn ha
  · intro peer hcleared
    exact absurd hcleared (hc peer)

/-- Every step keeps what a call of `Close` has achieved. In particular the connections that it has
closed stay closed. -/
theorem ShutInv.step {p' : Pool} {e : Event} (hh : HandlersInv p) (hl : LinkInv p)
    (h : p.step e = some p') (hi : ShutInv p) : ShutInv p' := by
  cases step_move h with
  | operate peer hp => exact hi.spawn rfl rfl
  | close => exact hi.spawn rfl rfl
  | drop conn => exact ⟨hi.stored, hi.past, hi.cleared⟩
  | task ref input t o ht hm => exact hi.task hh hl ht hm

end Shut

/-! ## Every run -/
/-! ## Every run -/

/-- What holds of a pool in every run. -/
structure PoolInv (p : Pool) : Prop where
  handlers : HandlersInv p
  links : LinkInv p
  shut : ShutInv p

/-- The three invariants together. The last one needs the other two before the step: the counter of
the handlers to know that none is admitted, and the connections to know who holds a mutex. -/
theorem PoolInv.step {p p' : Pool} {e : Event} (h : p.step e = some p') (hi : PoolInv p) :
    PoolInv p' :=
  ⟨hi.handlers.step h, hi.links.step h, hi.shut.step hi.handlers hi.links h⟩

/-- In a new pool all connections are dead, no call of `Close` is in progress, and the counters are
0. The goroutines that `Run` has started are at the head of their loops. They are neither handlers
yet nor do they hold a mutex. -/
theorem PoolInv.init (host : PeerName) (peers : List PeerName) :
    PoolInv (newPool host peers).run := by
  -- The goroutines of `Run` are at the head of their loops, and count for nothing.
  have hnone : ∀ f : Task → Bool, f (.accept .accept) = false →
      (∀ peer, f (.dial peer .head) = false) → (newPool host peers).run.tasks.countP f = 0 := by
    intro f haccept hdial
    refine List.countP_eq_zero.mpr ?_
    intro t ht
    rcases mem_tasks_run ht with rfl | ⟨peer, rfl⟩
    · simp [haccept]
    · simp [hdial]
  refine ⟨?_, ⟨?_, ?_, ?_, ?_, ?_⟩, ?_, ?_, ?_⟩
  · unfold HandlersInv
    rw [hnone Task.handles rfl fun _ => rfl]
    rfl
  · exact List.nodup_dedup peers
  · intro t ht peer hp
    rcases mem_tasks_run ht with rfl | ⟨q, rfl⟩ <;> cases hp
  · intro peer
    exact ⟨by simp [newPool, Pool.run, newConnection], by simp [newPool, Pool.run, newConnection],
      by simp [newPool, Pool.run, newConnection, Connection.busy]⟩
  · intro peer
    rw [hnone (Task.finishing peer) rfl fun _ => rfl]
    rfl
  · have hidle : ∀ peer, ((newPool host peers).run.pool peer).busy = false := fun _ => rfl
    simp only [hidle]
    simp [newPool, Pool.run]
  · intro t ht hs
    rcases mem_tasks_run ht with rfl | ⟨q, rfl⟩ <;> cases hs
  · intro t ht hp
    rcases mem_tasks_run ht with rfl | ⟨q, rfl⟩ <;> cases hp
  · intro t ht peer hc
    rcases mem_tasks_run ht with rfl | ⟨q, rfl⟩ <;> cases hc

/-- The configuration does not change, whatever the step. -/
theorem peers_step {p p' : Pool} {e : Event} (h : p.step e = some p') : p'.peers = p.peers := by
  cases step_move h with
  | operate | close | drop => rfl
  | task ref input t o ht hm => exact hm.peers

/-- A sealed pool stays sealed: without a handler nobody can assign a connection. This holds in all
runs that follow, and so the state that `Close` leaves behind is final. -/
theorem Sealed.step {p p' : Pool} {e : Event} (h : p.step e = some p') (hs : Sealed p) :
    Sealed p' := by
  cases step_move h with
  | operate peer hp => exact hs.spawn rfl
  | close => exact hs.spawn rfl
  | drop conn => exact hs
  | task ref input t o ht hm => exact hs.task ht hm

/-- In a sealed pool no connection becomes alive. All that can still happen is that connections are
closed. -/
theorem Sealed.alive {p p' : Pool} {e : Event} (h : p.step e = some p') (hs : Sealed p)
    {peer : PeerName} (ha : (p'.pool peer).status = .alive) : (p.pool peer).status = .alive := by
  cases step_move h with
  | operate | close | drop => exact ha
  | task ref input t o ht hm => exact hm.alive (hs.2 t (List.mem_of_getElem? ht)) ha

/-- In every run of a pool that was started once, `activeConnectionHandlers` is the number of the
handlers. After `Pool.Close` has left its wait loop no connection becomes alive. After it has
returned all of them are dead and `activeConnections` is 0. -/
theorem shutdown_final (host : PeerName) (peers : List PeerName) {s : Pool}
    (hs : Reaches Pool.step (newPool host peers).run s) :
    (s.activeConnectionHandlers = s.tasks.countP Task.handles ∧
      0 ≤ s.activeConnectionHandlers) ∧
    ((∃ t ∈ s.tasks, t.past = true) → ∀ s', Reaches Pool.step s s' →
      ∀ peer, (s'.pool peer).status = .alive → (s.pool peer).status = .alive) ∧
    ((∃ errs, Task.shut (.returned errs) ∈ s.tasks) →
      (∀ peer ∈ peers, (s.pool peer).status = .dead) ∧ s.activeConnections = 0) := by
  have hinv : PoolInv s := hs.invariant (fun _ _ _ => PoolInv.step) (PoolInv.init host peers)
  have hpeers : s.peers = peers.dedup :=
    hs.invariant (I := fun p => p.peers = peers.dedup)
      (fun _ _ _ h heq => (peers_step h).trans heq) rfl
  have hcount : s.activeConnectionHandlers = s.tasks.countP Task.handles := hinv.handlers
  refine ⟨⟨hcount, by omega⟩, ?_, ?_⟩
  · rintro ⟨t, ht, hp⟩ s' ⟨es, hes⟩ peer
    -- From here on no handler passes the check of `closed`.
    have hsealed : Sealed s := hinv.shut.past t ht hp
    exact run_relation (I := Sealed)
      (R := fun p p' => (p'.pool peer).status = .alive → (p.pool peer).status = .alive)
      (fun _ h => h) (fun _ _ _ h h' => h ∘ h') (fun _ _ _ => Sealed.step)
      (fun _ _ _ h hi => Sealed.alive h hi) hes hsealed
  · rintro ⟨errs, hreturned⟩
    have hidle : ∀ peer ∈ s.peers, (s.pool peer).busy = false := fun peer hp =>
      hinv.shut.cleared _ hreturned peer hp
    constructor
    · intro peer hp
      have hmem : peer ∈ s.peers := by simpa [hpeers] using hp
      exact (hinv.links.sound peer).dead_of_not_busy (hidle peer hmem)
    · -- `activeConnections` counts the connections that are busy, and there is none.
      have hsum : (s.peers.map fun peer => (s.pool peer).busy.toNat).sum = 0 := by
        refine List.sum_eq_zero ?_
        intro n hn
        obtain ⟨peer, hp, rfl⟩ := List.mem_map.mp hn
        rw [hidle peer hp]
        rfl
      have hactive := hinv.links.active
      omega

/-- A pool that dials its peer, and is closed when the connection is alive. -/
def shutdownRun : List Event :=
  [.task 1 .run, .task 1 .run, .task 1 .run, .task 1 (.handshake (.ok (7, ["b"]))),
    .task 1 .run, .task 1 .run, .task 1 (.sent none),
    .task 1 (.received (.ok (Resolvent.encode ⟨.server, 1⟩))), .task 1 .run, .task 1 .run,
    .task 1 .run, .close, .task 3 .run, .task 3 .run, .task 3 (.closed none),
    .task 3 (.visit "b"), .task 3 .run, .task 3 (.closed none), .task 3 .run]

/-- A pool that has dialed its peer and is closed. The pointer to the QUIC connection stays, and the
status is dead. -/
theorem shutdown_of_dialed : ∃ s, Reaches Pool.step (newPool "a" ["b"]).run s ∧
    Task.shut (.returned []) ∈ s.tasks ∧ (s.pool "b").conn = some 7 ∧
    (s.pool "b").status = .dead ∧ s.activeConnections = 0 := by
  have hrun : ∃ s, Reaches Pool.step (newPool "a" ["b"]).run s ∧
      decide (Task.shut (.returned []) ∈ s.tasks ∧ (s.pool "b").conn = some 7) = true :=
    Reaches.of_any _ shutdownRun _ (by decide)
  obtain ⟨s, hs, hp⟩ := hrun
  obtain ⟨hreturned, hconn⟩ := of_decide_eq_true hp
  obtain ⟨hdead, hactive⟩ := (shutdown_final "a" ["b"] hs).2.2 ⟨[], hreturned⟩
  exact ⟨s, hs, hreturned, hconn, hdead "b" (by simp), hactive⟩

end ReplicatedFs.Connection
