import ReplicatedFs.Proofs.Connection.Shutdown
import ReplicatedFs.Proofs.Connection.Teardown

/-!
# `ReplicatedFs.Proofs.Connection.Count`: the number of the active connections

`activeConnections` is one counter for all connections. `Establish` adds one to it and `Close` takes
one away, each under the mutex of its own connection, and after a look at the status.

The goroutines of a pool are not the only callers here. `CallEvent` also has any further call of
`Establish` and of `Connection.Close`, for any peer and at any time, so a call may be repeated or
come late. `Shutdown` says that the counter is the number of the connections that are alive or in
`Close` (`LinkInv`). What is added here is the perspective (`ViewInv`).

* `activeConnections_exact`: whenever no mutex is held, the counter is the number of the connections
  that are alive, and these are the ones with a perspective.
-/

set_option autoImplicit false

namespace ReplicatedFs.Connection

open Protobuf
open Library

/-- The perspective of one end of a QUIC connection. -/
def Perspective.Assumed (perspective : Perspective) : Prop :=
  perspective = .server ∨ perspective = .client

instance (perspective : Perspective) : Decidable perspective.Assumed :=
  inferInstanceAs (Decidable (_ ∨ _))

/-- A step of a pool, or a call that comes from elsewhere. -/
inductive CallEvent
  | pool (e : Event)
  | establish (h : Handler)
  | close (closer : Closer) (peer : PeerName)
  deriving DecidableEq, Repr

/-- One step of a pool with further calls of `Establish` and `Connection.Close`. -/
def Pool.callStep (p : Pool) : CallEvent → Option Pool
  | .pool e => p.step e
  | .establish h =>
    if h.peer ∈ p.peers ∧ h.perspective.Assumed then
      some { p with tasks := p.tasks ++ [.establish h .check] }
    else none
  | .close closer peer =>
    if peer ∈ p.peers then some { p with tasks := p.tasks ++ [.close closer peer .lock] } else none

/-- The perspective of the calls of `Establish` that a goroutine makes. -/
def Task.view? : Task → Option Perspective
  | .establish h _ => some h.perspective
  | _ => none

/-- A connection has a perspective as long as it is alive. -/
structure ViewInv (p : Pool) : Prop where
  calls : ∀ t ∈ p.tasks, ∀ perspective, t.view? = some perspective → perspective.Assumed
  alive : ∀ peer, (p.pool peer).status = .alive → (p.pool peer).perspective.Assumed
  idle : ∀ peer, (p.pool peer).busy = false → (p.pool peer).perspective = .unknown

section Step
variable {p : Pool} {ref : Nat} {t t' : Task} {input : Input} {o : Outcome}

/-- A call of `Establish` keeps its perspective, and the pool makes it for one of the two ends. The
end that dials is the client, and the end that accepts is the server. No call is made with the
perspective `Unknown`. -/
theorem TaskMove.view (h : TaskMove p t input o) (ht' : o.Yields t') {perspective : Perspective}
    (hv : t'.view? = some perspective) : t.view? = some perspective ∨ perspective.Assumed := by
  rcases ht' with rfl | hnew
  · cases h with
    -- The two places where the pool makes the handler: the end that dials is the client, and the
    -- one that accepts the server.
    | dialed peer name conn input hn =>
      cases hv
      exact .inr (.inr rfl)
    | _ => first | exact .inl hv | cases hv
  · cases h with
    | acceptSpawn conn name hc =>
      cases hnew
      cases hv
      exact .inr (.inl rfl)
    | assign h hl hs =>
      cases hnew
      cases hv
    | _ => cases hnew

/-- What a step of a goroutine that changes one connection has to show. All other connections are as
before. -/
theorem ViewInv.update (hi : ViewInv p) (hm : TaskMove p t input o) (ht : p.tasks[ref]? = some t)
    {peer : PeerName} {c : Connection} (hpool : o.pool.pool = Function.update p.pool peer c)
    (halive : c.status = .alive → c.perspective.Assumed)
    (hidle : c.busy = false → c.perspective = .unknown) : ViewInv (p.apply ref o) := by
  refine ⟨?_, ?_, ?_⟩
  · intro t' ht' perspective hv
    -- A goroutine after the step is the one that moved, one that it started, or an old one.
    rcases mem_apply ht' with hnew | hold
    · exact (hm.view hnew hv).elim (hi.calls t (List.mem_of_getElem? ht) perspective) id
    · exact hi.calls t' hold perspective hv
  · intro q
    show (o.pool.pool q).status = .alive → (o.pool.pool q).perspective.Assumed
    rw [hpool]
    by_cases hq : q = peer
    · rw [hq, Function.update_self]
      exact halive
    · rw [Function.update_of_ne hq]
      exact hi.alive q
  · intro q
    show (o.pool.pool q).busy = false → (o.pool.pool q).perspective = .unknown
    rw [hpool]
    by_cases hq : q = peer
    · rw [hq, Function.update_self]
      exact hidle
    · rw [Function.update_of_ne hq]
      exact hi.idle q

/-- A step of a goroutine keeps the invariant. Of the steps that touch a connection, `Establish`
sets the perspective that its caller gave and `Close` resets it. `LinkInv` is needed for the status,
which was set to dead when `Close` took the mutex. -/
theorem ViewInv.task (hl : LinkInv p) (hi : ViewInv p) (ht : p.tasks[ref]? = some t)
    (hm : TaskMove p t input o) : ViewInv (p.apply ref o) := by
  have hmem := List.mem_of_getElem? ht
  -- A step that leaves all connections writes one of them back.
  have hkeep : o.pool.pool = p.pool → ViewInv (p.apply ref o) := by
    intro hpool
    have hself : o.pool.pool = Function.update p.pool p.host (p.pool p.host) := by
      rw [hpool, Function.update_eq_self]
    exact hi.update hm ht hself (hi.alive _) (hi.idle _)
  cases hm.link with
  | keep hpool => exact hkeep hpool
  | nil closer peer heq hconn hpool => exact hkeep hpool
  | count h ctr heq hpool => exact hi.update hm ht hpool (hi.alive h.peer) (hi.idle h.peer)
  | assign h heq hfree hs hpool =>
    subst heq
    refine hi.update hm ht hpool (fun _ => hi.calls _ hmem _ rfl) ?_
    intro hbusy
    simp [busy, Connection.assign] at hbusy
  | mark closer peer heq ho hfree hs hpool =>
    refine hi.update hm ht hpool ?_ ?_
    · intro halive
      cases halive
    · intro hbusy
      simp [busy, Connection.markDead] at hbusy
  | finish closer peer heq hpool =>
    subst heq
    -- The status was set when the mutex was taken.
    have hlocked := hl.locked peer hmem (by simp [Task.finishing])
    have hdead := (hl.sound peer).dead hlocked
    refine hi.update hm ht hpool ?_ fun _ => rfl
    intro halive
    rw [show (p.pool peer).reset.status = (p.pool peer).status from rfl, hdead] at halive
    cases halive

/-- A call that starts has no effect yet. It only has to bring a perspective of one of the two ends,
if any. -/
theorem ViewInv.spawn (hi : ViewInv p) {t : Task}
    (hv : ∀ perspective, t.view? = some perspective → perspective.Assumed) :
    ViewInv { p with tasks := p.tasks ++ [t] } :=
  ⟨List.forall_mem_append.mpr ⟨hi.calls, List.forall_mem_singleton.mpr hv⟩, hi.alive, hi.idle⟩

/-- Every step of the pool keeps the invariant. The steps other than those of a goroutine touch no
connection. -/
theorem ViewInv.step {p' : Pool} {e : Event} (hl : LinkInv p) (hi : ViewInv p)
    (h : p.step e = some p') : ViewInv p' := by
  cases step_move h with
  | operate peer hp =>
    refine hi.spawn ?_
    intro perspective hv
    cases hv
  | close =>
    refine hi.spawn ?_
    intro perspective hv
    cases hv
  | drop conn => exact ⟨hi.calls, hi.alive, hi.idle⟩
  | task ref input t o ht hm => exact hi.task hl ht hm

/-- One step, of the pool or of a call from elsewhere, keeps the count and the perspectives. The
call is a new goroutine at its first point. -/
theorem callStep_invariant {p' : Pool} {e : CallEvent} (h : p.callStep e = some p')
    (hi : LinkInv p ∧ ViewInv p) : LinkInv p' ∧ ViewInv p' := by
  obtain ⟨hl, hv⟩ := hi
  cases e with
  | pool e => exact ⟨hl.step h, hv.step hl h⟩
  | establish handler =>
    simp only [Pool.callStep] at h
    split at h <;> cases h
    -- `Establish` is called with a peer of the pool and with a perspective.
    rename_i hcall
    refine ⟨hl.spawn (fun _ => rfl) ?_, hv.spawn ?_⟩
    · intro peer hp
      exact Option.some.inj hp ▸ hcall.1
    · intro perspective hp
      exact Option.some.inj hp ▸ hcall.2
  | close closer peer =>
    simp only [Pool.callStep] at h
    split at h <;> cases h
    rename_i hcall
    refine ⟨hl.spawn (fun _ => rfl) ?_, hv.spawn ?_⟩
    · intro q hq
      exact Option.some.inj hq ▸ hcall
    · intro perspective hp
      cases hp

/-- A new pool has only connections without a perspective, and no calls of `Establish`. -/
theorem ViewInv.init (host : PeerName) (peers : List PeerName) :
    ViewInv (newPool host peers).run := by
  refine ⟨?_, ?_, fun _ _ => rfl⟩
  · intro t ht perspective hv
    rcases mem_tasks_run ht with rfl | ⟨q, rfl⟩ <;> cases hv
  · intro peer halive
    cases halive

end Step

/-- With no mutex held, the connections that count are the ones that are alive. While `Close` holds
the mutex, the connection is dead and still counted, so without the hypothesis the counter could be
greater. -/
theorem LinkInv.active_eq_countP {p : Pool} (hl : LinkInv p)
    (hfree : ∀ peer ∈ p.peers, (p.pool peer).locked = false) :
    p.activeConnections = p.peers.countP fun peer => (p.pool peer).status = .alive := by
  have hbusy : ∀ peer ∈ p.peers, (p.pool peer).busy = decide ((p.pool peer).status = .alive) := by
    intro peer hp
    rw [busy, hfree peer hp, Bool.or_false]
  rw [hl.active, sum_map_toNat, List.countP_congr fun peer hp => by rw [hbusy peer hp]]

/-- After any steps of a pool and any further calls of `Establish` and `Connection.Close`: whenever
no mutex is held, `activeConnections` is the number of the connections that are alive, and a
connection is alive exactly when it has a perspective. -/
theorem activeConnections_exact (host : PeerName) (peers : List PeerName) {s : Pool}
    (h : Reaches Pool.callStep (newPool host peers).run s)
    (hfree : ∀ peer ∈ s.peers, (s.pool peer).locked = false) :
    s.activeConnections = s.peers.countP (fun peer => (s.pool peer).status = .alive) ∧
      0 ≤ s.activeConnections ∧ s.activeConnections ≤ s.peers.length ∧
      ∀ peer ∈ s.peers, (s.pool peer).status = .alive ↔
        (s.pool peer).perspective = .server ∨ (s.pool peer).perspective = .client := by
  obtain ⟨hl, hv⟩ : LinkInv s ∧ ViewInv s :=
    h.invariant (fun _ _ _ => callStep_invariant)
      ⟨(PoolInv.init host peers).links, ViewInv.init host peers⟩
  -- With no mutex held no connection is between two updates, so the count is exact.
  have hcount := hl.active_eq_countP hfree
  have hle := List.countP_le_length (p := fun peer => decide ((s.pool peer).status = .alive))
    (l := s.peers)
  refine ⟨hcount, by omega, by omega, ?_⟩
  intro peer hp
  constructor
  · exact hv.alive peer
  · intro hview
    by_contra hdead
    -- Not alive and not locked: then the perspective has been reset.
    have hidle : (s.pool peer).busy = false := by simp [busy, hdead, hfree peer hp]
    rw [hv.idle peer hidle] at hview
    rcases hview with hs | hc
    · cases hs
    · cases hc

/-- The peer is dialed, and the connection is closed when a `Recv` fails. `Close` is called once
more, the peer is dialed again, and another `Establish` comes too late. -/
def repeatedCalls : List CallEvent :=
  (dialRun 1 ++ recvFails).map .pool ++ [.close (.watch 1) "b", .pool (.task 4 .run)] ++
    (dialRun 2).map .pool ++ [.establish ⟨.handler, "b", .server, 3⟩, .pool (.task 6 .run)]

/-- One connection is alive at the end, and the counter is one, although the connection was
established twice. -/
theorem activeConnections_repeated : ∃ s,
    Reaches Pool.callStep (newPool "a" ["b"]).run s ∧ (s.pool "b").aliveOn 2 ∧
    s.activeConnections = s.peers.countP (fun peer => (s.pool peer).status = .alive) ∧
    ((s.pool "b").perspective = .server ∨ (s.pool "b").perspective = .client) := by
  have hrun : ∃ s, Reaches Pool.callStep (newPool "a" ["b"]).run s ∧
      decide ("b" ∈ s.peers ∧ (s.pool "b").aliveOn 2 ∧
        ∀ peer ∈ s.peers, (s.pool peer).locked = false) = true :=
    Reaches.of_any _ repeatedCalls _ (by decide)
  obtain ⟨s, hs, hp⟩ := hrun
  obtain ⟨hb, halive, hfree⟩ := of_decide_eq_true hp
  obtain ⟨hcount, -, -, hview⟩ := activeConnections_exact "a" ["b"] hs hfree
  exact ⟨s, hs, halive, hcount, (hview "b" hb).mp halive.1⟩

end ReplicatedFs.Connection
