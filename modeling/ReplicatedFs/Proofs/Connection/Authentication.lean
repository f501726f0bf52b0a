import ReplicatedFs.Proofs.Connection.Shutdown
import ReplicatedFs.Proofs.Connection.Teardown

/-!
# `ReplicatedFs.Proofs.Connection.Authentication`: who is at the other end

`VerifyConnection` looks at the certificate of a handshake, and `add` takes the name of the peer
from it. In between the QUIC connection goes through a channel of goroutines: `dialOnce` or
`acceptConnections` and its handler, `Establish`, and then `Send` and `Recv`. `AuthInv` follows it
there.

* `connection_authenticated`: the QUIC connection that is used for a peer was handshaked with one
  certificate, and this one names the peer.
-/

set_option autoImplicit false

namespace ReplicatedFs.Connection

open Protobuf
open Library

/-- The handshake of a QUIC connection with a single certificate, which names the peer. -/
def Event.Certifies (e : Event) (conn : ConnId) (peer : PeerName) : Prop :=
  ∃ ref, e = .task ref (.handshake (.ok (conn, [peer])))

/-- The QUIC connection that a goroutine handles for a peer. -/
def Task.carries : Task → Option (ConnId × PeerName)
  | .accept (.add (.ok carried)) | .accept (.check (.ok carried)) => some carried
  | .establish h _ => some (h.conn, h.peer)
  | .operate peer (.running conn) => some (conn, peer)
  | _ => none

/-- All QUIC connections in use belong to the peer that they are used for, as `V` says. -/
structure AuthInv (V : ConnId → PeerName → Prop) (p : Pool) : Prop where
  tasks : ∀ t ∈ p.tasks, ∀ conn peer, t.carries = some (conn, peer) → V conn peer
  conns : ∀ conn peer, (p.pool peer).conn = some conn → V conn peer

section Step
variable {V : ConnId → PeerName → Prop} {p p' : Pool} {t t' : Task} {input : Input} {o : Outcome}
  {conn : ConnId} {peer : PeerName}

/-- What `VerifyConnection` accepts: a single certificate, with the name that it returns. -/
theorem verifyConnection_eq_ok {certificates : List PeerName}
    (h : p.verifyConnection certificates = .ok peer) : certificates = [peer] := by
  unfold Pool.verifyConnection at h
  split at h
  · split at h <;> cases h
    rfl
  · cases h

/-- A step of a goroutine of the pool, with the goroutine and its outcome. The other steps are those
of new goroutines. -/
theorem step_task {ref : Nat} (h : p.step (.task ref input) = some p') :
    ∃ t o, p.tasks[ref]? = some t ∧ p.taskStep t input = some o ∧ p' = p.apply ref o := by
  unfold Pool.step at h
  split at h
  · cases h
  · dsimp only at h
    split at h
    · cases h
    · rename_i t ht
      obtain ⟨o, ho, rfl⟩ := Option.map_eq_some_iff.mp h
      exact ⟨t, o, ht, ho, rfl⟩

/-- A goroutine gets a QUIC connection from another one, from the pool or from a handshake. In the
last case the step is the one that saw the certificate. This is the only place where the code of all
the goroutines has to be gone through, and the invariant follows from it. -/
theorem carries_of_taskStep (ref : Nat) (h : p.taskStep t input = some o) (hy : o.Yields t')
    (hc : t'.carries = some (conn, peer)) :
    t.carries = some (conn, peer) ∨ (p.pool peer).conn = some conn ∨
      peer ∈ p.peers ∧ (Event.task ref input).Certifies conn peer := by
  have hm := taskStep_move h
  rcases hy with rfl | hspawned
  · cases hm with
    -- The handshakes of the two ends. Each is followed by `VerifyConnection`, and its answer names
    -- the peer.
    | dialed dialPeer name q input hn =>
      cases hc
      cases input with
      | handshake result =>
        cases result with
        | error text => simp [Pool.taskStep, Pool.dialStep] at h
        | ok accepted =>
          simp only [Pool.taskStep, Pool.dialStep] at h
          split at h <;> cases h
          rename_i hok
          exact .inr (.inr ⟨verifyConnection_ok hok, ref, by rw [← verifyConnection_eq_ok hok]⟩)
      | _ => simp [Pool.taskStep, Pool.dialStep] at h
    | accepted result input hn =>
      cases input with
      | handshake result' =>
        cases result' with
        | error text =>
          simp only [Pool.taskStep, Pool.acceptStep, Option.some.injEq, Outcome.mk.injEq,
            Task.accept.injEq, AcceptPc.add.injEq] at h
          rw [← h.2.1] at hc
          cases hc
        | ok accepted =>
          simp only [Pool.taskStep, Pool.acceptStep] at h
          split at h <;> cases h
          rename_i hok
          cases hc
          exact .inr (.inr ⟨verifyConnection_ok hok, ref, by rw [← verifyConnection_eq_ok hok]⟩)
      | _ => simp [Pool.taskStep, Pool.acceptStep] at h
    | acceptAdd result => cases result <;> exact .inl hc
    -- `Send` and `Recv` take the connection that the pool has.
    | load opPeer q hq =>
      cases hc
      exact .inr (.inl hq)
    | _ => first | exact .inl hc | cases hc
  · cases hm with
    | acceptSpawn q name hclosed =>
      cases hspawned
      exact .inl hc
    | assign handler hl hs =>
      cases hspawned
      cases hc
    | _ => cases hspawned

/-- The QUIC connection of a peer was there before, or the step is one of its `Establish`. -/
theorem TaskMove.conn_before (hm : TaskMove p t input o)
    (hc : (o.pool.pool peer).conn = some conn) :
    (p.pool peer).conn = some conn ∨ t.carries = some (conn, peer) := by
  have hmove := hm.conn peer
  revert hc hmove
  generalize o.pool.pool peer = c'
  intro hc hmove
  cases hmove with
  | assign handler ht hp hs hl =>
    obtain rfl : handler.conn = conn := Option.some.inj hc
    exact .inr (by rw [ht, ← hp]; rfl)
  | keep | count | mark | reset => exact .inl hc

/-- A step keeps the invariant, when what it certifies counts. The relation `V` may be chosen freely
beyond that. In the theorem it is "certified by an event of this run", which only grows with the
run, so the hypothesis `hV` holds for every step of it. -/
theorem AuthInv.step {e : Event} (hi : AuthInv V p)
    (hV : ∀ conn, ∀ peer ∈ p.peers, e.Certifies conn peer → V conn peer)
    (h : p.step e = some p') : AuthInv V p' := by
  -- A goroutine that starts carries nothing.
  have hspawn : ∀ {t : Task}, t.carries = none →
      AuthInv V { p with tasks := p.tasks ++ [t] } := by
    intro t ht
    refine ⟨List.forall_mem_append.mpr ⟨hi.tasks, List.forall_mem_singleton.mpr ?_⟩, hi.conns⟩
    intro conn peer hc
    rw [ht] at hc
    cases hc
  cases step_move h with
  | operate peer hp => exact hspawn rfl
  | close => exact hspawn rfl
  | drop conn => exact ⟨hi.tasks, hi.conns⟩
  | task ref input t o ht hm =>
    have hmem := List.mem_of_getElem? ht
    obtain ⟨u, o', hu, ho', happly⟩ := step_task h
    obtain rfl : t = u := Option.some.inj (ht.symm.trans hu)
    rw [happly]
    refine ⟨fun t' ht' conn peer hc => ?_, fun conn peer hc => ?_⟩
    · rcases mem_apply ht' with hnew | hold
      · rcases carries_of_taskStep ref ho' hnew hc with hcarried | hconn | ⟨hpeer, hcert⟩
        · exact hi.tasks t hmem conn peer hcarried
        · exact hi.conns conn peer hconn
        · exact hV conn peer hpeer hcert
      · exact hi.tasks t' hold conn peer hc
    · rcases (taskStep_move ho').conn_before hc with hconn | hcarried
      · exact hi.conns conn peer hconn
      · exact hi.tasks t hmem conn peer hcarried

/-- A new pool uses no QUIC connection, so there is nothing to be certified. -/
theorem AuthInv.init (V : ConnId → PeerName → Prop) (host : PeerName) (peers : List PeerName) :
    AuthInv V (newPool host peers).run := by
  refine ⟨fun t ht conn peer hc => ?_, fun conn peer hc => by cases hc⟩
  rcases mem_tasks_run ht with rfl | ⟨q, rfl⟩ <;> cases hc

/-- The invariant with a weaker relation between connections and peers. -/
theorem AuthInv.mono {W : ConnId → PeerName → Prop} (hi : AuthInv V p)
    (h : ∀ conn peer, V conn peer → W conn peer) : AuthInv W p :=
  ⟨fun t ht conn peer hc => h conn peer (hi.tasks t ht conn peer hc),
    fun conn peer hc => h conn peer (hi.conns conn peer hc)⟩

end Step

/-- Take any run of a pool. The QUIC connection of a `Connection`, and the one on which a `Send` or
a `Recv` for a peer runs, was handshaked in the run with a single certificate, which names the peer
of that `Connection`. The peer is one of the configuration. -/
theorem connection_authenticated (host : PeerName) (peers : List PeerName) {es : List Event}
    {s : Pool} (hrun : run Pool.step (newPool host peers).run es = some s) {conn : ConnId}
    {peer : PeerName}
    (hused : (s.pool peer).conn = some conn ∨ Task.operate peer (.running conn) ∈ s.tasks) :
    peer ∈ peers ∧ ∃ ref, Event.task ref (.handshake (.ok (conn, [peer]))) ∈ es := by
  -- The relation is what the labels so far have certified, so the invariant speaks of the history.
  have hinv := run_history (I := fun es p => p.peers = peers.dedup ∧ AuthInv (fun conn peer =>
    peer ∈ peers ∧ ∃ e ∈ es, Event.Certifies e conn peer) p) (fun es p e p' h hi => ?_) hrun
    ⟨rfl, .init _ host peers⟩
  · obtain ⟨hpeer, e, he, ref, rfl⟩ : peer ∈ peers ∧ ∃ e ∈ es, Event.Certifies e conn peer :=
      hused.elim (hinv.2.conns conn peer) fun hmem => hinv.2.tasks _ hmem conn peer rfl
    exact ⟨hpeer, ref, he⟩
  · refine ⟨(peers_step h).trans hi.1, (hi.2.mono ?_).step ?_ h⟩
    · rintro conn peer ⟨hpeer, e', he', hcert⟩
      exact ⟨hpeer, e', List.mem_append_left _ he', hcert⟩
    · intro conn peer hpeer hcert
      rw [hi.1, List.mem_dedup] at hpeer
      exact ⟨hpeer, e, List.mem_append_right _ (List.mem_singleton_self e), hcert⟩

/-- The connection to `b` is alive after a dial, on a QUIC connection with the certificate of `b`.
The event with the certificate is the one of the handshake in this run. -/
theorem connection_authenticated_dialed :
    ∃ s, run Pool.step (newPool "a" ["b"]).run (dialRun 7) = some s ∧ (s.pool "b").aliveOn 7 ∧
      ∃ ref, Event.task ref (.handshake (.ok (7, ["b"]))) ∈ dialRun 7 := by
  have hrun : (run Pool.step (newPool "a" ["b"]).run (dialRun 7)).any
      (fun s => decide ((s.pool "b").aliveOn 7)) = true := by decide
  rw [Option.any_eq_true] at hrun
  obtain ⟨s, hs, halive⟩ := hrun
  have halive := of_decide_eq_true halive
  exact ⟨s, hs, halive, (connection_authenticated "a" ["b"] hs (.inl halive.2)).2⟩

end ReplicatedFs.Connection
