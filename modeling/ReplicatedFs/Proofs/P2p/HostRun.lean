import Mathlib.Data.List.Perm.Subperm
import ReplicatedFs.P2p.Cluster
import ReplicatedFs.Proofs.P2p.HostInvariant

/-!
# `ReplicatedFs.Proofs.P2p.HostRun`: one host and any messages

`Host.next` is the step of one host without the network around it. Its runs take any messages
in any order: repeated ones, messages of strangers, and requests with the id of a local call.

* `HostInv.run`: the invariant of a host holds after every run.
* `inbox_sublist`: what a transaction holds came in, in this order.
* `committed_vote`: when `Replicate` returns nil and every peer voted at most once, every peer
  voted `ACK`. `Replicate` counts messages only, so one peer that votes twice stands in for
  another one (`committed_without_peer`).
-/

set_option autoImplicit false

namespace ReplicatedFs.P2p

open ReplicatedFs.Protobuf
open Library

/-- A host before any call. -/
def Host.start (name : PeerName) (peers : List PeerName) (clock : UInt64) : Host :=
  { name, peers, clock }

/-- The messages that `listen` receives in the events, in order. -/
def received (es : List Event) : List Message :=
  es.filterMap fun
    | .receive msg => some msg
    | _ => none

section Step
variable {h h' : Host} {e : Event} {es : List Event}

/-- A step of the host without the network is one of its moves. What it sends goes nowhere here. -/
theorem Host.next_move (hs : h.next e = some h') : ∃ sent, HostMove h e h' sent := by
  obtain ⟨⟨h₁, sent⟩, hstep, rfl⟩ := Option.map_eq_some_iff.mp hs
  exact ⟨sent, (Host.step_move hstep).2⟩

/-- The invariant of a host holds after every run, also when the messages come from anyone. -/
theorem HostInv.run (hi : HostInv h) (hrun : run Host.next h es = some h') : HostInv h' := by
  refine run_invariant (I := HostInv) ?_ hrun hi
  intro h e h' hs hi
  obtain ⟨sent, hm⟩ := Host.next_move hs
  exact hi.step hm

/-- The name and the peers of a host do not change. They are set when the host is made. -/
theorem run_config (hrun : run Host.next h es = some h') :
    h'.name = h.name ∧ h'.peers = h.peers := by
  refine run_invariant (I := fun u => u.name = h.name ∧ u.peers = h.peers) ?_ hrun ⟨rfl, rfl⟩
  intro u e u' hs hu
  obtain ⟨sent, hm⟩ := Host.next_move hs
  obtain ⟨hname, hpeers⟩ := hm.config
  exact ⟨hname.trans hu.1, hpeers.trans hu.2⟩

/-- What a step adds to a transaction is what it receives, so an inbox is part of what has come in,
in this order. -/
theorem HostMove.inbox_sublist {sent : Option Sent} (hm : HostMove h e h' sent)
    {ms : List Message} (hms : ∀ t ∈ h.tasks, t.inbox.Sublist ms) :
    ∀ t ∈ h'.tasks, t.inbox.Sublist (ms ++ received [e]) := by
  intro t' ht'
  obtain ⟨i, hi⟩ := List.mem_iff_getElem?.mp ht'
  have hchange := hm.change hi
  -- A task that was there before has its messages among the earlier ones.
  have hold : ∀ t, h.tasks[i]? = some t → t.inbox.Sublist (ms ++ received [e]) := by
    intro t ht
    exact (hms t (List.mem_of_getElem? ht)).trans (List.sublist_append_left _ _)
  generalize hprev : h.tasks[i]? = old at hchange
  cases hchange with
  | same e sent t => exact hold t' hprev
  | call tid request hfresh => exact List.nil_sublist _
  | join msg t hlookup =>
    exact List.Sublist.append (hms t (List.mem_of_getElem? hprev)) (List.Sublist.refl [msg])
  | spawn msg hlookup => exact List.sublist_append_right ms [msg]
  | notify msg t hl hr =>
    have hinbox : (t.notified msg).inbox = t.inbox := by
      unfold Task.notified
      split <;> rfl
    rw [hinbox]
    exact hold t hprev
  | move input t m hmove =>
    rw [hmove.data_eq.2.2]
    exact hold t hprev

/-- The messages of a transaction are among those received, in the order of their receipt. The
induction is on the run, with what was received before it. -/
private theorem inbox_sublist_from (ms : List Message)
    (hms : ∀ t ∈ h.tasks, t.inbox.Sublist ms) (hrun : run Host.next h es = some h') :
    ∀ t ∈ h'.tasks, t.inbox.Sublist (ms ++ received es) := by
  induction es generalizing h ms with
  | nil =>
    cases hrun
    simpa [received] using hms
  | cons e es ih =>
    obtain ⟨m, hstep, hrest⟩ := run_cons_eq_some.mp hrun
    obtain ⟨sent, hm⟩ := Host.next_move hstep
    have hsplit : received (e :: es) = received [e] ++ received es := by
      rw [received, received, received, ← List.filterMap_append]
      rfl
    rw [hsplit, ← List.append_assoc]
    -- A step puts at most the message that it receives at the end of an inbox.
    exact ih _ (hm.inbox_sublist hms) hrest

end Step

section Run
variable {name : PeerName} {peers : List PeerName} {clock : UInt64} {es : List Event} {h : Host}
variable {i : Nat} {t : Task}

/-- What a transaction holds came in. So a peer that has sent one message is counted once. -/
theorem inbox_sublist (hrun : run Host.next (Host.start name peers clock) es = some h)
    (ht : h.tasks[i]? = some t) : t.inbox.Sublist (received es) := by
  have hsub := inbox_sublist_from [] (by simp [Host.start]) hrun
  exact hsub t (List.mem_of_getElem? ht)

/-- The messages with the id are votes of the peers, at most one of each peer. -/
structure OneVoteEach (peers : List PeerName) (tid : TransactionID) (ms : List Message) :
    Prop where
  votes : ∀ m ∈ ms, m.tid = tid → m.peerName ∈ peers ∧
    ∃ r, m.getResponse = some r ∧ (r.type = .ack ∨ r.type = .nack)
  once : ((ms.filter (·.tid = tid)).map Message.peerName).Nodup

/-- At most one message of each peer. As many messages as there are peers are then one of each. -/
private theorem OneVoteEach.subperm {tid : TransactionID} {ms : List Message}
    (hv : OneVoteEach peers tid ms) :
    ((ms.filter (·.tid = tid)).map Message.peerName).Subperm peers := by
  refine List.subperm_of_subset hv.once ?_
  intro p hp
  obtain ⟨m, hm, rfl⟩ := List.mem_map.mp hp
  obtain ⟨hmem, htid⟩ := List.mem_filter.mp hm
  exact (hv.votes m hmem (by simpa using htid)).1

/-- A call that returned nil has taken every message with its id that the host received. -/
private theorem seen_eq_received (hrun : run Host.next (Host.start name peers clock) es = some h)
    (ht : h.tasks[i]? = some t) (hnil : t.goroutine.result? = some none)
    (hv : OneVoteEach peers t.trans.tid (received es)) :
    t.seen = (received es).filter (·.tid = t.trans.tid) ∧ t.seen.length = peers.length ∧
      NoNack t.seen := by
  have hi : HostInv h := (HostInv.init name peers clock).run hrun
  have hpeers : h.peers = peers := (run_config hrun).2
  have hinv := hi.tasks i t ht
  -- The loop took as many messages as there are peers, and none of them is a `NACK`.
  have hpoint : t.taken = peers.length ∧ NoNack t.seen := by
    have hp := hinv.point
    rcases result?_eq_some.mp hnil with hg | hg <;> rw [hg] at hp <;> rw [← hpeers] <;>
      exact hp.2
  have hsub : t.inbox.Sublist ((received es).filter (·.tid = t.trans.tid)) := by
    have hfilter := (inbox_sublist hrun ht).filter (·.tid = t.trans.tid)
    rwa [List.filter_eq_self.mpr (fun m hm => by simpa using hinv.tids m hm)] at hfilter
  -- There are no more messages with the id than peers, so the transaction has all of them.
  have hle : ((received es).filter (·.tid = t.trans.tid)).length ≤ peers.length := by
    simpa using hv.subperm.length_le
  have hpending := hinv.pending
  have hlen := hsub.length_le
  have hinbox : t.inbox = (received es).filter (·.tid = t.trans.tid) :=
    hsub.eq_of_length (by omega)
  have hseen : t.seen = t.inbox := List.take_of_length_le (by omega)
  refine ⟨hseen.trans hinbox, ?_, hpoint.2⟩
  rw [hinv.length_seen]
  exact hpoint.1

end Run

/-- For any messages that a host receives: when a call of `Replicate` returns nil, and the
messages with its id are votes of the peers, at most one of each, then every peer voted `ACK` on
it, and no message with its id is a `NACK`. -/
theorem committed_vote (name : PeerName) (peers : List PeerName) (clock : UInt64)
    (es : List Event) (h : Host) (i : Nat) (t : Task)
    (hrun : run Host.next (Host.start name peers clock) es = some h)
    (ht : h.tasks[i]? = some t) (hnil : t.goroutine = .replicate (.returned none))
    (hv : OneVoteEach peers t.trans.tid (received es)) :
    (∀ p ∈ h.peers, ∃ m ∈ received es, m.tid = t.trans.tid ∧ m.peerName = p ∧
      ∃ r, m.getResponse = some r ∧ r.type = .ack) ∧
    ∀ m ∈ received es, m.tid = t.trans.tid → ∀ r, m.getResponse = some r → r.type ≠ .nack := by
  obtain ⟨hseen, hlen, hno⟩ := seen_eq_received hrun ht (by rw [hnil]; rfl) hv
  have hmem : ∀ m ∈ received es, m.tid = t.trans.tid → m ∈ t.seen := by
    intro m hm htid
    rw [hseen]
    exact List.mem_filter.mpr ⟨hm, by simpa using htid⟩
  have hnack : ∀ m ∈ received es, m.tid = t.trans.tid → ∀ r, m.getResponse = some r →
      r.type ≠ .nack := by
    intro m hm htid r hr
    exact hno r (mem_responsesOf.mpr ⟨m, hmem m hm htid, hr⟩)
  refine ⟨?_, hnack⟩
  intro p hp
  -- As many votes as peers, with different senders, come from all peers.
  have hperm : ((received es).filter (·.tid = t.trans.tid)).map Message.peerName |>.Perm peers := by
    refine hv.subperm.perm_of_length_le ?_
    rw [List.length_map, ← hseen, hlen]
  rw [(run_config hrun).2] at hp
  obtain ⟨m, hm, hname⟩ := List.mem_map.mp (hperm.symm.subset hp)
  obtain ⟨hm, htid⟩ := List.mem_filter.mp hm
  have htid' : m.tid = t.trans.tid := by simpa using htid
  obtain ⟨-, r, hr, htype⟩ := hv.votes m hm htid'
  exact ⟨m, hm, htid', hname, r, hr, htype.resolve_right (hnack m hm htid' r hr)⟩

/-- The host `a` calls `Replicate` and hears the votes of the listed peers. -/
def votedRun (voters : List PeerName) : List Event :=
  [.replicate "t" (mkdirRequest "p" 0), .task 0 .run, .task 0 (reaching ["b", "c"])] ++
    voters.flatMap (fun p => [.receive (newResponseMessage "t" p ack), .notify]) ++
    [.task 0 .run, .task 0 .run]

/-- The call has returned nil. -/
private def returnedNil (h : Host) : Bool :=
  h.tasks[0]?.any fun t => t.trans.tid = "t" ∧ t.goroutine = .replicate (.returned none)

/-- A run that can be evaluated, at whose end the call has returned nil. -/
private theorem exists_returnedNil (voters : List PeerName)
    (hobs : (run Host.next (Host.start "a" ["b", "c"] 0) (votedRun voters)).any returnedNil
      = true) :
    ∃ h t, run Host.next (Host.start "a" ["b", "c"] 0) (votedRun voters) = some h ∧
      h.tasks[0]? = some t ∧ t.trans.tid = "t" ∧ t.goroutine = .replicate (.returned none) := by
  simp only [Option.any_eq_true, returnedNil, decide_eq_true_eq] at hobs
  obtain ⟨h, hrun, t, ht, htid, hg⟩ := hobs
  exact ⟨h, t, hrun, ht, htid, hg⟩

/-- The peers `b` and `c` vote once each. The host commits, and each of them has sent an `ACK`. -/
theorem committed_by_both :
    ∃ h, run Host.next (Host.start "a" ["b", "c"] 0) (votedRun ["b", "c"]) = some h ∧
      ∀ p ∈ h.peers, ∃ m ∈ received (votedRun ["b", "c"]), m.tid = "t" ∧ m.peerName = p ∧
        ∃ r, m.getResponse = some r ∧ r.type = .ack := by
  obtain ⟨h, t, hrun, ht, htid, hg⟩ := exists_returnedNil ["b", "c"] (by decide)
  -- The hypothesis holds of this run: its messages are two votes of different peers.
  have hvotes : OneVoteEach ["b", "c"] t.trans.tid (received (votedRun ["b", "c"])) := by
    rw [htid]
    refine ⟨?_, by decide⟩
    intro m hm _
    obtain rfl | rfl : m = newResponseMessage "t" "b" ack ∨ m = newResponseMessage "t" "c" ack := by
      simpa [received, votedRun] using hm
    · exact ⟨by decide, ack, rfl, .inl rfl⟩
    · exact ⟨by decide, ack, rfl, .inl rfl⟩
  have hall := (committed_vote "a" ["b", "c"] 0 _ h 0 t hrun ht hg hvotes).1
  rw [htid] at hall
  exact ⟨h, hrun, hall⟩

/-- The peer `b` votes twice, and `Replicate` returns nil without a message of `c`. The code counts
the messages and does not look at who sent them. -/
theorem committed_without_peer :
    ∃ h t, run Host.next (Host.start "a" ["b", "c"] 0) (votedRun ["b", "b"]) = some h ∧
      h.tasks[0]? = some t ∧ t.goroutine = .replicate (.returned none) ∧ h.peers = ["b", "c"] ∧
      ∀ m ∈ received (votedRun ["b", "b"]), m.peerName ≠ "c" := by
  obtain ⟨h, t, hrun, ht, -, hg⟩ := exists_returnedNil ["b", "b"] (by decide)
  exact ⟨h, t, hrun, ht, hg, (run_config hrun).2, by decide⟩

end ReplicatedFs.P2p
