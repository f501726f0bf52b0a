import ReplicatedFs.Proofs.P2p.NilRequest
import ReplicatedFs.Proofs.P2p.Table

/-!
# `ReplicatedFs.Proofs.P2p.FaultFree`: what holds in runs without faults

A run is fault-free when no message is lost, no context ends and every broadcast reaches every
peer. `FaultFreeInv` adds to `SystemInv` what this gives (`ReachableFF.inv`):

* every message that was sent is in flight or in a transaction, exactly once (`delivered`);
* readers leave only after they have taken a message of every peer (`faultless`);
* so no handler is re-created at the initiator (`apart`), and no host panics (`running`).
-/

set_option autoImplicit false

namespace ReplicatedFs.P2p

open ReplicatedFs.Protobuf
open Library

/-- The points that a fault-free run reaches. No broadcast failed and no context is done. -/
def Goroutine.faultless : Goroutine → Bool
  | .replicate (.collect _ failed) => failed = []
  | .replicate (.leave r) | .replicate (.returned r) =>
    r = none ∨ r = some .transactionConflict ∨ r = some .notPermitted
  | .handle (.leave (.context _)) | .handle (.ended (.context _)) => false
  | _ => true

/-- The invariant of fault-free runs. -/
structure FaultFreeInv (c : Cluster) (s : System) : Prop where
  delivered : ∀ x, (s.arrived x).Perm (s.sentTo x)
  reached : ∀ e ∈ s.log, ∀ p ∈ c.peers e.msg.peerName, p ∈ e.reached
  faultless : ∀ {x i t}, s.task? x i = some t → t.goroutine.faultless = true
  apart : ∀ {x i t j t'}, s.task? x i = some t → s.task? x j = some t' →
    t.goroutine.isReplicate = true → t'.goroutine.isReplicate = false →
    t.trans.tid ≠ t'.trans.tid
  running : ∀ x, (s.hosts x).panicked = none

section Facts
variable {c : Cluster} {s : System} {x y : PeerName} {i : Nat} {t : Task}

/-- A call has broadcast its request when any message of its transaction has arrived. -/
theorem SystemInv.asked_of_arrived (hi : SystemInv c s) (ht : s.task? x i = some t)
    (hrep : t.goroutine.isReplicate = true) {m : Message} (hm : m ∈ s.arrived y)
    (htid : m.tid = t.trans.tid) : t.goroutine.asked = true := by
  rcases hi.request_or_response hm with hr | hr
  · obtain ⟨r, hr⟩ := Option.isSome_iff_exists.mp hr
    obtain ⟨j, u, hu, hutid, hurep, hasked, -⟩ := hi.request_source hm hr
    obtain ⟨hname, rfl⟩ := hi.initiators hu ht hurep hrep (hutid.trans htid)
    rw [hname] at hu
    obtain rfl : u = t := Option.some.inj (hu.symm.trans ht)
    exact hasked
  · obtain ⟨r, hr⟩ := Option.isSome_iff_exists.mp hr
    obtain ⟨b, hb, -⟩ := hi.voted_of_response hm hr
    exact (hi.call_of_voted ht hrep (htid ▸ hb)).1

/-- A message that a full reader has does not arrive a second time, neither in another task nor in
flight. A full reader has a message of every peer, and a peer sends one message for a transaction.
So nothing is left that could come. -/
theorem SystemInv.full_excludes (hi : SystemInv c s) (ht : s.task? x i = some t)
    (htaken : t.taken = (c.peers x).length) {m : Message} (htid : m.tid = t.trans.tid) :
    (∀ j t', s.task? x j = some t' → m ∈ t'.inbox → i = j) ∧ (x, m) ∉ s.inFlight := by
  have hnodup := hi.nodup_arrived x
  rw [System.arrived, List.map_append] at hnodup
  -- The reader has a message of the same sender, under the same key.
  have hsame : m ∈ s.arrived x → ∃ m' ∈ t.inbox, messageKey m' = messageKey m := by
    intro hm
    obtain ⟨-, -, -, -, hpeer⟩ := hi.sent_of_arrived hm
    obtain ⟨m', hm', hname⟩ := hi.full ht htaken hpeer
    have hmem := t.seen_subset m' hm'
    exact ⟨m', hmem, by simp [messageKey, hname, (hi.taskInv ht).tids m' hmem, htid]⟩
  constructor
  · intro j t' ht' hm
    obtain ⟨m', hm', hkey⟩ := hsame (mem_arrived_of_inbox ht' hm)
    exact flatMap_key_unique (List.Nodup.of_append_left hnodup) ht ht' hm' hm hkey
  · intro hflight
    have hmem : m ∈ (s.inFlight.filter (·.1 = x)).map Prod.snd :=
      List.mem_map.mpr ⟨(x, m), by simpa using hflight, rfl⟩
    obtain ⟨m', hm', hkey⟩ := hsame (List.mem_append_right _ hmem)
    refine List.disjoint_of_nodup_append hnodup (a := messageKey m') ?_ ?_
    · exact List.mem_map_of_mem (List.mem_flatMap.mpr ⟨t, List.mem_of_getElem? ht, hm'⟩)
    · rw [hkey]
      exact List.mem_map_of_mem hmem

/-- In a fault-free run, a call that has left has taken a message of every peer, unless its own
check found a conflict. The other ways to leave are those of a fault. -/
theorem FaultFreeInv.call_full (hf : FaultFreeInv c s) (hi : SystemInv c s)
    (ht : s.task? x i = some t) {r : Option ReplicateError}
    (hr : t.goroutine.result? = some r) (hne : r ≠ some .transactionConflict) :
    t.taken = (c.peers x).length := by
  have hpoint := (hi.taskInv ht).point
  have hfault := hf.faultless ht
  -- The results without a fault: nil, a conflict and `ErrNotPermitted`, each before and after the
  -- return.
  rcases result?_eq_some.mp hr with hg | hg <;> rw [hg] at hpoint hfault <;>
    rcases of_decide_eq_true hfault with rfl | rfl | rfl
  · exact hpoint.2.1
  · exact absurd rfl hne
  · exact hpoint.2.1
  · exact hpoint.2.1
  · exact absurd rfl hne
  · exact hpoint.2.1

/-- In a fault-free run, a handler that has left has taken a message of every peer. -/
theorem FaultFreeInv.handler_full (hf : FaultFreeInv c s) (hi : SystemInv c s)
    (ht : s.task? x i = some t) {r : HandleResult} (hr : t.goroutine.outcome? = some r) :
    t.taken = (c.peers x).length := by
  have hpoint := (hi.taskInv ht).point
  have hfault := hf.faultless ht
  rcases outcome?_eq_some.mp hr with hg | hg <;> rw [hg] at hpoint hfault <;> cases r
  · cases hfault
  · exact hpoint.2.2.1
  · exact hpoint.2.2.1
  · cases hfault
  · exact hpoint.2.2.1
  · exact hpoint.2.2.1

end Facts

section Step
variable {c : Cluster} {s s' : System} {a : Action}

/-- The initial system. Nothing was sent, so everything that was sent has arrived. -/
theorem FaultFreeInv.init (c : Cluster) (clocks : PeerName → UInt64) :
    FaultFreeInv c (System.init c clocks) where
  delivered x := by simp [System.arrived, System.sentTo, copiesTo, System.init]
  reached := by simp [System.init]
  faultless ht := by simp [System.task?, System.init] at ht
  apart ht := by simp [System.task?, System.init] at ht
  running _ := rfl

/-- In a fault-free step every message sent arrives. A step that loses a message is not
fault-free. -/
private theorem FaultFreeInv.step_delivered (hf : FaultFreeInv c s) (hi : SystemInv c s)
    (hfree : faultFree c s a = true) (hm : SystemMove c s a s') (y : PeerName) :
    (s'.arrived y).Perm (s'.sentTo y) := by
  cases hm with
  | host x e h' sent hx ha hp hm =>
    have hnodup : (s.hosts x).peers.Nodup := by
      rw [(hi.config x).2]
      exact c.nodup_peers x
    have harrived := arrived_host ha (hi.hosts x) hnodup hm y
    rw [System.sentTo, copiesTo_append]
    exact harrived.trans ((hf.delivered y).append_right _)
  | lose x msg hmem => cases hfree

/-- A fault-free broadcast fails for no peer and reaches every peer. -/
private theorem faultFree_broadcast {x : PeerName} {ref : Nat} {failed reached : List PeerName}
    (hfree : faultFree c s (.host x (.task ref (.broadcast (.sent failed reached)))) = true) :
    ∀ p ∈ c.peers x, p ∉ failed ∧ p ∈ reached := by
  simpa [faultFree, List.all_eq_true] using hfree

/-- In a fault-free step every broadcast reaches every peer. That it was sent by the host of the
step is part of the argument, since the peers are those of the sender. -/
private theorem FaultFreeInv.step_reached (hf : FaultFreeInv c s) (hi : SystemInv c s)
    (hfree : faultFree c s a = true) (hm : SystemMove c s a s') :
    ∀ e ∈ s'.log, ∀ p ∈ c.peers e.msg.peerName, p ∈ e.reached := by
  cases hm with
  | host x ev h' sent hx ha hp hm =>
    intro e he p hp
    rcases List.mem_append.mp he with hold | hnew
    · exact hf.reached e hold p hp
    · obtain rfl : sent = some e := by simpa using hnew
      obtain ⟨ref, t, result, rfl, ht, hreached, hcase⟩ := hm.sent_cases
      -- The sender of the new entry of the log is the host that moved.
      have hname : e.msg.peerName = x := by
        rcases hcase with ⟨message, hg, rfl, -⟩ | ⟨msg, ballot, -, hmsg, -⟩
        · have hpoint := (hi.taskInv (show s.task? x ref = some t from ht)).point
          rw [hg] at hpoint
          obtain ⟨-, -, r, hmessage, -⟩ := hpoint
          rw [hmessage]
          rfl
        · rw [hmsg, (hi.config x).1]
          rfl
      rw [hname] at hp
      cases result with
      | refused reason => cases hfree
      | sent failed reached =>
        rw [hreached, (hi.config x).2, Broadcast.reached, List.mem_filter]
        exact ⟨hp, decide_eq_true (faultFree_broadcast hfree p hp).2⟩
  | lose x msg hmem => cases hfree

/-- In a fault-free step no reader reaches a fault: no context ends, and no broadcast fails. So a
call returns nil, a conflict, or that it is not permitted, and each of these says something about
the votes. A handler ends with its decision. -/
private theorem FaultFreeInv.step_faultless (hf : FaultFreeInv c s) (hi : SystemInv c s)
    (hfree : faultFree c s a = true) (hm : SystemMove c s a s') {x : PeerName} {i : Nat}
    {t' : Task} (ht' : s'.task? x i = some t') : t'.goroutine.faultless = true := by
  rcases hm.change ht' with ht | ⟨e, sent, rfl, hx, ha, hlog, hchange⟩
  · exact hf.faultless ht
  · generalize ht : s.task? x i = old at hchange
    cases hchange with
    | same e sent t => exact hf.faultless ht
    | call tid request hfresh => rfl
    | join msg t hlookup =>
      have hfault := hf.faultless ht
      exact hfault
    | spawn msg hlookup => rfl
    | notify msg t hl hr =>
      have hfault := hf.faultless ht
      unfold Task.notified
      split
      · rfl
      · exact hfault
    | move input t m hmove =>
      have hfault := hf.faultless ht
      cases hmove with
      | broadcast message result hg =>
        cases result with
        | refused reason => cases hfree
        | sent failed reached =>
          -- No peer is among the failed ones, so the call goes on without an error.
          have hnone : (s.hosts x).peers.filter (· ∈ failed) = [] := by
            rw [(hi.config x).2, List.filter_eq_nil_iff]
            intro p hp
            simpa using (faultFree_broadcast hfree p hp).1
          simp [Task.goto, afterBroadcast, hnone, Goroutine.faultless]
      -- A finished context is a fault.
      | giveUp expected failed err hg hlt => cases hfree
      | expire our err hg hlt => cases hfree
      | sendError expected failed hg hle hne =>
        rw [hg] at hfault
        exact absurd (of_decide_eq_true hfault) hne
      | process expected increment result hg hle hp =>
        rcases processResponses_ok hp with ⟨rfl, -⟩ | ⟨rfl, -⟩ <;> rfl
      | depart result hg =>
        rw [hg] at hfault
        exact hfault
      | finish result hg =>
        rw [hg] at hfault
        cases result with
        | context err => cases hfault
        | _ => rfl
      | _ => rfl

/-- No message of a transaction comes to a host where its call has ended. The call has waited for a
message of every peer, and no peer sends two. -/
private theorem FaultFreeInv.no_late_message (hf : FaultFreeInv c s) (hi : SystemInv c s)
    {x : PeerName} {i : Nat} {t : Task} (ht : s.task? x i = some t)
    (hrep : t.goroutine.isReplicate = true) (hdead : t.goroutine.alive = false) {m : Message}
    (hm : (x, m) ∈ s.inFlight) : m.tid ≠ t.trans.tid := by
  intro htid
  have harrived : m ∈ s.arrived x :=
    List.mem_append_right _ (List.mem_map.mpr ⟨(x, m), by simpa using hm, rfl⟩)
  -- A message of the transaction is around, so the call got past its own check.
  have hasked := hi.asked_of_arrived ht hrep harrived htid
  cases hg : t.goroutine with
  | handle pc => simp [hg, Goroutine.isReplicate] at hrep
  | replicate pc =>
    rw [hg] at hdead hasked
    cases pc with
    | returned r =>
      have hfull := hf.call_full hi ht (r := r) (by rw [hg]; rfl)
        (by simpa [Goroutine.asked] using hasked)
      exact (hi.full_excludes ht hfull htid).2 hm
    | _ => cases hdead

/-- No handler is created at the initiator. When a call returns, either all the responses to it have
come in, or it has not sent its request. With a timeout this fails: a late response makes a new
transaction with the id of the call, and its handler never gets a request. -/
private theorem FaultFreeInv.step_apart (hf : FaultFreeInv c s) (hi : SystemInv c s)
    (hm : SystemMove c s a s') {x : PeerName} {i j : Nat} {t t' : Task}
    (ht : s'.task? x i = some t) (ht' : s'.task? x j = some t')
    (hrep : t.goroutine.isReplicate = true) (hrep' : t'.goroutine.isReplicate = false) :
    t.trans.tid ≠ t'.trans.tid := by
  cases hold : s.task? x i with
  | some u =>
    obtain ⟨v, hv, hext⟩ := hm.extends.tasks hold
    obtain rfl : t = v := Option.some.inj (ht.symm.trans hv)
    have hurep : u.goroutine.isReplicate = true := hext.kind.symm.trans hrep
    cases hold' : s.task? x j with
    | some u' =>
      obtain ⟨v', hv', hext'⟩ := hm.extends.tasks hold'
      obtain rfl : t' = v' := Option.some.inj (ht'.symm.trans hv')
      rw [hext.tid, hext'.tid]
      exact hf.apart hold hold' hurep (hext'.kind.symm.trans hrep')
    | none =>
      rcases hm.change ht' with hsame | ⟨e, sent, rfl, hx, ha, hlog, hchange⟩
      · rw [hold'] at hsame
        cases hsame
      · rw [hold'] at hchange
        cases hchange with
        | call tid request hfresh => simp [Goroutine.isReplicate] at hrep'
        | spawn msg hlookup =>
          -- The id is free, so the call has ended.
          rw [hext.tid, Transaction.put_tid]
          refine fun htid => ?_
          have hdead : u.goroutine.alive = false := by
            by_contra halive
            have := ((hi.hosts x).table i u hold).mp (by simpa using halive)
            rw [htid, hlookup] at this
            cases this
          exact hf.no_late_message hi hold hurep hdead (by simpa [System.admits] using ha)
            htid.symm
  | none =>
    rcases hm.change ht with hsame | ⟨e, sent, rfl, hx, ha, hlog, hchange⟩
    · rw [hold] at hsame
      cases hsame
    · rw [hold] at hchange
      cases hchange with
      | spawn msg hlookup => simp [Goroutine.isReplicate] at hrep
      | call tid request hfresh =>
        -- The id is new, so no other task has it.
        simp only [System.admits, Bool.and_eq_true, Bool.not_eq_true'] at ha
        rcases hm.change ht' with hsame | ⟨e', sent', he', -, -, -, hchange'⟩
        · exact (hi.fresh_tid ha.1 hsame).symm
        · obtain rfl : e' = _ := (Action.host.inj he').2.symm
          generalize hold' : s.task? x j = old' at hchange'
          cases hchange' with
          | same e sent t => exact (hi.fresh_tid ha.1 hold').symm
          | call tid request hfresh => simp [Goroutine.isReplicate] at hrep'

/-- No host panics. With a fault a handler can end up at the initiator of its own transaction, where
it gets no request. This is the panic that `panic_cases` leaves, and here it cannot happen. -/
private theorem FaultFreeInv.step_running (hf : FaultFreeInv c s) (hi : SystemInv c s)
    (hm : SystemMove c s a s') (y : PeerName) : (s'.hosts y).panicked = none := by
  cases hm with
  | host x e h' sent hx ha hp hm =>
    by_cases hxy : y = x
    · subst hxy
      simp only [Function.update_self]
      cases hm with
      | panic ref input t p ht hpanic =>
        -- The only panic is the one on a nil request, which has the initiator on the same host.
        have hg := hi.panic_cases ht hpanic
        obtain ⟨-, j, u, hu, hurep, hutid, -⟩ := hi.initiator_of_nil ht hg
        exact absurd hutid (hf.apart hu ht hurep (by rw [hg]; rfl))
      | _ => exact hp
    · simp only [Function.update_of_ne hxy]
      exact hf.running y
  | lose x msg hmem => exact hf.running y

/-- Every fault-free step keeps the invariant. The parts need each other, so they are proved
together. -/
theorem FaultFreeInv.step (hf : FaultFreeInv c s) (hi : SystemInv c s)
    (hs : s.stepFF c a = some s') : FaultFreeInv c s' := by
  obtain ⟨hfree, hstep⟩ := restrict_eq_some.mp hs
  have hm := System.step_move hstep
  exact {
    delivered := hf.step_delivered hi hfree hm
    reached := hf.step_reached hi hfree hm
    faultless := hf.step_faultless hi hfree hm
    apart := hf.step_apart hi hm
    running := hf.step_running hi hm }

/-- Both invariants hold in every state of every fault-free run. -/
theorem ReachableFF.inv (h : ReachableFF c s) : SystemInv c s ∧ FaultFreeInv c s := by
  obtain ⟨clocks, hs⟩ := h
  refine hs.invariant (I := fun s => SystemInv c s ∧ FaultFreeInv c s) ?_
    ⟨.init c clocks, .init c clocks⟩
  rintro s a s' hstep ⟨hi, hf⟩
  exact ⟨hi.step (restrict_eq_some.mp hstep).2, hf.step hi hstep⟩

end Step

end ReplicatedFs.P2p
