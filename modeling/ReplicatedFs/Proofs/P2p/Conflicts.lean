import Mathlib.Data.List.MinMax
import ReplicatedFs.Proofs.P2p.Agreement

/-!
# `ReplicatedFs.Proofs.P2p.Conflicts`: who is refused for a conflict

A request is refused for a conflict by its own host, before it is broadcast, or by a responder,
with a `NACK`. Both are the answer of `DetectAndResolveConflict` on the map of that host at
that moment.

* `conflict_refusal`: a refusal needs a request of another initiator on the same paths with a
  greater rank in the map. Ranks are a linear order that all hosts share, so the request with
  the greatest rank is never refused, and some request is never refused.
* `mutual_exclusion`: a request that is checked while one of greater rank is in the map never
  gets nil from `Replicate`. `both_return_nil` shows that being in one map is not enough.
-/

set_option autoImplicit false

namespace ReplicatedFs.P2p

open ReplicatedFs.Protobuf
open Library

/-- The task has refused its request for a conflict: `Replicate` leaves with
`ErrTransactionConflict`, or a handler votes `NACK` with `ERR_TRANSACTION_CONFLICT`. -/
def Task.refused (t : Task) : Bool :=
  t.goroutine.result? = some (some .transactionConflict) || t.votes.any Ballot.conflict

/-- The task is about to check the request of the message for conflicts. -/
def Task.Checks (t : Task) (msg : Message) : Prop :=
  t.goroutine = .replicate (.check msg) ∨
    ∃ request verdict, t.goroutine = .handle (.detect msg request verdict)

/-- The request of the transaction has a smaller rank than another request on its paths, of
another initiator. -/
def System.Outranked (s : System) (tid : TransactionID) : Prop :=
  ∃ p j u r q k v r', s.task? p j = some u ∧ u.goroutine.isReplicate = true ∧
    u.trans.tid = tid ∧ u.trans.request = some r ∧ s.task? q k = some v ∧
    v.goroutine.isReplicate = true ∧ v.trans.request = some r' ∧ q ≠ p ∧ SamePaths r' r ∧
    priority r.clock p < priority r'.clock q

section Refusal
variable {c : Cluster} {s s' : System} {a : Action}

/-- A move makes a task refuse only through its conflict check. A NACK of `Mirror.Consult` is not
counted as a refusal here. -/
private theorem TaskMove.refused_cases {h : Host} {t : Task} {input : Input} {m : Move}
    (hm : TaskMove h t input m) (href : m.task.refused = true) :
    t.refused = true ∨
      ∃ msg, t.Checks msg ∧ detectAndResolveConflict h.table msg = .ok true := by
  cases hm with
  -- The two places of a check: before the broadcast of a `Replicate`, and before the vote of a
  -- handler.
  | conflict message hg hc => exact .inr ⟨message, .inl hg, hc⟩
  | detect msg request verdict b hg hc =>
    cases b with
    | true => exact .inr ⟨msg, .inr ⟨request, verdict, hg⟩, hc⟩
    | false =>
      refine .inl ?_
      simpa [Task.refused, Task.votes, Task.goto, hg, Goroutine.result?, Goroutine.vote?]
        using href
  | broadcast message result hg =>
    refine .inl ?_
    -- A failed broadcast is an error of another kind.
    rcases afterBroadcast_cases h.peers result with
      ⟨_, -, hafter⟩ | ⟨_, _, _, -, -, hafter⟩ | ⟨_, _, hafter⟩ <;>
      simpa [Task.refused, Task.votes, Task.goto, hg, hafter, Goroutine.result?, Goroutine.vote?]
        using href
  | process expected increment result hg hle hp =>
    refine .inl ?_
    simpa [Task.refused, Task.votes, Task.goto, hg, Goroutine.result?, Goroutine.vote?,
      processResponses_ne_conflict hp] using href
  | _ =>
    left
    simp_all [Task.refused, Task.votes, Task.goto, Goroutine.result?, Goroutine.vote?]

/-- A step makes a task refuse only through its conflict check. The verdict of the mirror is not a
refusal. -/
theorem SystemMove.refused_cases (hm : SystemMove c s a s') {x : PeerName} {i : Nat} {t' : Task}
    (ht' : s'.task? x i = some t') (href : t'.refused = true) :
    ∃ t, s.task? x i = some t ∧ (t.refused = true ∨
      ∃ msg, t.Checks msg ∧ detectAndResolveConflict (s.hosts x).table msg = .ok true) := by
  rcases hm.change ht' with ht | ⟨e, sent, rfl, hx, ha, hlog, hchange⟩
  · exact ⟨t', ht, .inl href⟩
  · generalize ht : s.task? x i = old at hchange
    cases hchange with
    | same e sent t => exact ⟨t', rfl, .inl href⟩
    | call tid request hfresh =>
      simp [Task.refused, Task.votes, Goroutine.result?, Goroutine.vote?] at href
    | join msg t hlookup => exact ⟨t, rfl, .inl href⟩
    | spawn msg hlookup =>
      simp [Task.refused, Task.votes, Goroutine.result?, Goroutine.vote?] at href
    -- A reader that takes a request goes to `Mirror.Consult` first.
    | notify msg t hl hr =>
      refine ⟨t, rfl, .inl ?_⟩
      unfold Task.notified at href
      split at href
      · rename_i our request hg hreq
        simpa [Task.refused, Task.votes, hg, Goroutine.result?, Goroutine.vote?] using href
      · exact href
    | move input t m hmove => exact ⟨t, rfl, hmove.refused_cases href⟩

/-- A conflict is found only against a request of greater rank in the map. The iteration order
of the map does not matter. -/
theorem SystemInv.refusal (hi : SystemInv c s) {x : PeerName} {i : Nat} {t : Task}
    (ht : s.task? x i = some t) {msg : Message} (hg : t.Checks msg)
    (hc : detectAndResolveConflict (s.hosts x).table msg = .ok true) :
    ∃ p j u r, s.task? p j = some u ∧ u.goroutine.isReplicate = true ∧
      u.trans.tid = t.trans.tid ∧ u.trans.request = some r ∧
      (∃ tr ∈ (s.hosts x).table, Beats tr p r) ∧
      ∀ ts, ts.Perm (s.hosts x).table →
        detectAndResolveConflict ts (newRequestMessage t.trans.tid p r) = .ok true := by
  obtain ⟨p, j, u, r, hu, hurep, hutid, hureq, rfl⟩ := hi.checked_request ht hg
  -- The order of the map matters only for requests without metadata, on which the check panics.
  -- There are none.
  have hmeta : ∀ {q : PeerName} {k : Nat} {v : Task} {r' : Request}, s.task? q k = some v →
      v.goroutine.isReplicate = true → v.trans.request = some r' → r'.metadata.isSome := by
    intro q k v r' hv hvrep hvreq
    obtain ⟨-, r'', hr'', hmeta⟩ := hi.requests hv hvrep
    obtain rfl : r' = r'' := Option.some.inj (hvreq.symm.trans hr'')
    exact hmeta
  refine ⟨p, j, u, r, hu, hurep, hutid, hureq, detectAndResolveConflict_conflict rfl hc,
    fun ts hperm => ?_⟩
  rw [detectAndResolveConflict_perm hperm rfl (hmeta hu hurep hureq), hc]
  intro tr htr r' hr'
  obtain ⟨k, v, hv, hvrep, -, hvreq⟩ := hi.table_request (hperm.mem_iff.mp htr) hr'
  exact hmeta hv hvrep hvreq

/-- A `Replicate` call stays, with its request. So a transaction that outranks another one does not
disappear from the argument when it ends. -/
private theorem SystemInv.call_mono (hi : SystemInv c s) (hs : s.step c a = some s')
    {x : PeerName} {i : Nat} {t : Task} (ht : s.task? x i = some t)
    (hrep : t.goroutine.isReplicate = true) :
    ∃ t', s'.task? x i = some t' ∧ t'.goroutine.isReplicate = true ∧
      t'.trans.tid = t.trans.tid ∧ t'.trans.request = t.trans.request := by
  have hm := System.step_move hs
  obtain ⟨t', ht', hext⟩ := hm.extends.tasks ht
  have htids := ((hi.step hs).taskInv ht').tids
  exact ⟨t', ht', hext.kind.trans hrep, hext.tid,
    (hi.request_stable hm ht ht' hext hrep htids).1⟩

/-- A request stays outranked, since the call that outranks it keeps its request and its stamp. -/
private theorem System.Outranked.step {tid : TransactionID} (h : s.Outranked tid)
    (hi : SystemInv c s) (hs : s.step c a = some s') : s'.Outranked tid := by
  obtain ⟨p, j, u, r, q, k, v, r', hu, hurep, hutid, hureq, hv, hvrep, hvreq, hqp, hpaths,
    hlt⟩ := h
  obtain ⟨u', hu', hurep', hutid', hureq'⟩ := hi.call_mono hs hu hurep
  obtain ⟨v', hv', hvrep', -, hvreq'⟩ := hi.call_mono hs hv hvrep
  exact ⟨p, j, u', r, q, k, v', r', hu', hurep', hutid'.trans hutid, hureq'.trans hureq, hv',
    hvrep', hvreq'.trans hvreq, hqp, hpaths, hlt⟩

end Refusal

section Greatest
variable {c : Cluster} {s : System}

/-- The conflict of two requests does not depend on which of them came first. -/
theorem SamePaths.symm {r r' : Request} (h : SamePaths r r') : SamePaths r' r := by
  obtain ⟨m, m', hm, hm', hp, hn⟩ := h
  exact ⟨m', m, hm', hm, hp.symm, hn.symm⟩

/-- All requests of a group with the same paths are in conflict with each other. -/
theorem SamePaths.trans {r r' r'' : Request} (h : SamePaths r r') (h' : SamePaths r' r'') :
    SamePaths r r'' := by
  obtain ⟨m, m₁, hm, hm₁, hp, hn⟩ := h
  obtain ⟨m₂, m'', hm₂, hm'', hp', hn'⟩ := h'
  obtain rfl : m₁ = m₂ := Option.some.inj (hm₁.symm.trans hm₂)
  exact ⟨m, m'', hm, hm'', hp.trans hp', hn.trans hn'⟩

end Greatest

section Exclusion
variable {c : Cluster} {s s' : System}

/-- A refusal stays. Neither a ballot nor a result is taken back. -/
theorem TaskExtends.refused_mono {t t' : Task} (h : TaskExtends t t')
    (href : t.refused = true) : t'.refused = true := by
  simp only [Task.refused, Bool.or_eq_true, decide_eq_true_eq, List.any_eq_true] at href ⊢
  rcases href with hresult | ⟨b, hb, hconflict⟩
  · exact .inl (h.result _ hresult)
  · exact .inr ⟨b, h.votes.subset hb, hconflict⟩

/-- A refused request does not get nil from `Replicate`: its own host or one of the voters is
against it. If its own host has refused it, it returns the conflict. If a voter has, its `NACK` is
counted before the call can return nil. -/
theorem SystemInv.result_of_refused (hi : SystemInv c s) {x p : PeerName} {i j : Nat}
    {t u : Task} (ht : s.task? x i = some t) (href : t.refused = true)
    (hu : s.task? p j = some u) (hurep : u.goroutine.isReplicate = true)
    (htid : u.trans.tid = t.trans.tid) : u.goroutine.result? ≠ some none := by
  intro hnil
  simp only [Task.refused, Bool.or_eq_true, decide_eq_true_eq, List.any_eq_true] at href
  rcases href with hresult | ⟨b, hb, hconflict⟩
  · have hrep : t.goroutine.isReplicate = true := by
      rcases result?_eq_some.mp hresult with hg | hg <;> rw [hg] <;> rfl
    obtain ⟨rfl, rfl⟩ := hi.initiators hu ht hurep hrep htid
    obtain rfl : u = t := Option.some.inj (hu.symm.trans ht)
    rw [hresult] at hnil
    cases hnil
  · have hcommit : (s.election u.trans.tid).decisions (p, j) = some .commit := by
      rw [election_decisions hu]
      rcases result?_eq_some.mp hnil with hg | hg <;> rw [hg] <;> rfl
    have hall := hi.election_sound hu hurep (p, j) .commit hcommit
    -- The host of the vote is a voter, and its ballot is this one.
    obtain ⟨m, hm, hr⟩ := hi.vote_request ht hb
    have harrived := mem_arrived_of_inbox ht hm
    have hmtid := (hi.taskInv ht).tids m hm
    obtain ⟨l, v, hv, hvtid, hvrep, -⟩ := hi.request_source harrived hr
    obtain ⟨-, -, -, -, hpeer⟩ := hi.sent_of_arrived harrived
    obtain ⟨hname, -⟩ := hi.initiators hv hu hvrep hurep (by rw [hvtid, hmtid, htid])
    rw [hname] at hpeer
    have hxp : x ≠ p := fun h => (Cluster.mem_peers.mp hpeer).2 h.symm
    obtain ⟨b', ⟨k, w, hw, hwtid, hb'⟩, happroves⟩ :=
      hi.voted_of_unanimous hall x (Cluster.mem_peers.mpr ⟨hi.members ht, hxp⟩)
    have hbb : b = b' :=
      (hi.vote_unique ht hw (htid.symm.trans hwtid.symm) hb (w.ballots_subset_votes hb')).2
    rw [← hbb] at happroves
    simp [Ballot.approves, hconflict] at happroves

/-- A conflict check that does not pass is a refusal, at a `Replicate` as well as at a handler. -/
private theorem TaskMove.refuses {h : Host} {t : Task} {m : Move} {msg : Message}
    (hm : TaskMove h t .run m) (hg : t.Checks msg)
    (hfound : detectAndResolveConflict h.table msg ≠ .ok false) : m.task.refused = true := by
  rcases hg with hg | ⟨request, verdict, hg⟩ <;> cases hm <;> rename_i hg' <;>
    simp_all [Task.refused, Task.votes, Task.goto, Goroutine.result?, Goroutine.vote?]

/-- A conflict check with a request of greater rank in the map ends in a refusal. It cannot panic
either, because all requests in the map have metadata. -/
theorem SystemInv.refused_of_beats (hi : SystemInv c s) {x : PeerName} {i : Nat}
    {t : Task} {msg : Message} {r : Request} {tr : Transaction} (ht : s.task? x i = some t)
    (hg : t.Checks msg) (hr : msg.getRequest = some r) (htr : tr ∈ (s.hosts x).table)
    (hb : Beats tr msg.peerName r)
    (hstep : s.step c (.host x (.task i .run)) = some s') :
    ∃ t', s'.task? x i = some t' ∧ t'.trans.tid = t.trans.tid ∧ t'.refused = true := by
  have hfound : detectAndResolveConflict (s.hosts x).table msg ≠ .ok false :=
    fun h => detectAndResolveConflict_none hr h tr htr hb
  cases System.step_move hstep with
  | host x e h' sent hx ha hp hm =>
    cases hm with
    | task ref input t₀ m ht₀ hm =>
      obtain rfl : t₀ = t := Option.some.inj (ht₀.symm.trans ht)
      refine ⟨m.task, ?_, by rw [hm.data_eq.1], hm.refuses hg hfound⟩
      rw [task?_update_self]
      exact getElem?_set_self ht₀
    -- A panic at the check would need a request without metadata.
    | panic ref input t₀ p ht₀ hp =>
      obtain rfl : t₀ = t := Option.some.inj (ht₀.symm.trans ht)
      have := hi.panic_cases ht hp
      rcases hg with hg | ⟨request, verdict, hg⟩ <;> simp [this] at hg

end Exclusion

end ReplicatedFs.P2p
