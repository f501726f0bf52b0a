import ReplicatedFs.Proofs.P2p.Votes

/-!
# `ReplicatedFs.Proofs.P2p.Table`: what the transactions map of a host holds

`DetectAndResolveConflict` ranges over the map. Every request in it belongs to the `Replicate`
call of its initiator, so it carries metadata (`SystemInv.table_request`). The check therefore
never panics (`SystemInv.check_ok`), and neither does the evaluation of the responses. What is
left is `Mirror.Mirror` with a nil request (`SystemInv.panic_cases`).
-/

set_option autoImplicit false

namespace ReplicatedFs.P2p

open ReplicatedFs.Protobuf
open Library

section Map
variable {h : Host}

/-- The map of a host holds the transactions whose readers have not deleted them. -/
theorem HostInv.mem_table (hi : HostInv h) {tr : Transaction} :
    tr ∈ h.table ↔
      ∃ (i : Nat) (t : Task), h.tasks[i]? = some t ∧ t.goroutine.alive = true ∧ t.trans = tr := by
  simp only [Host.table, List.mem_filterMap, Option.map_eq_some_iff]
  constructor
  · rintro ⟨⟨tid, i⟩, hmem, t, ht, rfl⟩
    have hlookup : h.ts.lookup tid = some i := AList.mem_lookup_iff.mpr hmem
    obtain ⟨t', ht', htid⟩ := hi.listed tid i hlookup
    obtain rfl : t = t' := Option.some.inj (ht.symm.trans ht')
    exact ⟨i, t, ht, (hi.table i t ht).mpr (htid ▸ hlookup), rfl⟩
  · rintro ⟨i, t, ht, halive, rfl⟩
    exact ⟨⟨t.trans.tid, i⟩, AList.mem_lookup_iff.mp ((hi.table i t ht).mp halive), t, ht, rfl⟩

end Map

section System
variable {c : Cluster} {s : System} {x : PeerName} {i : Nat} {t : Task}

/-- The request of a transaction is the one of the `Replicate` call of its initiator. So two hosts
that hold a transaction hold the same request. -/
theorem SystemInv.trans_request (hi : SystemInv c s) (ht : s.task? x i = some t) {r : Request}
    (hr : t.trans.request = some r) :
    ∃ j u, s.task? t.trans.initiatorName j = some u ∧ u.goroutine.isReplicate = true ∧
      u.trans.tid = t.trans.tid ∧ u.trans.request = some r := by
  have horigin := (hi.taskInv ht).origin
  cases hg : t.goroutine with
  | replicate pc =>
    have hrep : t.goroutine.isReplicate = true := by rw [hg]; rfl
    refine ⟨i, t, ?_, hrep, rfl, hr⟩
    rw [(hi.requests ht hrep).1]
    exact ht
  | handle pc =>
    rw [hg] at horigin
    -- The stored request came with a message, and the sender is stored with it.
    obtain ⟨m, hm, hmr, hname⟩ := horigin.2 r hr
    obtain ⟨j, u, hu, hutid, hurep, -, hureq, -⟩ :=
      hi.request_source (mem_arrived_of_inbox ht hm) hmr
    rw [hname] at hu
    exact ⟨j, u, hu, hurep, hutid.trans ((hi.taskInv ht).tids m hm), hureq⟩

/-- A request in the map belongs to the `Replicate` call of its initiator. -/
theorem SystemInv.table_request (hi : SystemInv c s) {tr : Transaction}
    (htr : tr ∈ (s.hosts x).table) {r : Request} (hr : tr.request = some r) :
    ∃ j u, s.task? tr.initiatorName j = some u ∧ u.goroutine.isReplicate = true ∧
      u.trans.tid = tr.tid ∧ u.trans.request = some r := by
  obtain ⟨k, t, ht, -, rfl⟩ := (hi.hosts x).mem_table.mp htr
  exact hi.trans_request ht hr

/-- The request that a task checks for conflicts: the one of its own `Replicate` call, or the one of
the initiator. The message under check is therefore always one that could have been sent. -/
theorem SystemInv.checked_request (hi : SystemInv c s) (ht : s.task? x i = some t)
    {msg : Message} (hg : t.goroutine = .replicate (.check msg) ∨
      ∃ request verdict, t.goroutine = .handle (.detect msg request verdict)) :
    ∃ p j u r, s.task? p j = some u ∧ u.goroutine.isReplicate = true ∧
      u.trans.tid = t.trans.tid ∧ u.trans.request = some r ∧
      msg = newRequestMessage t.trans.tid p r := by
  have hinv := hi.taskInv ht
  have hpoint := hinv.point
  rcases hg with hg | ⟨request, verdict, hg⟩
  · rw [hg] at hpoint
    obtain ⟨-, -, r, rfl, hreq⟩ := hpoint
    have hrep : t.goroutine.isReplicate = true := by rw [hg]; rfl
    -- Nobody else sends a request with the id of this call, so its own one is still stored.
    have hnone : requestsOf t.inbox = [] := by
      rw [requestsOf, List.filterMap_eq_nil_iff]
      intro m hm
      exact hi.no_request ht hrep (mem_arrived_of_inbox ht hm) (hinv.tids m hm)
    exact ⟨_, i, t, r, ht, hrep, rfl, hreq hnone, rfl⟩
  · rw [hg] at hpoint
    obtain ⟨-, -, hmem, hget, -⟩ := hpoint
    obtain ⟨j, u, hu, hutid, hurep, -, hureq, -⟩ :=
      hi.request_source (mem_arrived_of_inbox ht hmem) hget
    refine ⟨_, j, u, request, hu, hurep, hutid.trans (hinv.tids msg hmem), hureq, ?_⟩
    rw [← hinv.tids msg hmem]
    exact Message.eq_newRequestMessage hget

/-- A conflict check does not panic. It reads the metadata of the request and of all requests in the
map, and these are requests of calls. -/
theorem SystemInv.check_ok (hi : SystemInv c s) (ht : s.task? x i = some t) {msg : Message}
    (hg : t.goroutine = .replicate (.check msg) ∨
      ∃ request verdict, t.goroutine = .handle (.detect msg request verdict)) :
    ∃ b, detectAndResolveConflict (s.hosts x).table msg = .ok b := by
  obtain ⟨p, j, u, r, hu, hurep, -, hureq, rfl⟩ := hi.checked_request ht hg
  have hmeta : r.metadata.isSome := by
    obtain ⟨-, r', hr', hmeta⟩ := hi.requests hu hurep
    obtain rfl : r = r' := Option.some.inj (hureq.symm.trans hr')
    exact hmeta
  refine detectAndResolveConflict_ok rfl hmeta fun tr htr r' hr' => ?_
  obtain ⟨k, v, hv, hvrep, -, hvreq⟩ := hi.table_request htr hr'
  obtain ⟨-, r'', hr'', hmeta'⟩ := hi.requests hv hvrep
  -- Requests without metadata are not let into the system.
  obtain rfl : r' = r'' := Option.some.inj (hvreq.symm.trans hr'')
  exact hmeta'

/-- The responses of a transaction can be evaluated. Each of them is a vote of a host, and these
have an error when they are a `NACK`. -/
theorem SystemInv.process_ok (hi : SystemInv c s) (ht : s.task? x i = some t) :
    ∃ v, processResponses t.trans.responses = .ok v := by
  refine processResponses_ok_of_errors fun r hr htype => ?_
  rw [(hi.taskInv ht).responses] at hr
  obtain ⟨m, hm, hmr⟩ := mem_responsesOf.mp hr
  obtain ⟨b, hb, rfl⟩ := hi.voted_of_response (mem_arrived_of_inbox ht hm) hmr
  exact (Ballot.response_error (hi.voted_verdict hb) htype).1

/-- The one panic of an honest run is `Mirror.Mirror` with a nil request. -/
theorem SystemInv.panic_cases (hi : SystemInv c s) (ht : s.task? x i = some t) {input : Input}
    {p : Panic} (hp : t.step (s.hosts x) input = some (.error p)) :
    t.goroutine = .handle (.mirror none) := by
  rcases Task.step_error hp with ⟨msg, hg, herr⟩ | ⟨expected, failed, -, herr⟩ | hg
  · obtain ⟨b, hb⟩ := hi.check_ok ht hg
    rw [herr] at hb
    cases hb
  · obtain ⟨v, hv⟩ := hi.process_ok ht
    rw [herr] at hv
    cases hv
  · exact hg

end System

end ReplicatedFs.P2p
