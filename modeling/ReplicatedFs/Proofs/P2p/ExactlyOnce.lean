import ReplicatedFs.Proofs.P2p.Agreement

/-!
# `ReplicatedFs.Proofs.P2p.ExactlyOnce`: what the hosts carry out

A host carries out a request when its own `Replicate` call for it returns nil, and the caller
goes on with its operation, or when a handler has called `Mirror.Mirror` with it.
`Host.executed` lists these requests with their transaction ids.

`exactly_once`: when a fault-free run has settled, all hosts have carried out the same requests,
each of them once. They are the committed ones (`FaultFreeInv.mem_executed_iff`).
-/

set_option autoImplicit false

namespace ReplicatedFs.P2p

open ReplicatedFs.Protobuf
open Library

/-- What the reader of a transaction has carried out. -/
def Task.executed? (t : Task) : Option (TransactionID × Request) :=
  match t.goroutine with
  | .replicate (.returned none) => t.trans.request.map (t.trans.tid, ·)
  | .handle (.ended (.mirrored request _)) => some (t.trans.tid, request)
  | _ => none

/-- What a host has carried out, in the order in which it learned of the transactions. -/
def Host.executed (h : Host) : List (TransactionID × Request) := h.tasks.filterMap Task.executed?

/-- The transaction was called for the request, and every peer of the initiator voted for it. -/
def System.Committed (c : Cluster) (s : System) (tid : TransactionID) (request : Request) : Prop :=
  ∃ x i t, s.task? x i = some t ∧ t.goroutine.isReplicate = true ∧ t.trans.tid = tid ∧
    t.trans.request = some request ∧ s.Approved c x tid

/-- A transaction is executed at its initiator when `Replicate` returns `nil`, and at a peer when
`Mirror` has returned, with or without an error. -/
theorem Task.executed?_eq_some {t : Task} {tid : TransactionID} {request : Request} :
    t.executed? = some (tid, request) ↔ t.trans.tid = tid ∧
      (t.goroutine = .replicate (.returned none) ∧ t.trans.request = some request ∨
        ∃ err, t.goroutine = .handle (.ended (.mirrored request err))) := by
  unfold Task.executed?
  split
  · rename_i hg
    simp [hg, Option.map_eq_some_iff, and_comm]
  · rename_i request' err hg
    simp [hg]
  · -- At all other points nothing has been carried out.
    rename_i hcall hmirrored
    constructor
    · nofun
    · rintro ⟨-, ⟨hg, -⟩ | ⟨err, hg⟩⟩
      · exact absurd hg hcall
      · exact absurd hg (hmirrored request err)

/-- The executions of a host are those of its goroutines. The list of the host is computed from its
tasks. -/
theorem mem_executed {s : System} {y : PeerName} {tid : TransactionID} {request : Request} :
    (tid, request) ∈ (s.hosts y).executed ↔
      ∃ i t, s.task? y i = some t ∧ t.executed? = some (tid, request) := by
  rw [Host.executed, List.mem_filterMap]
  constructor
  · rintro ⟨t, hmem, ht⟩
    obtain ⟨i, hi⟩ := List.mem_iff_getElem?.mp hmem
    exact ⟨i, t, hi, ht⟩
  · rintro ⟨i, t, hi, ht⟩
    exact ⟨t, List.mem_of_getElem? hi, ht⟩

section Facts
variable {c : Cluster} {s : System} {x y : PeerName} {i j : Nat} {t u : Task}

/-- In a fault-free run a host has one task for a transaction. With a timeout there can be a second
handler, for the messages that come late. -/
theorem FaultFreeInv.task_unique (hf : FaultFreeInv c s) (hi : SystemInv c s)
    (ht : s.task? x i = some t) (hu : s.task? x j = some u)
    (htid : t.trans.tid = u.trans.tid) : i = j := by
  cases hrep : t.goroutine.isReplicate with
  | true =>
    cases hurep : u.goroutine.isReplicate with
    | true => exact (hi.initiators ht hu hrep hurep htid).2
    | false => exact absurd htid (hf.apart ht hu hrep hurep)
  | false =>
    cases hurep : u.goroutine.isReplicate with
    | true => exact absurd htid.symm (hf.apart hu ht hurep hrep)
    | false => exact hf.handler_unique hi ht hu hrep hurep htid

/-- The ids of what was carried out are among the ids of the tasks, in their order. -/
private theorem executed_tids_sublist (ts : List Task) :
    ((ts.filterMap Task.executed?).map Prod.fst).Sublist (ts.map fun t => t.trans.tid) := by
  induction ts with
  | nil => exact List.Sublist.slnil
  | cons t ts ih =>
    rw [List.filterMap_cons]
    split
    · exact ih.cons _
    · rename_i p hp
      obtain ⟨tid, request⟩ := p
      obtain ⟨rfl, -⟩ := Task.executed?_eq_some.mp hp
      exact ih.cons_cons _

/-- In a fault-free run no host carries out a transaction twice. -/
theorem FaultFreeInv.executed_nodup (hf : FaultFreeInv c s) (hi : SystemInv c s) (y : PeerName) :
    ((s.hosts y).executed.map Prod.fst).Nodup := by
  have htids : ((s.hosts y).tasks.map fun t => t.trans.tid).Nodup := by
    rw [List.nodup_iff_injective_get]
    intro i j hij
    simp only [List.get_eq_getElem, List.getElem_map] at hij
    have hlt : i.val < (s.hosts y).tasks.length := by simpa using i.isLt
    have hlt' : j.val < (s.hosts y).tasks.length := by simpa using j.isLt
    exact Fin.ext (hf.task_unique hi (List.getElem?_eq_getElem hlt)
      (List.getElem?_eq_getElem hlt') hij)
  exact htids.sublist (executed_tids_sublist _)

/-- The transaction of a handler was called by another host. No message invents a transaction. -/
theorem FaultFreeInv.caller (hf : FaultFreeInv c s) (hi : SystemInv c s)
    (hu : s.task? y j = some u) (hurep : u.goroutine.isReplicate = false) :
    ∃ x i t, s.task? x i = some t ∧ t.goroutine.isReplicate = true ∧
      u.trans.tid = t.trans.tid ∧ y ≠ x := by
  obtain ⟨m, hm⟩ := List.exists_mem_of_ne_nil _ (hi.gathered hu hurep)
  obtain ⟨x, i, t, ht, htid, hrep⟩ := hi.initiator (mem_arrived_of_inbox hu hm)
  have hsame : u.trans.tid = t.trans.tid := ((hi.taskInv hu).tids m hm).symm.trans htid.symm
  refine ⟨x, i, t, ht, hrep, hsame, ?_⟩
  rintro rfl
  exact hf.apart ht hu hrep hurep hsame.symm

/-- What a host has carried out is committed: all peers of the caller have voted for it. -/
theorem FaultFreeInv.committed_of_executed (hf : FaultFreeInv c s) (hi : SystemInv c s)
    {tid : TransactionID} {request : Request} (h : (tid, request) ∈ (s.hosts y).executed) :
    s.Committed c tid request := by
  obtain ⟨i, t, ht, hexec⟩ := mem_executed.mp h
  obtain ⟨rfl, ⟨hg, hreq⟩ | ⟨err, hg⟩⟩ := Task.executed?_eq_some.mp hexec
  · have hrep : t.goroutine.isReplicate = true := by rw [hg]; rfl
    exact ⟨y, i, t, ht, hrep, rfl, hreq, (hf.returned_nil_iff hi ht hg).mp rfl⟩
  · -- A handler that has mirrored has the request of the initiator, and the votes behind it.
    have hurep : t.goroutine.isReplicate = false := by rw [hg]; rfl
    have hcall : t.goroutine.mirrorCall? = some (some request) := by rw [hg]; rfl
    obtain ⟨x, k, u, hu, hrep, htid, hyx⟩ := hf.caller hi ht hurep
    have hreq := hi.mirror_request hu hrep ht htid hyx hcall
    have happroved := (hf.mirror_iff hi hu hrep ht htid (.inl (by simp [hcall]))).mp
      (by simp [hcall])
    exact ⟨x, k, u, hu, hrep, htid.symm, hreq.symm, by rwa [htid]⟩

/-- In a settled state a host has carried out every committed request. The initiator has done so
when its call returned nil. A peer has cast its vote in a handler, and this handler has ended by
now, with nothing but votes for the request. -/
theorem FaultFreeInv.executed_of_committed (hf : FaultFreeInv c s) (hi : SystemInv c s)
    (hfin : s.Finished) (hy : y ∈ c.names) {tid : TransactionID} {request : Request}
    (h : s.Committed c tid request) : (tid, request) ∈ (s.hosts y).executed := by
  obtain ⟨x, i, t, ht, hrep, rfl, hreq, happroved⟩ := h
  by_cases hyx : y = x
  · -- The call has returned, and it decided by the votes.
    subst hyx
    have hdead := hfin.1 y i t ht
    cases hg : t.goroutine with
    | handle pc => simp [hg, Goroutine.isReplicate] at hrep
    | replicate pc =>
      rw [hg] at hdead
      cases pc with
      | returned r =>
        obtain rfl := (hf.returned_nil_iff hi ht hg).mpr happroved
        exact mem_executed.mpr
          ⟨i, t, ht, Task.executed?_eq_some.mpr ⟨rfl, .inl ⟨hg, hreq⟩⟩⟩
      | _ => cases hdead
  · -- The vote of the host was cast by a handler, which has ended.
    obtain ⟨b, ⟨j, u, hu, hutid, -⟩, -⟩ :=
      happroved y (Cluster.mem_peers.mpr ⟨hy, hyx⟩)
    have hdead := hfin.1 y j u hu
    cases hg : u.goroutine with
    | replicate pc =>
      exact absurd (hi.initiators hu ht (by rw [hg]; rfl) hrep hutid).1 hyx
    | handle pc =>
      rw [hg] at hdead
      cases pc with
      | ended r =>
        have hcall := (hf.mirror_iff hi ht hrep hu hutid (.inr (by rw [hg]; rfl))).mpr happroved
        obtain ⟨req, hcall⟩ := Option.isSome_iff_exists.mp hcall
        have hsame := hi.mirror_request ht hrep hu hutid hyx hcall
        rw [hsame, hreq, hg] at hcall
        cases r with
        | mirrored request' err =>
          obtain rfl : request' = request := by simpa [Goroutine.mirrorCall?] using hcall
          exact mem_executed.mpr
            ⟨j, u, hu, Task.executed?_eq_some.mpr ⟨hutid, .inr ⟨err, hg⟩⟩⟩
        | _ => cases hcall
      | _ => cases hdead

/-- In a settled state, what a host has carried out is what is committed. -/
theorem FaultFreeInv.mem_executed_iff (hf : FaultFreeInv c s) (hi : SystemInv c s)
    (hfin : s.Finished) (hy : y ∈ c.names) {tid : TransactionID} {request : Request} :
    (tid, request) ∈ (s.hosts y).executed ↔ s.Committed c tid request :=
  ⟨hf.committed_of_executed hi, hf.executed_of_committed hi hfin hy⟩

end Facts

/-- Take a fault-free run that has settled, with any number of hosts, any concurrent calls and
any order of delivery. No host has carried out a transaction twice, and every two hosts have
carried out the same requests under the same ids, in some order. -/
theorem exactly_once {c : Cluster} {s : System} (hs : ReachableFF c s) (hfin : s.Finished)
    {y z : PeerName} (hy : y ∈ c.names) (hz : z ∈ c.names) :
    ((s.hosts y).executed.map Prod.fst).Nodup ∧
      (s.hosts y).executed.Perm (s.hosts z).executed := by
  obtain ⟨hi, hf⟩ := hs.inv
  have hnodup : ∀ w, (s.hosts w).executed.Nodup := fun w => (hf.executed_nodup hi w).of_map _
  refine ⟨hf.executed_nodup hi y, ?_⟩
  rw [List.perm_ext_iff_of_nodup (hnodup y) (hnodup z)]
  rintro ⟨tid, request⟩
  rw [hf.mem_executed_iff hi hfin hy, hf.mem_executed_iff hi hfin hz]

/-- `agreedRun`, until the handler of `b` has ended. -/
def settledRun : List Action :=
  agreedRun ++ [.host "b" (.task 0 .run), .host "b" (.task 0 (.mirrored none)),
    .host "b" (.task 0 .run)]

/-- After `settledRun` both hosts have carried out the one request, and neither of them twice. -/
theorem exactly_once_settledRun :
    ∃ s, ReachableFF duo s ∧ s.Finished ∧
      (s.hosts "a").executed = [("t", mkdirRequest "p" 0)] ∧
      (s.hosts "a").executed.Perm (s.hosts "b").executed := by
  obtain ⟨s, hs, hobs⟩ := ReachableFF.of_run duo (fun _ => 0) settledRun
    (fun s => (duo.names.all fun x => (s.hosts x).tasks.all fun t => !t.goroutine.alive) &&
      (s.inFlight.isEmpty && decide ((s.hosts "a").executed = [("t", mkdirRequest "p" 0)])))
    (by decide)
  simp only [Bool.and_eq_true, List.all_eq_true, Bool.not_eq_true', List.isEmpty_iff,
    decide_eq_true_eq] at hobs
  obtain ⟨hdead, hflight, hexec⟩ := hobs
  -- Nothing is alive on the hosts of the cluster, and there are tasks on these only.
  have hfin : s.Finished := by
    refine ⟨fun x i t ht => ?_, hflight⟩
    exact hdead x (hs.inv.1.members ht) t (List.mem_of_getElem? ht)
  exact ⟨s, hs, hfin, hexec, (exactly_once hs hfin (by decide) (by decide)).2⟩

end ReplicatedFs.P2p
