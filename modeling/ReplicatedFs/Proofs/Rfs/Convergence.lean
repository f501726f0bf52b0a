import ReplicatedFs.Proofs.Rfs.Epoch

/-!
# `ReplicatedFs.Proofs.Rfs.Convergence`: one file system on all hosts

The mirror directories of a fleet start with the same outline, on hosts with the same umask and
the same privileges. A run is a sequence of epochs. An epoch leads from a settled state to a
settled state without faults. In between, the hosts make any number of calls at the same time, on
unrelated paths, each of which `MetadataCall.Fits`.

`fleet_converges`: after any such run all mirror directories have the same outline. It is the one
that a single file system has on which the calls were carried out whose `Replicate` returned nil,
one after the other.

* `FleetInv.applied_iff_granted`: at the end of an epoch, a host has applied exactly the calls that
  were permitted. With `EpochInv` this gives its outline.
* `Converged.epoch`: one more epoch. What was permitted before stays permitted, and the calls of the
  new epoch come after it.
-/

set_option autoImplicit false

namespace ReplicatedFs.Rfs

open Library Library.Posix Protobuf P2p

/-- An epoch: a run from a settled state to a settled state in which nothing fails and no message is
lost, be it on the way or in `listen`. The calls that it starts are on unrelated paths. Each of them
is one that `rfsRoot` and `Mirror` carry out alike (`MetadataCall.Fits`), on paths without
symbolic links, as the mirror directory of its host was at the start. -/
structure Fleet.Epoch (sites : PeerName → Site) (c : Cluster) (s s' : Fleet)
    (calls : List EpochCall) : Prop where
  start : s.Settled c
  reaches : Reaches (Fleet.stepEpoch sites c) s s'
  finish : s'.Settled c
  issued : s'.issued = s.issued ++ calls.map EpochCall.issued
  apart : calls.Pairwise fun e e' => e.op.Apart e'.op
  fits : ∀ e ∈ calls, e.op.Fits (sites e.host).proc (s.outline sites e.host)

/-- Epochs in a row, with all their calls. -/
inductive Fleet.Epochs (sites : PeerName → Site) (c : Cluster) (s₀ : Fleet) :
    Fleet → List EpochCall → Prop
  | none : Fleet.Epochs sites c s₀ s₀ []
  | more {s s' : Fleet} {calls new : List EpochCall} (h : Fleet.Epochs sites c s₀ s calls)
      (hepoch : s.Epoch sites c s' new) : Fleet.Epochs sites c s₀ s' (calls ++ new)

/-- The `Replicate` call of the FUSE call has returned nil. -/
def Fleet.granted (s : Fleet) (e : EpochCall) : Bool :=
  (s.system.hosts e.host).tasks.any fun t =>
    t.trans.tid = e.tid ∧ t.goroutine = .replicate (.returned none)

section Runs
variable {sites : PeerName → Site} {c : Cluster} {proc : Process} {t : Store} {s s' : Fleet}
  {calls : List EpochCall} {y : PeerName}

/-- A call was granted when the `Replicate` of its transaction returned `nil`. -/
theorem Fleet.granted_iff {e : EpochCall} :
    s.granted e = true ↔ ∃ i u, s.system.task? e.host i = some u ∧ u.trans.tid = e.tid ∧
      u.goroutine = .replicate (.returned none) := by
  simp only [Fleet.granted, List.any_eq_true, decide_eq_true_eq]
  constructor
  · rintro ⟨u, hmem, hu⟩
    obtain ⟨i, hi⟩ := List.mem_iff_getElem?.mp hmem
    exact ⟨i, u, hi, hu⟩
  · rintro ⟨i, u, hi, hu⟩
    exact ⟨u, List.mem_of_getElem? hi, hu⟩

/-- In a settled state a host has applied what it has carried out. In between the two differ: a call
whose `Replicate` has returned is executed, but its own operation comes a step later. -/
private theorem FleetInv.applied_iff_executed (hi : FleetInv c s) (hfin : s.Settled c)
    {tid : TransactionID} :
    s.Applied y tid ↔ ∃ request, (tid, request) ∈ (s.system.hosts y).executed := by
  constructor
  · rintro ⟨i, u, hu, hutid, ⟨request, err, hout⟩ | ⟨hg, -⟩⟩
    · rcases outcome?_eq_some.mp hout with hg | hg
      · have hdead := hfin.dead y i u hu
        rw [hg] at hdead
        cases hdead
      · exact ⟨request, mem_executed.mpr
          ⟨i, u, hu, Task.executed?_eq_some.mpr ⟨hutid, .inr ⟨err, hg⟩⟩⟩⟩
    · obtain ⟨-, request, hrequest, -⟩ := hi.system.requests hu (by rw [hg]; rfl)
      exact ⟨request, mem_executed.mpr
        ⟨i, u, hu, Task.executed?_eq_some.mpr ⟨hutid, .inl ⟨hg, hrequest⟩⟩⟩⟩
  · rintro ⟨request, hmem⟩
    obtain ⟨i, u, hu, hexec⟩ := mem_executed.mp hmem
    obtain ⟨hutid, ⟨hg, -⟩ | ⟨err, hg⟩⟩ := Task.executed?_eq_some.mp hexec
    · refine ⟨i, u, hu, hutid, .inr ⟨hg, fun w hw => ?_⟩⟩
      -- No call waits any more, so the operation of this one is done.
      rw [hfin.waiting y (hi.system.members hu)] at hw
      cases hw
    · exact ⟨i, u, hu, hutid, .inl ⟨request, err, by rw [hg]; rfl⟩⟩

/-- In a settled state every host has applied the calls that were granted, and no others. -/
theorem FleetInv.applied_iff_granted (hi : FleetInv c s) (hfin : s.Settled c)
    (hy : y ∈ c.names) {e : EpochCall} (he : e.issued ∈ s.issued) :
    s.Applied y e.tid ↔ s.granted e = true := by
  obtain ⟨i, u, -, hu, hrep, hutid, -⟩ := hi.issued e.issued he
  have hhost : e.host ∈ c.names := hi.system.members hu
  -- What one host has carried out every host has carried out.
  have hall : (∃ request, (e.tid, request) ∈ (s.system.hosts y).executed) ↔
      ∃ request, (e.tid, request) ∈ (s.system.hosts e.host).executed := by
    simp only [hi.faultFree.mem_executed_iff hi.system ⟨hfin.dead, hfin.flight⟩ hy,
      hi.faultFree.mem_executed_iff hi.system ⟨hfin.dead, hfin.flight⟩ hhost]
  rw [hi.applied_iff_executed hfin, hall, Fleet.granted_iff]
  constructor
  · rintro ⟨request, hmem⟩
    obtain ⟨k, v, hv, hexec⟩ := mem_executed.mp hmem
    obtain ⟨hvtid, hdone⟩ := Task.executed?_eq_some.mp hexec
    have hsame := hi.faultFree.task_unique hi.system hv hu (hvtid.trans hutid.symm)
    subst hsame
    obtain rfl : v = u := Option.some.inj (hv.symm.trans hu)
    rcases hdone with ⟨hg, -⟩ | ⟨err, hg⟩
    · exact ⟨k, v, hv, hvtid, hg⟩
    · rw [hg] at hrep
      cases hrep
  · rintro ⟨k, v, hv, hvtid, hg⟩
    obtain ⟨-, request, hrequest, -⟩ := hi.system.requests hv (by rw [hg]; rfl)
    exact ⟨request, mem_executed.mpr
      ⟨k, v, hv, Task.executed?_eq_some.mpr ⟨hvtid, .inl ⟨hg, hrequest⟩⟩⟩⟩

/-- The state of the hosts at the end of a sequence of epochs. -/
structure Converged (sites : PeerName → Site) (c : Cluster) (proc : Process) (t : Store)
    (s : Fleet) (calls : List EpochCall) : Prop where
  inv : FleetInv c s
  issued : ∀ e ∈ calls, e.issued ∈ s.issued
  access : ∀ y ∈ c.names, Accessible (sites y).proc (s.tree y) (sites y).mirror.dir
  outline : ∀ y ∈ c.names, s.outline sites y =
    ((calls.filter s.granted).map EpochCall.op).foldl (MetadataCall.apply proc) t

/-- A call from before an epoch is granted at its end if it was so at its start. It had returned by
then, and results do not change. -/
private theorem granted_stable (hi : FleetInv c s) (hstart : s.Settled c) (hi' : FleetInv c s')
    (hext : s.system.Extends s'.system) {e : EpochCall} (he : e.issued ∈ s.issued) :
    s'.granted e = s.granted e := by
  obtain ⟨i, u, -, hu, hrep, hutid, -⟩ := hi.issued e.issued he
  obtain ⟨u', hu', htext⟩ := hext.tasks hu
  have hdead := hstart.dead e.host i u hu
  obtain ⟨r, hg⟩ : ∃ r, u.goroutine = .replicate (.returned r) := by
    cases hg : u.goroutine with
    | handle pc => simp [hg, Goroutine.isReplicate] at hrep
    | replicate pc =>
      cases pc with
      | returned r => exact ⟨r, rfl⟩
      | _ => simp [hg, Goroutine.alive] at hdead
  -- One id has one task on its host, so `granted` reads the result of this one.
  have hone : ∀ {s : Fleet} {u : Task}, FleetInv c s → s.system.task? e.host i = some u →
      u.trans.tid = e.tid → u.goroutine = .replicate (.returned r) →
      (s.granted e = true ↔ r = none) := by
    intro s u hi hu hutid hg
    rw [Fleet.granted_iff]
    constructor
    · rintro ⟨k, v, hv, hvtid, hgv⟩
      have hsame := hi.faultFree.task_unique hi.system hv hu (hvtid.trans hutid.symm)
      subst hsame
      obtain rfl : v = u := Option.some.inj (hv.symm.trans hu)
      rw [hg] at hgv
      cases hgv
      rfl
    · rintro rfl
      exact ⟨i, u, hu, hutid, hg⟩
  rw [Bool.eq_iff_iff, hone hi hu hutid hg,
    hone hi' hu' (htext.tid.trans hutid) (TaskExtends.returned htext hg)]

/-- An epoch carries out the calls that are granted in it, on the files of all hosts. In the next
epoch they start from equal files again. -/
theorem Converged.epoch (hu : Uniform sites c proc) (h : Converged sites c proc t s calls)
    {new : List EpochCall} (hepoch : s.Epoch sites c s' new) :
    Converged sites c proc t s' (calls ++ new) := by
  obtain ⟨ls, hrun⟩ := hepoch.reaches
  -- All hosts start with one outline, which the new calls fit.
  obtain ⟨t', ht'⟩ : ∃ t', t' =
      ((calls.filter s.granted).map EpochCall.op).foldl (MetadataCall.apply proc) t := ⟨_, rfl⟩
  have hinv : EpochInv sites c proc t' s s' := by
    refine run_invariant (fun m l m' hstep hm => hm.step h.inv hepoch.start hu hstep) hrun ?_
    exact EpochInv.start h.inv hepoch.start fun y hy => ⟨ht' ▸ h.outline y hy, h.access y hy⟩
  have hnew : ∀ e ∈ new, e.issued ∈ s'.issued := by
    intro e he
    rw [hepoch.issued]
    exact List.mem_append_right _ (List.mem_map_of_mem he)
  have hcalls : EpochCalls sites t' new := by
    refine ⟨hepoch.apart, fun e he => ?_⟩
    obtain ⟨i, u, -, hut, -⟩ := hinv.inv.issued e.issued (hnew e he)
    rw [ht', ← h.outline e.host (hinv.inv.system.members hut)]
    exact hepoch.fits e he
  have hold : calls.filter s'.granted = calls.filter s.granted :=
    List.filter_congr fun e he =>
      granted_stable h.inv hepoch.start hinv.inv hinv.later (h.issued e he)
  refine ⟨hinv.inv, fun e he => ?_, fun y hy => (hinv.hosts new hepoch.issued hcalls y hy).access,
    fun y hy => ?_⟩
  · rcases List.mem_append.mp he with hcall | hcall
    · exact hinv.grown.subset (h.issued e hcall)
    · exact hnew e hcall
  · obtain ⟨done, hnodup, hmem, houtline⟩ :=
      (hinv.hosts new hepoch.issued hcalls y hy).applied
    -- The order in which this host has applied the calls does not matter.
    have hperm : done.Perm (new.filter s'.granted) := by
      rw [List.perm_ext_iff_of_nodup hnodup
        ((hinv.inv.nodup_calls hepoch.issued).of_map.filter _)]
      intro e
      rw [hmem, List.mem_filter]
      exact and_congr_right fun he =>
        hinv.inv.applied_iff_granted hepoch.finish hy (hnew e he)
    have hpair : (new.filter s'.granted).Pairwise fun e e' => e.op.Apart e'.op :=
      hepoch.apart.sublist List.filter_sublist
    have hplain : ∀ l ∈ (new.filter s'.granted).map EpochCall.op,
        t'.Plain l.op.follows l.object := by
      intro l hl
      obtain ⟨e, he, rfl⟩ := List.mem_map.mp hl
      exact (hcalls.fits e (List.mem_of_mem_filter he)).1
    rw [houtline, List.filter_append, List.map_append, List.foldl_append, hold, ← ht']
    exact (MetadataCall.foldl_apply_perm (hperm.symm.map EpochCall.op) hplain
      (List.pairwise_map.mpr hpair)).symm

end Runs

/-- Take hosts with the same umask and privileges, whose mirror directories start with the same
outline and are accessible to them. After any sequence of epochs, with any calls at the same time in
each of them and any interleaving, the outline of every mirror directory is the one of a single file
system on which the calls were carried out that `Replicate` permitted, one after the other. -/
theorem fleet_converges (sites : PeerName → Site) (c : Cluster) (proc : Process)
    (hu : Uniform sites c proc) (clocks : PeerName → UInt64) (disks : PeerName → Disk) (t : Store)
    (hdisks : ∀ y ∈ c.names, (disks y).tree.1.outline (sites y).mirror.dir = t ∧
      Accessible (sites y).proc (disks y).tree.1 (sites y).mirror.dir)
    {s : Fleet} {calls : List EpochCall}
    (h : Fleet.Epochs sites c (Fleet.init c clocks disks) s calls) {y : PeerName}
    (hy : y ∈ c.names) :
    s.outline sites y =
      ((calls.filter s.granted).map EpochCall.op).foldl (MetadataCall.apply proc) t := by
  suffices hconv : Converged sites c proc t s calls from hconv.outline y hy
  clear hy
  -- Induction on the epochs.
  induction h with
  | none =>
    exact ⟨.init c clocks disks, nofun, fun y hy => (hdisks y hy).2, fun y hy => (hdisks y hy).1⟩
  | more h hepoch ih => exact ih.epoch hu hepoch

/-- Two hosts with plain system calls of privileged processes. -/
def rootSites : PeerName → Site :=
  fun _ => ⟨someMirror, rootProcess, posixLoopback someMirror rootProcess⟩

def variedFleet : Fleet := Fleet.init duo (fun _ => 0) fun _ => { tree := variedTree }

/-- A call of each host. -/
def sideCalls : List EpochCall :=
  [⟨"a", "t", ⟨[dirEntry], .mkdir newEntry 0o755, by decide⟩⟩,
    ⟨"b", "u", ⟨[], .unlink linkEntry, by decide⟩⟩]

/-- A call up to the broadcast of its request. -/
def EpochCall.begins (e : EpochCall) (peer : PeerName) : List FleetLabel :=
  [.call e.host e.op.call, .replicate e.host 0 e.tid, .network (.host e.host (.task 0 .run)),
    .network (.host e.host (.task 0 (reaching [peer])))]

/-- The peer hears of the request and votes. -/
def EpochCall.answered (e : EpochCall) (peer : PeerName) (request : Request) : List FleetLabel :=
  (hears peer (newRequestMessage e.tid e.host request)).map .network ++
    [.consult peer 1, .network (.host peer (.task 1 .run)),
      .network (.host peer (.task 1 (reaching [e.host])))]

/-- The call gets its answer, and the peer makes the change. -/
def EpochCall.ends (e : EpochCall) (peer : PeerName) : List FleetLabel :=
  (hears e.host (newResponseMessage e.tid peer ack)).map .network ++
    [.network (.host e.host (.task 0 .run)), .network (.host e.host (.task 0 .run)),
      .resume e.host 0, .network (.host peer (.task 1 .run)), .mirror peer 1,
      .network (.host peer (.task 1 .run))]

/-- Both calls at the same time. -/
def sideRun : List FleetLabel :=
  match sideCalls with
  | [e, e'] =>
    e.begins "b" ++ e'.begins "a" ++
      e.answered "b"
        { type := .mkdir, metadata := some { relativePath := "d/g", mode := 0o755 } } ++
      e'.answered "a" { type := .unlink, metadata := some { relativePath := "l" } } ++
      e.ends "b" ++ e'.ends "a"
  | _ => []

/-- After `sideRun` both mirror directories have the new directory and no longer the link. The two
calls are on unrelated paths and run side by side. -/
theorem fleet_converges_sideRun :
    ∃ s, Fleet.Epochs rootSites duo variedFleet s sideCalls ∧ ∀ y ∈ duo.names,
      s.outline rootSites y = (sideCalls.map EpochCall.op).foldl (MetadataCall.apply rootProcess)
        (variedTree.1.outline ["m"]) := by
  have hrun : (run (Fleet.stepEpoch rootSites duo) variedFleet sideRun).any (fun s => s.quiet duo &&
      (sideCalls.all s.granted && decide (s.issued = sideCalls.map EpochCall.issued))) = true := by
    decide
  obtain ⟨s, hs, hobs⟩ := Reaches.of_any _ _ _ hrun
  simp only [Bool.and_eq_true, decide_eq_true_eq] at hobs
  obtain ⟨hquiet, hgranted, hissued⟩ := hobs
  have hstart : FleetInv duo variedFleet := .init duo _ _
  have hend : FleetInv duo s :=
    Reaches.invariant (fun _ _ _ hstep hi => FleetInv.step hi hstep) (Reaches.of_restrict hs) hstart
  -- The run is one epoch. Its calls are on unrelated paths and fit the tree, which can be computed.
  have hepochs : Fleet.Epochs rootSites duo variedFleet s sideCalls :=
    .more .none ⟨hstart.toCallsInv.settled (by decide), hs, hend.toCallsInv.settled hquiet, hissued,
      by decide, by decide⟩
  have haccess : Accessible rootProcess variedTree.1 ["m"] := by decide
  have hsites : Uniform rootSites duo rootProcess :=
    ⟨fun _ _ => rfl, fun _ _ => rfl, fun _ _ => posixLoopback_posixEntries _ _,
      fun _ _ => posixLoopback_lawful _ _⟩
  refine ⟨s, hepochs, fun y hy => ?_⟩
  rw [fleet_converges rootSites duo rootProcess hsites (fun _ => 0)
    (fun _ => { tree := variedTree }) (variedTree.1.outline ["m"]) (fun _ _ => ⟨rfl, haccess⟩)
    hepochs hy, List.filter_eq_self.mpr]
  exact List.all_eq_true.mp hgranted

end ReplicatedFs.Rfs
