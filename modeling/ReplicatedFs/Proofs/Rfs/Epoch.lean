import ReplicatedFs.Proofs.Rfs.Applied
import ReplicatedFs.Proofs.Rfs.Parallel

/-!
# `ReplicatedFs.Proofs.Rfs.Epoch`: the mirror directories in the middle of an epoch

An epoch is a run without faults in which the hosts make calls at the same time, on unrelated paths,
each of which `MetadataCall.Fits`. While it lasts, the hosts have carried out different parts of it,
in different orders.

`HostEpoch` is what can be said about one host then: the outline of its mirror directory is the one
at the start of the epoch, with the calls that the host has applied so far, in some order. The order
does not matter, since calls on unrelated paths commute. `EpochInv` is this for all hosts, together
with what links the tasks of the epoch to its calls. It is stated for any list of calls that the
fleet has issued, because the list grows while the epoch goes on.

* `HostEpoch.extend`: a host applies one more call.
* `EpochInv.start`, `EpochInv.step`: the invariant holds at the start, and every step keeps it.
-/

set_option autoImplicit false

namespace ReplicatedFs.Rfs

open Library Library.Posix Protobuf P2p

/-- A FUSE call of an epoch. -/
structure EpochCall where
  host : PeerName
  tid : TransactionID
  op : MetadataCall

/-- The call as the fleet records it. -/
def EpochCall.issued (e : EpochCall) : FleetCall := ⟨e.host, e.tid, e.op.call⟩

/-- The calls are on unrelated paths, and each of them fits the outline at the start. -/
structure EpochCalls (sites : PeerName → Site) (t : Store) (calls : List EpochCall) : Prop where
  apart : calls.Pairwise fun e e' => e.op.Apart e'.op
  fits : ∀ e ∈ calls, e.op.Fits (sites e.host).proc t

/-- The hosts have the same umask and the same privileges as `proc`, and their go-fuse makes the
system calls. -/
structure Uniform (sites : PeerName → Site) (c : Cluster) (proc : Process) : Prop where
  umask : ∀ x ∈ c.names, (sites x).proc.umask = proc.umask
  privileged : ∀ x ∈ c.names, (sites x).proc.privileged = proc.privileged
  entries : ∀ x ∈ c.names, (sites x).loopback.PosixEntries (sites x).mirror (sites x).proc
  lawful : ∀ x ∈ c.names, (sites x).loopback.Lawful

/-- The files of a host. -/
def Fleet.tree (s : Fleet) (y : PeerName) : Store := (s.mounts y).disk.tree.1

/-- The outline of the mirror directory of a host. -/
def Fleet.outline (sites : PeerName → Site) (s : Fleet) (y : PeerName) : Store :=
  (s.tree y).outline (sites y).mirror.dir

/-- The mirror directory of a host in an epoch that started with the outline `t`: it has the calls
behind it that the host has applied. -/
structure HostEpoch (sites : PeerName → Site) (proc : Process) (t : Store)
    (calls : List EpochCall) (s : Fleet) (y : PeerName) : Prop where
  access : Accessible (sites y).proc (s.tree y) (sites y).mirror.dir
  applied : ∃ done : List EpochCall, done.Nodup ∧
    (∀ e, e ∈ done ↔ e ∈ calls ∧ s.Applied y e.tid) ∧
    s.outline sites y = (done.map EpochCall.op).foldl (MetadataCall.apply proc) t

section Host
variable {sites : PeerName → Site} {c : Cluster} {proc : Process} {t : Store}
  {calls : List EpochCall} {s s' : Fleet} {y : PeerName}

/-- A step that neither changes the files of the host nor applies anything there. -/
theorem HostEpoch.congr (h : HostEpoch sites proc t calls s y) (htree : s'.tree y = s.tree y)
    (happlied : ∀ e ∈ calls, s'.Applied y e.tid ↔ s.Applied y e.tid) :
    HostEpoch sites proc t calls s' y := by
  obtain ⟨done, hnodup, hmem, houtline⟩ := h.applied
  refine ⟨by rw [htree]; exact h.access, done, hnodup, fun e => ?_, ?_⟩
  · rw [hmem]
    exact and_congr_right fun he => (happlied e he).symm
  · rw [Fleet.outline, htree]
    exact houtline

/-- The files of the host get the edit of one more call. The calls of an epoch are independent, so
it does not matter which of them came before. The call still fits the files after the others, and
does to them what it would have done at the start. -/
theorem HostEpoch.extend (hcalls : EpochCalls sites t calls)
    (hunique : (calls.map EpochCall.tid).Nodup) (hu : Uniform sites c proc) (hy : y ∈ c.names)
    (h : HostEpoch sites proc t calls s y)
    {e : EpochCall} (he : e ∈ calls) (hnot : ¬ s.Applied y e.tid)
    (happlied : ∀ tid, s'.Applied y tid ↔ s.Applied y tid ∨ tid = e.tid)
    (hshape : (s.outline sites y).Plain e.op.op.follows e.op.object →
      (e.host = y → e.op.op.portable (sites y).proc (s.tree y)
        ((sites y).mirror.dir ++ e.op.object) = true) →
      (s'.tree y).SameShape ((e.op.op.edit (sites y).proc (s.tree y)
        ((sites y).mirror.dir ++ e.op.object)).apply (s.tree y))) :
    HostEpoch sites proc t calls s' y := by
  obtain ⟨done, hnodup, hmem, houtline⟩ := h.applied
  have hsub : ∀ k ∈ done, k ∈ calls := fun k hk => ((hmem k).mp hk).1
  have hnew : e ∉ done := fun hk => hnot ((hmem e).mp hk).2
  -- Two calls of the epoch are on unrelated paths.
  have hapart : ∀ k ∈ calls, ∀ k' ∈ calls, k ≠ k' → k.op.Apart k'.op := by
    have hsymm : Std.Symm fun e e' : EpochCall => e.op.Apart e'.op := ⟨fun _ _ h => h.symm⟩
    exact fun k hk k' hk' => hcalls.apart.forall hk hk'
  have hplain : ∀ l ∈ done.map EpochCall.op, t.Plain l.op.follows l.object := by
    intro l hl
    obtain ⟨k, hk, rfl⟩ := List.mem_map.mp hl
    exact (hcalls.fits k (hsub k hk)).1
  have hpair : (done.map EpochCall.op).Pairwise MetadataCall.Apart := by
    rw [List.pairwise_map]
    exact hnodup.pairwise_of_forall_ne fun k hk k' hk' =>
      hapart k (hsub k hk) k' (hsub k' hk')
  have hothers : ∀ l ∈ done.map EpochCall.op, l.Apart e.op := by
    intro l hl
    obtain ⟨k, hk, rfl⟩ := List.mem_map.mp hl
    exact hapart k (hsub k hk) e he fun heq => hnew (heq ▸ hk)
  -- So the call still fits, and does to this outline what it does to any.
  have hfits := (hcalls.fits e he).foldl proc hplain hpair hothers
  rw [← houtline] at hfits
  obtain ⟨hafter, haccess⟩ := e.op.apply_of_sameShape h.access (sites y).mirror.normal hfits.1
    (hshape hfits.1 fun hhost => by
      subst hhost
      exact e.op.portable_outline h.access (sites e.host).mirror.normal hfits)
  have hproc : e.op.apply (sites y).proc (s.outline sites y) =
      e.op.apply proc (s.outline sites y) := by
    unfold MetadataCall.apply
    rw [Operation.edit_eq_of_may (hu.umask y hy) fun bit mode => by
      rw [Process.may, Process.may, hu.privileged y hy]]
  refine ⟨haccess, done ++ [e], ?_, fun k => ?_, ?_⟩
  · exact hnodup.append (List.nodup_singleton e) (by simpa using hnew)
  · rw [List.mem_append, List.mem_singleton, hmem, happlied]
    constructor
    · rintro (⟨hk, hdone⟩ | rfl)
      · exact ⟨hk, .inl hdone⟩
      · exact ⟨he, .inr rfl⟩
    · rintro ⟨hk, hdone | htid⟩
      · exact .inl ⟨hk, hdone⟩
      · exact .inr (List.inj_on_of_nodup_map hunique hk he htid)
  · rw [List.map_append, List.foldl_append, ← houtline]
    exact hafter.trans hproc

end Host

/-- The label is a call that changes files without asking. -/
def FleetLabel.direct : FleetLabel → Bool
  | .call _ c => c.direct
  | _ => false

/-- The fault-free steps of an epoch: no call changes files without asking. -/
def Fleet.stepEpoch (sites : PeerName → Site) (c : Cluster) :
    Fleet → FleetLabel → Option Fleet :=
  restrict (Fleet.stepFF sites c) fun _ l => !l.direct

/-- The invariant of an epoch that started in `s₀` with the outline `t`. -/
structure EpochInv (sites : PeerName → Site) (c : Cluster) (proc : Process) (t : Store)
    (s₀ s : Fleet) : Prop where
  inv : FleetInv c s
  later : s₀.system.Extends s.system
  grown : s₀.issued <+: s.issued
  refs : ∀ x, ∀ w ∈ s.waiting x, (s₀.system.hosts x).tasks.length ≤ w.ref
  hosts : ∀ calls, s.issued = s₀.issued ++ calls.map EpochCall.issued →
    EpochCalls sites t calls → ∀ y ∈ c.names, HostEpoch sites proc t calls s y

section Epoch
variable {sites : PeerName → Site} {c : Cluster} {proc : Process} {t : Store} {s₀ s s' : Fleet}
  {calls : List EpochCall} {x y : PeerName}

/-- Every task has its call among those that were issued. A handler has the id of the call that it
answers. -/
private theorem FleetInv.call_of_task (hi : FleetInv c s) {j : Nat} {v : Task}
    (hv : s.system.task? y j = some v) :
    ∃ x call, ⟨x, v.trans.tid, call⟩ ∈ s.issued := by
  cases hrep : v.goroutine.isReplicate with
  | true =>
    obtain ⟨call, hcall⟩ := hi.called hv hrep
    exact ⟨y, call, hcall⟩
  | false =>
    obtain ⟨x, i, u, hu, hurep, htid, -⟩ := hi.faultFree.caller hi.system hv hrep
    obtain ⟨call, hcall⟩ := hi.called hu hurep
    rw [← htid] at hcall
    exact ⟨x, call, hcall⟩

/-- A task that is alive belongs to a call of the epoch. At the start of the epoch all tasks were
over, and an id that was over does not come back. -/
private theorem EpochInv.call_of_alive (h : EpochInv sites c proc t s₀ s) (h₀ : FleetInv c s₀)
    (hstart : s₀.Settled c) (hissued : s.issued = s₀.issued ++ calls.map EpochCall.issued)
    {j : Nat} {v : Task} (hv : s.system.task? y j = some v) (halive : v.goroutine.alive = true) :
    ∃ e ∈ calls, e.tid = v.trans.tid := by
  obtain ⟨x, call, hmem⟩ := h.inv.call_of_task hv
  rw [hissued] at hmem
  rcases List.mem_append.mp hmem with hold | hnew
  · -- A call from before the epoch has no task that is alive.
    obtain ⟨i, u, -, hu, hurep, htid, -⟩ := h₀.issued _ hold
    have := no_revival h₀.system h₀.faultFree hstart.dead h.inv.system h.inv.faultFree h.later hu
      hurep hv htid.symm
    rw [halive] at this
    cases this
  · obtain ⟨e, he, hsame⟩ := List.mem_map.mp hnew
    exact ⟨e, he, congrArg FleetCall.tid hsame⟩

/-- A call that waits belongs to the epoch, since no call waits at its start. -/
private theorem EpochInv.call_of_waiting (h : EpochInv sites c proc t s₀ s) (h₀ : FleetInv c s₀)
    (hissued : s.issued = s₀.issued ++ calls.map EpochCall.issued) {w : Waiting}
    (hw : w ∈ s.waiting x) {v : Task} (hv : s.system.task? x w.ref = some v) :
    ∃ e ∈ calls, e.host = x ∧ e.tid = v.trans.tid ∧ e.op.call = w.call := by
  obtain ⟨v', hv', hrep, hmem⟩ := h.inv.waiting x w hw
  obtain rfl : v = v' := Option.some.inj (hv.symm.trans hv')
  rw [hissued] at hmem
  rcases List.mem_append.mp hmem with hold | hnew
  · -- A call from before the epoch has an earlier task.
    exfalso
    obtain ⟨i, u, -, hu, hurep, htid, -⟩ := h₀.issued _ hold
    obtain ⟨u', hu', hext⟩ := h.later.tasks hu
    obtain ⟨-, rfl⟩ := h.inv.system.initiators hu' hv (hext.kind.trans hurep) hrep
      (hext.tid.trans htid)
    have hlt : w.ref < (s₀.system.hosts x).tasks.length := lt_length_of_getElem? hu
    have hle := h.refs x w hw
    omega
  · obtain ⟨e, he, hsame⟩ := List.mem_map.mp hnew
    exact ⟨e, he, congrArg FleetCall.host hsame, congrArg FleetCall.tid hsame,
      congrArg FleetCall.call hsame⟩

/-- The ids of the calls of an epoch are distinct. A new id is always unused in the model. -/
theorem FleetInv.nodup_calls (hi : FleetInv c s)
    (hissued : s.issued = s₀.issued ++ calls.map EpochCall.issued) :
    (calls.map EpochCall.tid).Nodup := by
  have hunique := hi.unique
  rw [hissued, List.map_append, List.map_map] at hunique
  exact hunique.of_append_right

/-- A call that asks nobody does not change the files, unless it is a direct one. The direct ones
are the operations that rfs leaves to go-fuse without a question. In an epoch they are excluded, as
they would make the files of the hosts differ. -/
private theorem alone_tree (hu : Uniform sites c proc) (hx : x ∈ c.names) {call : Call}
    {mount : Mount} {errno : Option Errno} (hdirect : call.direct = false)
    (hasks : (s.mounts x).asks (sites x).mirror (sites x).proc call = none)
    (hcall : (s.mounts x).call (sites x).mirror (sites x).proc (sites x).loopback none call =
      some (.ok (mount, errno))) : mount.disk.tree = (s.mounts x).disk.tree := by
  cases hreq : (s.mounts x).request? call with
  | some req =>
    -- The local `Mirror.Consult` was against it.
    obtain ⟨onward, -, hpermitted⟩ :=
      (s.mounts x).call_eq_onward (sites x).mirror (sites x).proc (sites x).loopback hreq
    rw [hpermitted none, Option.some.injEq] at hcall
    rcases Mount.permitted_cases hreq hcall with ⟨-, hmount, -⟩ | ⟨hsome, -⟩
    · rw [show mount = s.mounts x from hmount]
    · rw [hasks] at hsome
      cases hsome
  | none =>
    rw [Mount.call_of_request?_none hreq] at hcall
    exact congrArg Prod.fst (Mount.alone_contents (hu.lawful x hx) hdirect hcall)

/-- The files of the hosts other than `x`. A step of one host does not touch the mounts of the
others. -/
private theorem tree_update {mount : Mount} (hmounts : s'.mounts = Function.update s.mounts x mount)
    (hy : y ≠ x) : s'.tree y = s.tree y := by
  unfold Fleet.tree
  rw [hmounts, Function.update_of_ne hy]

/-- A step of the network that has nothing to do with files: neither a call starts nor a
`Mirror.Mirror` returns. -/
private theorem HostEpoch.network (hi : FleetInv c s) {a : Action}
    (hstep : s.system.step c a = some s'.system) (hcall : a.isCall = false)
    (hmirrored : ∀ i err, a ≠ .host y (.task i (.mirrored err)))
    (hwaiting : s'.waiting = s.waiting) (hmounts : s'.mounts = s.mounts)
    (h : HostEpoch sites proc t calls s y) : HostEpoch sites proc t calls s' y := by
  refine h.congr (by rw [Fleet.tree, hmounts]; rfl) fun e _ =>
    ⟨fun happlied => ?_, fun happlied => ?_⟩
  · rcases hi.applied_of_step s' hstep hcall hwaiting happlied with hold | ⟨i, v, err, -, -, ha⟩
    · exact hold
    · exact absurd ha (hmirrored i err)
  · exact happlied.mono (System.step_move hstep).extends fun w hw => .inl (by rwa [hwaiting] at hw)

/-- A call of the host goes on with its permission. This is how its edit gets to the files of its
own host. The call was granted when its `Replicate` returned, and from now on it counts as applied
here. -/
private theorem HostEpoch.resume (h : EpochInv sites c proc t s₀ s) (h₀ : FleetInv c s₀)
    (hu : Uniform sites c proc)
    (hissued : s.issued = s₀.issued ++ calls.map EpochCall.issued)
    (hcalls : EpochCalls sites t calls) {ref : Nat} {w : Waiting} {v : Task} {mount : Mount}
    {errno : Option Errno} (hw : w ∈ s.waiting x) (href : w.ref = ref)
    (hv : s.system.task? x ref = some v) (hg : v.goroutine = .replicate (.returned none))
    (honward : (s.mounts x).onward (sites x).mirror (sites x).proc (sites x).loopback w.call =
      some (mount, errno)) (hy : y ∈ c.names) :
    HostEpoch sites proc t calls { s with
      mounts := Function.update s.mounts x mount
      waiting := Function.update s.waiting x ((s.waiting x).filter (·.ref ≠ ref)) } y := by
  have hhost := h.hosts calls hissued hcalls y hy
  have happlied := fun tid => Fleet.applied_answered (y := y) tid { s with
    mounts := Function.update s.mounts x mount
    waiting := Function.update s.waiting x ((s.waiting x).filter (·.ref ≠ ref)) } hv hg rfl rfl
  by_cases hyx : y = x
  · subst hyx
    subst href
    obtain ⟨e, he, hhostname, htid, hcall⟩ := h.call_of_waiting h₀ hissued hw hv
    refine hhost.extend hcalls (h.inv.nodup_calls hissued) hu hy he ?_ (fun tid => ?_)
      fun hplain hport => ?_
    · -- It has waited until now.
      rintro ⟨i, u, hut, hutid, hdone⟩
      have hsame := h.inv.faultFree.task_unique h.inv.system hut hv (hutid.trans htid)
      subst hsame
      obtain rfl : u = v := Option.some.inj (hut.symm.trans hv)
      rcases hdone with ⟨request, err, hout⟩ | ⟨-, hnot⟩
      · rw [hg] at hout
        cases hout
      · exact hnot w hw rfl
    · rw [happlied, htid]
      simp [eq_comm]
    · rw [← hcall] at honward
      have hshape := Mount.onward_sameShape (hu.entries y hy) (hport hhostname) honward
      simpa [Fleet.tree] using hshape
  · refine hhost.congr (tree_update rfl hyx) fun e _ => ?_
    rw [happlied]
    simp [hyx]

/-- A handler of the host calls `Mirror.Mirror`. This is how the edits of the calls of other hosts
get to its files. The handler is there because the call was granted. It belongs to a call of this
epoch, since the tasks of earlier ones have ended for good. -/
private theorem HostEpoch.mirror (h : EpochInv sites c proc t s₀ s) (h₀ : FleetInv c s₀)
    (hstart : s₀.Settled c) (hu : Uniform sites c proc)
    (hissued : s.issued = s₀.issued ++ calls.map EpochCall.issued)
    (hcalls : EpochCalls sites t calls) {ref : Nat} {v : Task} {request : Request}
    {mount : Mount} {err : Option String} {system : System}
    (hv : s.system.task? x ref = some v) (hg : v.goroutine = .handle (.mirror (some request)))
    (hmirror : (s.mounts x).mirrored (sites x).mirror (sites x).proc request = .ok (mount, err))
    (hstep : s.system.step c (.host x (.task ref (.mirrored err))) = some system)
    (hy : y ∈ c.names) :
    HostEpoch sites proc t calls
      { s with system, mounts := Function.update s.mounts x mount } y := by
  have hhost := h.hosts calls hissued hcalls y hy
  by_cases hyx : y = x
  · subst hyx
    obtain ⟨e, he, htid⟩ := h.call_of_alive h₀ hstart hissued hv (by rw [hg]; rfl)
    -- The request is the one of the call.
    obtain ⟨i, u, m, hut, hurep, hutid, hrequest⟩ := h.inv.issued e.issued
      (by rw [hissued]; exact List.mem_append_right _ (List.mem_map_of_mem he))
    have hne : y ≠ e.issued.host := by
      intro heq
      rw [← heq] at hut
      exact h.inv.faultFree.apart hut hv hurep (by rw [hg]; rfl) (hutid.trans htid)
    have hsame := h.inv.system.mirror_request hut hurep hv (htid.symm.trans hutid.symm) hne
      (show v.goroutine.mirrorCall? = some (some request) by rw [hg]; rfl)
    rw [← hsame] at hrequest
    refine hhost.extend hcalls (h.inv.nodup_calls hissued) hu hy he ?_ (fun tid => ?_)
      fun hplain _ => ?_
    · rintro ⟨k, u', hu', hutid', hdone⟩
      have hk := h.inv.faultFree.task_unique h.inv.system hu' hv (hutid'.trans htid)
      subst hk
      obtain rfl : u' = v := Option.some.inj (hu'.symm.trans hv)
      rw [hg] at hdone
      rcases hdone with ⟨r, err', hout⟩ | ⟨hcontra, -⟩
      · cases hout
      · cases hcontra
    · constructor
      · intro happlied
        rcases h.inv.applied_of_step { s with
          system, mounts := Function.update s.mounts y mount } hstep rfl rfl happlied with
          hold | ⟨k, u', err', hu', hutid', ha⟩
        · exact .inl hold
        · cases ha
          obtain rfl : u' = v := Option.some.inj (hu'.symm.trans hv)
          exact .inr (hutid'.symm.trans htid.symm)
      · rintro (hold | rfl)
        · exact hold.mono (System.step_move hstep).extends fun w hw => .inl hw
        · -- The handler is past its call of `Mirror.Mirror`.
          have hm := System.step_move hstep
          obtain ⟨v', hv', hext⟩ := hm.extends.tasks hv
          refine ⟨ref, v', hv', hext.tid.trans htid.symm, .inl ⟨request, err, ?_⟩⟩
          cases hm with
          | host x e h' sent hx ha hp hmove =>
            cases hmove with
            | task ref input v₀ move hv₀ htask =>
              obtain rfl : v₀ = v := Option.some.inj (hv₀.symm.trans hv)
              rw [task?_update_self] at hv'
              obtain rfl := Option.some.inj ((getElem?_set_self hv₀).symm.trans hv')
              cases htask with
              | mirror request' err' hg' =>
                rw [hg] at hg'
                cases hg'
                rfl
            | panic ref input v₀ p hv₀ hpanic =>
              obtain rfl : v₀ = v := Option.some.inj (hv₀.symm.trans hv)
              simp [Task.step, hg, handleStep] at hpanic
    · obtain ⟨edit, hchange, htree⟩ := Mount.mirrored_of_ok hmirror
      have hedit := Mirror.change_edit hrequest hchange
      simp only [Fleet.tree, Function.update_self]
      rw [htree, hedit]
      exact fun _ => rfl
  · refine hhost.congr (tree_update rfl hyx) fun e _ => ⟨fun happlied => ?_, fun happlied => ?_⟩
    · rcases h.inv.applied_of_step { s with
        system, mounts := Function.update s.mounts x mount } hstep rfl rfl happlied with
        hold | ⟨k, u', err', hu', hutid', ha⟩
      · exact hold
      · cases ha
        exact absurd rfl hyx
    · exact happlied.mono (System.step_move hstep).extends fun w hw => .inl hw

/-- The calls of an epoch before its last one. The list of issued calls grows at its end. -/
private theorem calls_concat {last : FleetCall} {rest : List FleetCall}
    (h : rest ++ [last] = calls.map EpochCall.issued) :
    ∃ before e, calls = before ++ [e] ∧ rest = before.map EpochCall.issued ∧
      e.issued = last := by
  obtain ⟨before, after, rfl, hbefore, hafter⟩ := List.map_eq_append_iff.mp h.symm
  obtain ⟨e, rfl, he⟩ := List.map_eq_singleton_iff.mp hafter
  exact ⟨before, e, rfl, hbefore.symm, he⟩

/-- The host has at least as many tasks as before, so a new task has an index that no old one
has. -/
private theorem length_tasks_le (h : s₀.system.Extends s.system) (x : PeerName) :
    (s₀.system.hosts x).tasks.length ≤ (s.system.hosts x).tasks.length := by
  by_contra hlt
  obtain ⟨u, hu⟩ : ∃ u, s₀.system.task? x (s.system.hosts x).tasks.length = some u :=
    ⟨_, List.getElem?_eq_getElem (by omega)⟩
  obtain ⟨u', hu', -⟩ := h.tasks hu
  simp [System.task?] at hu'

/-- A call starts. It is a new one of the epoch, with a new id, so that nothing of it is applied
anywhere. `hcalls` says that it is independent of the calls that were made before it in the
epoch. -/
private theorem HostEpoch.replicate (h : EpochInv sites c proc t s₀ s) {index : Nat}
    {tid : TransactionID} {a : Asking} {system : System}
    (hstep : s.system.step c (.host x (.replicate tid a.request)) = some system)
    (hissued : s.issued ++ [⟨x, tid, a.call⟩] = s₀.issued ++ calls.map EpochCall.issued)
    (hcalls : EpochCalls sites t calls) (hy : y ∈ c.names) :
    HostEpoch sites proc t calls { s with
      system
      asking := Function.update s.asking x ((s.asking x).eraseIdx index)
      waiting := Function.update s.waiting x
        (s.waiting x ++ [⟨(s.system.hosts x).tasks.length, a.call⟩])
      issued := s.issued ++ [⟨x, tid, a.call⟩] } y := by
  obtain ⟨rest, hrest⟩ := h.grown
  rw [← hrest, List.append_assoc, List.append_cancel_left_eq] at hissued
  obtain ⟨before, e, rfl, rfl, he⟩ := calls_concat hissued
  have hbefore : EpochCalls sites t before :=
    ⟨(List.pairwise_append.mp hcalls.apart).1,
      fun k hk => hcalls.fits k (List.mem_append_left _ hk)⟩
  obtain ⟨haccess, done, hnodup, hmem, houtline⟩ := h.hosts before hrest.symm hbefore y hy
  refine ⟨haccess, done, hnodup, fun k => ?_, houtline⟩
  rw [Fleet.applied_replicate hstep rfl, hmem, List.mem_append, List.mem_singleton]
  refine ⟨fun ⟨hk, hdone⟩ => ⟨.inl hk, hdone⟩, fun ⟨hk, hdone⟩ => ⟨?_, hdone⟩⟩
  rcases hk with hk | rfl
  · exact hk
  · -- The id of the new call is not in use.
    obtain ⟨i, u, hu, hutid, -⟩ := hdone
    have htid : k.tid = tid := congrArg FleetCall.tid he
    cases System.step_move hstep with
    | host x ev h' sent hx hadmits hp hm =>
      simp only [System.admits, Bool.and_eq_true, Bool.not_eq_true'] at hadmits
      exact absurd (hutid.trans htid) (h.inv.system.fresh_tid hadmits.1 hu)

/-- The start of an epoch. Nothing has been applied, and the outlines are those of the start. That
all hosts have the same outline is what the epoch before has left, or the condition on the files at
the beginning. -/
theorem EpochInv.start (h₀ : FleetInv c s₀) (hstart : s₀.Settled c)
    (houtline : ∀ y ∈ c.names, s₀.outline sites y = t ∧
      Accessible (sites y).proc (s₀.tree y) (sites y).mirror.dir) :
    EpochInv sites c proc t s₀ s₀ where
  inv := h₀
  later := .refl _
  grown := List.prefix_refl _
  refs x w hw := by
    obtain ⟨v, hv, -⟩ := h₀.waiting x w hw
    -- No call waits at the start.
    rw [hstart.waiting x (h₀.system.members hv)] at hw
    cases hw
  hosts calls hissued _ y hy := by
    obtain rfl : calls = [] := by simpa using hissued
    exact ⟨(houtline y hy).2, [], List.nodup_nil, by simp, (houtline y hy).1⟩

/-- Every step of an epoch keeps the invariant. Each host is looked at on its own, and most steps
leave its files alone. Those that do not are a call that goes on at its own host, and a handler that
mirrors the request at another one. -/
theorem EpochInv.step (h₀ : FleetInv c s₀) (hstart : s₀.Settled c) (hu : Uniform sites c proc)
    (h : EpochInv sites c proc t s₀ s) {l : FleetLabel}
    (hstep : s.stepEpoch sites c l = some s') : EpochInv sites c proc t s₀ s' := by
  obtain ⟨htame, hff⟩ := restrict_eq_some.mp hstep
  have hinv := h.inv.step hff
  obtain ⟨-, hmove⟩ := restrict_eq_some.mp hff
  -- The answer to a call takes it out of the waiting ones.
  have hleft : ∀ {x ref y w}, w ∈ Function.update s.waiting x
      ((s.waiting x).filter (·.ref ≠ ref)) y → (s₀.system.hosts y).tasks.length ≤ w.ref := by
    intro x ref y w hw
    by_cases hy : y = x
    · subst hy
      rw [Function.update_self] at hw
      exact h.refs y w (List.mem_of_mem_filter hw)
    · rw [Function.update_of_ne hy] at hw
      exact h.refs y w hw
  cases Fleet.step_move hmove with
  | ask x call request hasks =>
    exact ⟨hinv, h.later, h.grown, h.refs, fun calls hissued hcalls y hy =>
      (h.hosts calls hissued hcalls y hy).congr rfl fun _ _ => Iff.rfl⟩
  | alone x call mount errno hadmits hasks hcall =>
    refine ⟨hinv, h.later, h.grown, h.refs, fun calls hissued hcalls y hy =>
      (h.hosts calls hissued hcalls y hy).congr ?_ fun _ _ => Iff.rfl⟩
    by_cases hyx : y = x
    · subst hyx
      have htree := alone_tree hu hy (by simpa [FleetLabel.direct] using htame) hasks hcall
      simp [Fleet.tree, htree]
    · exact tree_update rfl hyx
  | replicate x index tid a system ha hsys =>
    refine ⟨hinv, h.later.trans (System.step_move hsys).extends,
      h.grown.trans (List.prefix_append _ _), fun y w hw => ?_, fun calls hissued hcalls y hy =>
        HostEpoch.replicate h hsys hissued hcalls hy⟩
    by_cases hy : y = x
    · subst hy
      simp only [Function.update_self, List.mem_append, List.mem_singleton] at hw
      rcases hw with hw | rfl
      · exact h.refs y w hw
      · exact length_tasks_le h.later y
    · simp only [Function.update_of_ne hy] at hw
      exact h.refs y w hw
  | resume x ref w v mount errno hw href hv hg honward =>
    exact ⟨hinv, h.later, h.grown, fun y w hw => hleft hw, fun calls hissued hcalls y hy =>
      HostEpoch.resume h h₀ hu hissued hcalls hw href hv hg honward hy⟩
  | refuse x ref w v err hw href hv hg =>
    refine ⟨hinv, h.later, h.grown, fun y w hw => hleft hw, fun calls hissued hcalls y hy =>
      (h.hosts calls hissued hcalls y hy).congr rfl fun e _ => ?_⟩
    exact (Fleet.applied_answered e.tid { s with
      waiting := Function.update s.waiting x ((s.waiting x).filter (·.ref ≠ ref)) } hv hg
      rfl rfl).trans (by simp)
  | consult x ref t msg request response system ht hg hconsult hsys =>
    exact ⟨hinv, h.later.trans (System.step_move hsys).extends, h.grown, h.refs,
      fun calls hissued hcalls y hy => HostEpoch.network h.inv hsys rfl (by simp) rfl rfl
        (h.hosts calls hissued hcalls y hy)⟩
  | mirror x ref v request mount err system hv hg hmirror hsys =>
    exact ⟨hinv, h.later.trans (System.step_move hsys).extends, h.grown, h.refs,
      fun calls hissued hcalls y hy =>
        HostEpoch.mirror h h₀ hstart hu hissued hcalls hv hg hmirror hsys hy⟩
  | network action system hfiles hsys =>
    have hcall : action.isCall = false := by
      unfold Action.isCall
      split
      · cases hfiles
      · rfl
    refine ⟨hinv, h.later.trans (System.step_move hsys).extends, h.grown, h.refs,
      fun calls hissued hcalls y hy => HostEpoch.network h.inv hsys hcall ?_ rfl rfl
        (h.hosts calls hissued hcalls y hy)⟩
    rintro i err rfl
    cases hfiles
  | crash l x p hx htask =>
    exact ⟨hinv, h.later, h.grown, h.refs, fun calls hissued hcalls y hy =>
      (h.hosts calls hissued hcalls y hy).congr rfl fun _ _ => Iff.rfl⟩

end Epoch

end ReplicatedFs.Rfs
