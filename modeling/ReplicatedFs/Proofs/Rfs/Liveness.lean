import Mathlib.Data.Fintype.EquivFin
import ReplicatedFs.Proofs.P2p.Drain
import ReplicatedFs.Proofs.Rfs.FleetStep

/-!
# `ReplicatedFs.Proofs.Rfs.Liveness`: every FUSE call returns

What can keep a FUSE call from returning: it waits for the transactions of other hosts, for messages
that do not come, for a host that has panicked, or for a handle that is gone.

* `Fleet.work_lt`: every step lowers `Fleet.work`, up to what a new FUSE call costs. So no run goes
  on for ever without new calls.
* `OpenInv`: the handles of a call stay open while it is in progress.
* `CallsInv.replicate_ready`, `OpenInv.resume_ready`, `CallsInv.task_ready`: a call in progress,
  and a goroutine that has not returned, has a next step.

With contexts that end at any time this gives `calls_return`. Without them, and without any other
fault, the hosts wait for each other only as long as there are messages in flight, and the whole
fleet comes to rest (`fleet_settles`).
-/

set_option autoImplicit false

namespace ReplicatedFs.Rfs

open Library Library.Posix Protobuf P2p

section Work
variable {sites : PeerName → Site} {c : Cluster} {s s' : Fleet}

/-- The steps that are left for the FUSE calls of the host, and for a panic. -/
def Fleet.callsWork (c : Cluster) (s : Fleet) (x : PeerName) : Nat :=
  (s.asking x).length * (callCost c.names.length + 2) + (s.waiting x).length +
    (if (s.crashed x).isNone then 1 else 0)

/-- The steps that are left for the fleet. -/
def Fleet.work (c : Cluster) (s : Fleet) : Nat :=
  s.system.load c + (c.names.map (s.callsWork c)).sum

/-- What a label can add to the steps that are left, with its own step. -/
def FleetLabel.cost (c : Cluster) (l : FleetLabel) : Nat :=
  if l.isCall then callCost c.names.length + 3 else 0

/-- Only the host `x` has another amount of work. A step may start something new of the amount
`k`. -/
private theorem Fleet.work_lt_of (x : PeerName) {k : Nat}
    (hother : ∀ y, y ≠ x → s'.callsWork c y = s.callsWork c y)
    (hx : x ∈ c.names ∨ s'.system.load c < s.system.load c + k)
    (hlt : s'.system.load c + s'.callsWork c x < s.system.load c + s.callsWork c x + k) :
    s'.work c < s.work c + k := by
  unfold Fleet.work
  by_cases hmem : x ∈ c.names
  · -- The sum over all hosts changes by the change at `x`.
    have hsum := sum_map_update c.nodup hmem (f := s.callsWork c) (g := s'.callsWork c)
      fun y _ hy => hother y hy
    omega
  · -- A host outside the cluster is not in the sum.
    have hsame : c.names.map (s'.callsWork c) = c.names.map (s.callsWork c) := by
      refine List.map_congr_left fun y hy => hother y ?_
      rintro rfl
      exact hmem hy
    have hload := hx.resolve_left hmem
    rw [hsame]
    omega

/-- A host that makes a step has not panicked, and its process has not stopped for another
reason. -/
theorem Fleet.step_running {l : FleetLabel} (h : s.step sites c l = some s') {x : PeerName}
    (hx : l.host? = some x) : s.stopped x = false := by
  unfold Fleet.step at h
  split at h
  · cases h
  · rename_i hrunning
    simpa [hx] using hrunning

/-- The answer of `Replicate` takes the call away that waits for it. -/
private theorem Fleet.work_lt_answered {x : PeerName} (hx : x ∈ c.names) {w : Waiting}
    (hw : w ∈ s.waiting x) (mounts : PeerName → Mount) :
    Fleet.work c { s with
      mounts
      waiting := Function.update s.waiting x ((s.waiting x).filter (·.ref ≠ w.ref)) } <
        s.work c := by
  have hlt : ((s.waiting x).filter (·.ref ≠ w.ref)).length < (s.waiting x).length :=
    List.length_filter_lt_length_iff_exists.mpr ⟨w, hw, by simp⟩
  refine Fleet.work_lt_of (k := 0) x (fun y hy => ?_) (.inl hx) ?_
  · simp [Fleet.callsWork, Function.update_of_ne hy]
  · simp only [Fleet.callsWork, Function.update_self]
    omega

/-- Every step lowers what is left, up to the cost of a new call. What is left is the load of the
network, the FUSE calls that have not been answered, and one step for a panic of each process. A
FUSE call that is told the result is taken off the list. -/
theorem Fleet.work_lt (hi : CallsInv c s) {l : FleetLabel} (h : s.step sites c l = some s') :
    s'.work c < s.work c + l.cost c := by
  -- A step of the network that is no call.
  have hnetwork : ∀ {a : Action}, s.system.step c a = some s'.system → a.isCall = false →
      s'.callsWork c = s.callsWork c → s'.work c < s.work c + l.cost c := by
    intro a hstep hcall hsame
    have hlt := System.load_lt hi.system hstep
    rw [Action.cost, hcall, if_neg Bool.false_ne_true] at hlt
    unfold Fleet.work
    rw [hsame]
    omega
  cases Fleet.step_move h with
  | ask x call request hasks =>
    refine Fleet.work_lt_of x (fun y hy => ?_) (.inr ?_) ?_
    · simp [Fleet.callsWork, Function.update_of_ne hy]
    · simp [FleetLabel.cost, FleetLabel.isCall]
    · simp only [Fleet.callsWork, Function.update_self, List.length_append, List.length_singleton,
        Nat.add_mul, Nat.one_mul, FleetLabel.cost, FleetLabel.isCall, if_true]
      omega
  | alone x call mount errno hadmits hasks hcall =>
    change s.work c < _
    simp [FleetLabel.cost, FleetLabel.isCall]
  | replicate x index tid a system ha hstep =>
    have hx : x ∈ c.names := by
      cases System.step_move hstep with
      | host x e h' sent hx => exact hx
    have hlt := System.load_lt hi.system hstep
    rw [Action.cost, Action.isCall, if_pos rfl] at hlt
    obtain ⟨hindex, -⟩ := List.getElem?_eq_some_iff.mp ha
    refine Fleet.work_lt_of x (fun y hy => ?_) (.inl hx) ?_
    · simp [Fleet.callsWork, Function.update_of_ne hy]
    · simp only [Fleet.callsWork, Function.update_self, List.length_append, List.length_singleton,
        List.length_eraseIdx_of_lt hindex]
      rw [show (s.asking x).length = (s.asking x).length - 1 + 1 by omega]
      simp only [Nat.add_mul, Nat.one_mul, Nat.add_sub_cancel]
      omega
  | resume x ref w t mount errno hw href ht hg honward =>
    subst href
    exact Fleet.work_lt_answered (hi.system.members ht) hw _
  | refuse x ref w t err hw href ht hg =>
    subst href
    exact Fleet.work_lt_answered (hi.system.members ht) hw _
  | consult x ref t msg request response system ht hg hconsult hstep => exact hnetwork hstep rfl rfl
  | mirror x ref t request mount err system ht hg hmirror hstep => exact hnetwork hstep rfl rfl
  | network action system hfiles hstep =>
    have hcall : action.isCall = false := by
      unfold Action.isCall
      split
      · cases hfiles
      · rfl
    exact hnetwork hstep hcall rfl
  | crash l x p hx htask =>
    have hrunning := Fleet.step_running h hx
    simp only [Fleet.stopped, Bool.or_eq_false_iff, Option.isSome_eq_false_iff] at hrunning
    refine Fleet.work_lt_of x (fun y hy => ?_) ?_ ?_
    · simp [Fleet.callsWork, Fleet.crash, Function.update_of_ne hy]
    · cases hcall : l.isCall with
      | true =>
        right
        simp [FleetLabel.cost, hcall, Fleet.crash]
      | false =>
        obtain ⟨ref, t, ht, -⟩ := htask hcall
        exact .inl (hi.system.members ht)
    · simp [Fleet.callsWork, Fleet.crash, hrunning.1]
      omega

end Work

section Handles
variable {m : Mirror} {proc : Process} {lb : Loopback} {s s' : Mount} {call : Call} {fh : Nat}

/-- Opening a file leaves the open handles open. A new handle gets a number of its own. -/
private theorem Mount.openFile_handle? {flags : UInt32} {mode : Mode} {p : Path} {path : String}
    {errno : Option Errno} (hopen : s.openFile proc flags mode p path = (s', errno))
    (h : (s.handle? fh).isSome = true) : (s'.handle? fh).isSome = true := by
  unfold Mount.openFile at hopen
  split at hopen
  · cases hopen
    exact h
  · cases hopen
    obtain ⟨f, hf⟩ := Option.isSome_iff_exists.mp h
    have hold : s.handles[fh]? = some (some f) := Option.join_eq_some_iff.mp hf
    have hlt : fh < s.handles.length := (List.getElem?_eq_some_iff.mp hold).1
    simp only [Mount.handle?, List.getElem?_append_left hlt, hold]
    rfl

/-- What a call does with its permission leaves the open handles open. -/
theorem Mount.onward_handle? {errno : Option Errno}
    (honward : s.onward m proc lb call = some (s', errno)) (h : (s.handle? fh).isSome = true) :
    (s'.handle? fh).isSome = true := by
  obtain ⟨g, hg, honward⟩ := Option.map_eq_some_iff.mp honward
  unfold Mount.guarded? at hg
  split at hg
  case h_1 =>
    -- Only `Create` makes a handle.
    cases hg
    exact Mount.openFile_handle? honward h
  case h_9 =>
    split at hg
    · cases hg
      cases honward
      exact h
    · cases hg
  case h_10 =>
    obtain ⟨f, -, rfl⟩ := Option.map_eq_some_iff.mp hg
    cases honward
    exact h
  case h_11 => cases hg
  all_goals
    cases hg
    cases honward
    exact h

/-- A call that asks nobody leaves the open handles open, up to the one that it releases. -/
private theorem Mount.alone_handle? {errno : Option Errno}
    (halone : s.alone m proc lb call = some (.ok (s', errno)))
    (hreleased : call.released? ≠ some fh) (h : (s.handle? fh).isSome = true) :
    (s'.handle? fh).isSome = true := by
  cases call with
  | node path op =>
    cases op with
    | openFile flags =>
      exact Mount.openFile_handle? (Except.ok.inj (Option.some.inj halone)) h
    | setattr | mknod | setxattr | removexattr | inspect =>
      cases halone
      exact h
    | create | mkdir | rename | rmdir | symlink | link | unlink | copyFileRange => cases halone
  | file g op =>
    cases op with
    | write => cases halone
    | allocate offset size mode =>
      obtain ⟨f, -, hcall⟩ := Option.map_eq_some_iff.mp halone
      cases hcall
      exact h
    | inspect inspection =>
      obtain ⟨f, -, hcall⟩ := Option.map_eq_some_iff.mp halone
      cases hcall
      cases inspection with
      | release =>
        -- The handle that is released is another one.
        have hne : g ≠ fh := fun heq => hreleased (by rw [heq]; rfl)
        simpa [Mount.handle?, Mount.handlesAfter, List.getElem?_set_ne hne] using h
      | _ => exact h

/-- A call leaves the open handles open, up to the one that it releases. `rfs` never removes an
entry from its list of handles otherwise. -/
theorem Mount.call_handle? {answer : Option ReplicateError} {errno : Option Errno}
    (hcall : s.call m proc lb answer call = some (.ok (s', errno)))
    (hreleased : call.released? ≠ some fh) (h : (s.handle? fh).isSome = true) :
    (s'.handle? fh).isSome = true := by
  cases hreq : s.request? call with
  | some req =>
    obtain ⟨onward, honward, heq⟩ := s.call_eq_onward m proc lb hreq
    rw [heq answer] at hcall
    have hpermitted := Option.some.inj hcall
    unfold Mount.permitted at hpermitted
    split at hpermitted
    · cases hpermitted
    · cases hpermitted
      exact h
    · cases hpermitted
      exact Mount.onward_handle? honward h
  | none =>
    rw [Mount.call_of_request?_none hreq] at hcall
    exact Mount.alone_handle? hcall hreleased h

/-- A call that builds a request has its handles open. Otherwise it does not come to the point where
it builds one. -/
theorem Mount.handles_of_request? {req : Request} (hreq : s.request? call = some req)
    (hfh : fh ∈ call.handles) : (s.handle? fh).isSome = true := by
  obtain ⟨op, hop, -⟩ := Option.map_eq_some_iff.mp hreq
  unfold Mount.guarded? at hop
  split at hop
  -- `CopyFileRange` has two handles, and each may be missing.
  case h_9 fhIn offIn fhOut offOut len flags =>
    split at hop
    · rename_i hin hout
      obtain ⟨g, rfl, hg⟩ := Option.bind_eq_some_iff.mp hin
      obtain ⟨g', rfl, hg'⟩ := Option.bind_eq_some_iff.mp hout
      simp only [Call.handles, Option.toList_some, List.cons_append, List.nil_append,
        List.mem_cons, List.not_mem_nil, or_false] at hfh
      rcases hfh with rfl | rfl
      · rw [hg]
        rfl
      · rw [hg']
        rfl
    · cases hop
  case h_10 =>
    obtain ⟨f, hf, -⟩ := Option.map_eq_some_iff.mp hop
    obtain rfl := List.mem_singleton.mp hfh
    rw [hf]
    rfl
  case h_11 => cases hop
  all_goals cases hfh

/-- A call that has built a request goes on when its handles are open. The mount may have changed
while the call waited for the peers, so this is about two states of it. A handle that was closed in
between would be a nil pointer. -/
theorem Mount.onward_isSome {mount : Mount} {req : Request}
    (hreq : mount.request? call = some req)
    (hopen : ∀ fh ∈ call.handles, (s.handle? fh).isSome = true) :
    (s.onward m proc lb call).isSome = true := by
  obtain ⟨op, hop, -⟩ := Option.map_eq_some_iff.mp hreq
  unfold Mount.guarded? at hop
  split at hop
  -- The same two handles, now in a later state of the mount.
  case h_9 fhIn offIn fhOut offOut len flags =>
    split at hop
    · rename_i hin hout
      obtain ⟨g, rfl, -⟩ := Option.bind_eq_some_iff.mp hin
      obtain ⟨g', rfl, -⟩ := Option.bind_eq_some_iff.mp hout
      obtain ⟨f, hf⟩ := Option.isSome_iff_exists.mp (hopen g (by simp [Call.handles]))
      obtain ⟨f', hf'⟩ := Option.isSome_iff_exists.mp (hopen g' (by simp [Call.handles]))
      simp [Mount.onward, Mount.guarded?, hf, hf']
    · cases hop
  case h_10 fh data offset =>
    simpa [Mount.onward, Mount.guarded?] using hopen fh (by simp [Call.handles])
  case h_11 => cases hop
  all_goals rfl

end Handles

/-- The handles of the calls in progress are open. -/
structure OpenInv (c : Cluster) (s : Fleet) : Prop where
  inv : CallsInv c s
  handles : ∀ x, ∀ call ∈ s.inProgress x, ∀ fh ∈ call.handles,
    ((s.mounts x).handle? fh).isSome = true

section Open
variable {sites : PeerName → Site} {c : Cluster} {s s' : Fleet}

/-- A call in progress asks its own mount or waits for the peers. -/
theorem Fleet.mem_inProgress {x : PeerName} {call : Call} :
    call ∈ s.inProgress x ↔
      (∃ a ∈ s.asking x, a.call = call) ∨ ∃ w ∈ s.waiting x, w.call = call := by
  simp [Fleet.inProgress]

/-- A step after which no other call is in progress, and every mount has the handles open that it
needs. -/
private theorem OpenInv.of_subset (hi : OpenInv c s) (hinv : CallsInv c s')
    (hcalls : ∀ y, ∀ call ∈ s'.inProgress y, call ∈ s.inProgress y)
    (hmounts : ∀ y, ∀ call ∈ s.inProgress y, ∀ fh ∈ call.handles,
      ((s.mounts y).handle? fh).isSome = true → ((s'.mounts y).handle? fh).isSome = true) :
    OpenInv c s' := by
  refine ⟨hinv, fun y call hcall fh hfh => ?_⟩
  have hold := hcalls y call hcall
  exact hmounts y call hold fh hfh (hi.handles y call hold fh hfh)

/-- The handles of the hosts other than `x` are as they were, and of `x` it is assumed that none was
closed. -/
private theorem handle?_update {x : PeerName} {mount : Mount} {y : PeerName} {fh : Nat}
    (hx : y = x → ((s.mounts y).handle? fh).isSome = true → (mount.handle? fh).isSome = true)
    (h : ((s.mounts y).handle? fh).isSome = true) :
    ((Function.update s.mounts x mount y).handle? fh).isSome = true := by
  by_cases hy : y = x
  · have hkept := hx hy h
    subst hy
    rwa [Function.update_self]
  · rwa [Function.update_of_ne hy]

/-- The calls that wait after an answer have waited before. An answer only takes calls off the
list. -/
private theorem mem_answered {x y : PeerName} {ref : Nat} {w : Waiting}
    (h : w ∈ Function.update s.waiting x ((s.waiting x).filter (·.ref ≠ ref)) y) :
    w ∈ s.waiting y := by
  by_cases hy : y = x
  · subst hy
    rw [Function.update_self] at h
    exact List.mem_of_mem_filter h
  · rwa [Function.update_of_ne hy] at h

/-- Every step keeps the invariant. No step closes a handle while a call on it is in progress. The
kernel sees to this with its references to the handle, and the model has it as a condition on
`Release`. -/
theorem OpenInv.step (hi : OpenInv c s) {l : FleetLabel} (h : s.step sites c l = some s') :
    OpenInv c s' := by
  have hinv := hi.inv.step h
  cases Fleet.step_move h with
  | ask x call request hasks =>
    refine ⟨hinv, fun y other hother fh hfh => ?_⟩
    rcases Fleet.mem_inProgress.mp hother with ⟨a, ha, rfl⟩ | hwaiting
    · by_cases hy : y = x
      · subst hy
        simp only [Function.update_self, List.mem_append, List.mem_singleton] at ha
        rcases ha with hold | rfl
        · exact hi.handles y _ (Fleet.mem_inProgress.mpr (.inl ⟨a, hold, rfl⟩)) fh hfh
        · exact Mount.handles_of_request? (Mount.request?_of_asks hasks) hfh
      · simp only [Function.update_of_ne hy] at ha
        exact hi.handles y _ (Fleet.mem_inProgress.mpr (.inl ⟨a, ha, rfl⟩)) fh hfh
    · exact hi.handles y other (Fleet.mem_inProgress.mpr (.inr hwaiting)) fh hfh
  | alone x call mount errno hadmits hasks hcall =>
    refine hi.of_subset hinv (fun y _ hother => hother) fun y other hother fh hfh hopen => ?_
    refine handle?_update (fun hy => ?_) hopen
    subst hy
    -- The kernel does not release a handle that another call uses.
    refine Mount.call_handle? hcall fun hreleased => ?_
    simp only [Fleet.admits, hreleased, Option.all_some, List.all_eq_true,
      decide_eq_true_eq] at hadmits
    exact hadmits other hother hfh
  | replicate x index tid a system ha hstep =>
    refine hi.of_subset hinv (fun y other hother => ?_) fun _ _ _ _ _ hopen => hopen
    rw [Fleet.mem_inProgress] at hother ⊢
    by_cases hy : y = x
    · subst hy
      simp only [Function.update_self, List.mem_append, List.mem_singleton] at hother
      rcases hother with ⟨b, hb, rfl⟩ | ⟨w, hw | rfl, rfl⟩
      · exact .inl ⟨b, List.eraseIdx_subset hb, rfl⟩
      · exact .inr ⟨w, hw, rfl⟩
      · exact .inl ⟨a, List.mem_of_getElem? ha, rfl⟩
    · simpa only [Function.update_of_ne hy] using hother
  | resume x ref w t mount errno hw href ht hg honward =>
    refine hi.of_subset hinv (fun y other hother => ?_) fun y other hother fh hfh hopen => ?_
    · rw [Fleet.mem_inProgress] at hother ⊢
      exact hother.imp_right fun ⟨v, hv, hcall⟩ => ⟨v, mem_answered hv, hcall⟩
    · refine handle?_update (fun hy => ?_) hopen
      subst hy
      exact Mount.onward_handle? honward
  | refuse x ref w t err hw href ht hg =>
    refine hi.of_subset hinv (fun y other hother => ?_) fun _ _ _ _ _ hopen => hopen
    rw [Fleet.mem_inProgress] at hother ⊢
    exact hother.imp_right fun ⟨v, hv, hcall⟩ => ⟨v, mem_answered hv, hcall⟩
  | mirror x ref t request mount err system ht hg hmirror hstep =>
    refine hi.of_subset hinv (fun y _ hother => hother) fun y other hother fh hfh hopen => ?_
    refine handle?_update (fun hy => ?_) hopen
    subst hy
    unfold Mount.mirrored at hmirror
    split at hmirror
    · cases hmirror
    · cases hmirror
      exact id
  | consult | network | crash =>
    exact hi.of_subset hinv (fun y _ hother => hother) fun _ _ _ _ _ hopen => hopen

/-- At the start there are no calls, so no handle has to be open. -/
theorem OpenInv.init (c : Cluster) (clocks : PeerName → UInt64) (disks : PeerName → Disk) :
    OpenInv c (Fleet.init c clocks disks) :=
  ⟨.init c clocks disks, by simp [Fleet.inProgress, Fleet.init]⟩

end Open

section Ready
variable (sites : PeerName → Site) {c : Cluster} {s : Fleet} {x : PeerName} {i : Nat} {t : Task}

/-- A process that has not stopped has not panicked. A panic of the host is one of the ways to
stop. -/
theorem Fleet.panicked_eq_none (h : s.stopped x = false) :
    (s.system.hosts x).panicked = none := by
  simp only [Fleet.stopped, Bool.or_eq_false_iff, Option.isSome_eq_false_iff,
    Option.isNone_iff_eq_none] at h
  exact h.2

/-- A step of a goroutine is a step of the network, when the network admits it and the host has not
panicked. -/
private theorem step_task_isSome {s : System} (hi : SystemInv c s) (ht : s.task? x i = some t)
    (hp : (s.hosts x).panicked = none) {input : Input}
    (ha : s.admits c x (.task i input) = true)
    (hs : (t.step (s.hosts x) input).isSome = true) :
    (s.step c (.host x (.task i input))).isSome = true := by
  have htask : (s.hosts x).tasks[i]? = some t := ht
  obtain ⟨r, hr⟩ := Option.isSome_iff_exists.mp hs
  simp only [System.step, hi.members ht, ha, Host.step, hp, htask, hr]
  cases r <;> rfl

/-- A handler that calls `Mirror.Consult` goes on. If the call panics, the process stops, and this
is a step as well. -/
theorem CallsInv.consult_ready (hi : CallsInv c s) (hrunning : s.stopped x = false)
    (ht : s.system.task? x i = some t) {msg : Message} {request : Request}
    (hg : t.goroutine = .handle (.consult msg request)) :
    (s.step sites c (.consult x i)).isSome = true := by
  simp only [Fleet.step, FleetLabel.host?, Option.any_some, hrunning, Bool.false_eq_true, if_false,
    Fleet.consult, ht, Option.map_some, hg]
  split
  · rename_i response hconsult
    rw [Option.isSome_map]
    exact step_task_isSome hi.system ht (Fleet.panicked_eq_none hrunning)
      (admits_consult hconsult c _ x i) (by simp [Task.step, hg, handleStep])
  · rfl
  · rfl

/-- A handler that calls `Mirror.Mirror` goes on. The call may fail, or even panic, but it does not
block. -/
theorem CallsInv.mirror_ready (hi : CallsInv c s) (hrunning : s.stopped x = false)
    (ht : s.system.task? x i = some t) {request : Request}
    (hg : t.goroutine = .handle (.mirror (some request))) :
    (s.step sites c (.mirror x i)).isSome = true := by
  simp only [Fleet.step, FleetLabel.host?, Option.any_some, hrunning, Bool.false_eq_true, if_false,
    Fleet.mirror, ht, Option.map_some, hg]
  split
  · rw [Option.isSome_map]
    exact step_task_isSome hi.system ht (Fleet.panicked_eq_none hrunning) rfl
      (by simp [Task.step, hg, handleStep])
  · rfl

/-- A goroutine that has not returned goes on, at the latest when its context ends. The steps that
use the files are those of the fleet, all others are steps of the network. -/
theorem CallsInv.task_ready (hi : CallsInv c s) (hrunning : s.stopped x = false)
    (ht : s.system.task? x i = some t) (halive : t.goroutine.alive = true) :
    ∃ l, l.isCall = false ∧ (s.step sites c l).isSome = true := by
  rcases Task.ready (s.system.hosts x) halive with
    ⟨msg, request, hg⟩ | ⟨request, hg⟩ | ⟨input, hinput, hstep⟩
  · exact ⟨.consult x i, rfl, hi.consult_ready sites hrunning ht hg⟩
  · exact ⟨.mirror x i, rfl, hi.mirror_ready sites hrunning ht hg⟩
  · refine ⟨.network (.host x (.task i input)), rfl, ?_⟩
    -- What a reader needs from outside is an answer of the network, of the context, or nothing.
    have hfiles : usesFiles (.host x (.task i input)) = false := by
      cases input <;> first | rfl | cases hinput
    have ha : s.system.admits c x (.task i input) = true := by
      cases input <;> first | rfl | cases hinput
    simp only [Fleet.step, FleetLabel.host?, Option.any_some, hrunning, Bool.false_eq_true,
      if_false, hfiles, Option.isSome_map]
    exact step_task_isSome hi.system ht (Fleet.panicked_eq_none hrunning) ha hstep

/-- Some id has not been drawn yet. Only finitely many tasks exist, and there are infinitely many
strings. -/
private theorem exists_unused (c : Cluster) (s : System) : ∃ tid, s.used c tid = false := by
  obtain ⟨tid, hnew⟩ := Infinite.exists_notMem_finset
    (c.names.flatMap fun x => (s.hosts x).tasks.map fun t => t.trans.tid).toFinset
  refine ⟨tid, Bool.eq_false_iff.mpr fun hused => hnew ?_⟩
  simpa [System.used] using hused

/-- A call that has asked its own `Mirror.Consult` goes on to `Replicate`. All that this needs is a
fresh id, and there are infinitely many. -/
theorem CallsInv.replicate_ready (hi : CallsInv c s) (hx : x ∈ c.names)
    (hrunning : s.stopped x = false) {a : Asking} (ha : a ∈ s.asking x) :
    ∃ index tid, (s.step sites c (.replicate x index tid)).isSome = true := by
  obtain ⟨index, hindex⟩ := List.mem_iff_getElem?.mp ha
  obtain ⟨tid, hunused⟩ := exists_unused c s.system
  refine ⟨index, tid, ?_⟩
  obtain ⟨mount, hreq⟩ := hi.asking x a ha
  have hadmits : s.system.admits c x (.replicate tid a.request) = true := by
    simp [System.admits, hunused, Mount.metadata_of_request? hreq]
  -- An id that no task has is in no map.
  have hfresh : (s.system.hosts x).ts.lookup tid = none := by
    cases hlookup : (s.system.hosts x).ts.lookup tid with
    | none => rfl
    | some k =>
      obtain ⟨t, ht, rfl⟩ := (hi.system.hosts x).listed tid k hlookup
      exact absurd rfl (hi.system.fresh_tid hunused ht)
  simp [Fleet.step, FleetLabel.host?, hrunning, Fleet.replicate, hindex, System.step, hx, hadmits,
    Host.step, Fleet.panicked_eq_none hrunning, hfresh]

/-- A call whose task has returned goes on. All tasks of the host have come to an end here, so its
own has. Its handles are still open, so there is something that it can go on with. -/
theorem OpenInv.resume_ready (hi : OpenInv c s) (hrunning : s.stopped x = false) {w : Waiting}
    (hw : w ∈ s.waiting x)
    (hdead : ∀ i t, s.system.task? x i = some t → t.goroutine.alive = false) :
    (s.step sites c (.resume x w.ref)).isSome = true := by
  obtain ⟨v, hfind⟩ : ∃ v, (s.waiting x).find? (·.ref = w.ref) = some v :=
    Option.isSome_iff_exists.mp (List.find?_isSome.mpr ⟨w, hw, by simp⟩)
  have hv := List.mem_of_find?_eq_some hfind
  have href : v.ref = w.ref := by simpa using List.find?_some hfind
  obtain ⟨t, ht, hrep, hissued⟩ := hi.inv.waiting x v hv
  rw [href] at ht
  -- The task has returned.
  obtain ⟨r, hg⟩ : ∃ r, t.goroutine = .replicate (.returned r) := by
    have hret := hdead _ t ht
    cases hg : t.goroutine with
    | handle pc => simp [hg, Goroutine.isReplicate] at hrep
    | replicate pc =>
      rw [hg] at hret
      cases pc with
      | returned r => exact ⟨r, rfl⟩
      | _ => cases hret
  obtain ⟨j, u, mount, hu, hurep, hutid, hreq⟩ := hi.inv.issued _ hissued
  obtain ⟨-, request, hrequest, -⟩ := hi.inv.system.requests hu hurep
  rw [hrequest] at hreq
  have honward : ((s.mounts x).onward (sites x).mirror (sites x).proc (sites x).loopback
      v.call).isSome = true :=
    Mount.onward_isSome hreq (hi.handles x v.call (Fleet.mem_inProgress.mpr (.inr ⟨v, hv, rfl⟩)))
  simp only [Fleet.step, FleetLabel.host?, Option.any_some, hrunning, Bool.false_eq_true, if_false,
    Fleet.resume, hfind, ht, hg]
  cases r with
  | none => rwa [Option.isSome_map]
  | some err => rfl

/-- On a host where every goroutine has returned and no call can go on, no call is in progress. -/
private theorem OpenInv.inProgress_eq_nil (hi : OpenInv c s) (hx : x ∈ c.names)
    (hrunning : s.stopped x = false)
    (hdead : ∀ i t, s.system.task? x i = some t → t.goroutine.alive = false)
    (hreplicate : ∀ index tid, s.step sites c (.replicate x index tid) = none)
    (hresume : ∀ ref, s.step sites c (.resume x ref) = none) :
    s.asking x = [] ∧ s.waiting x = [] := by
  constructor <;> refine List.eq_nil_iff_forall_not_mem.mpr fun b hb => ?_
  · obtain ⟨index, tid, hready⟩ := hi.inv.replicate_ready sites hx hrunning hb
    rw [hreplicate index tid] at hready
    cases hready
  · have hready := hi.resume_ready sites hrunning hb hdead
    rw [hresume b.ref] at hready
    cases hready

end Ready

section Settled
variable {sites : PeerName → Site} {c : Cluster} {s : Fleet}

/-- Nothing but new calls can follow in a settled fleet: every step would need a goroutine that is
alive, a call in progress or a message in flight. `hlisten` is needed because the handover of a
message is a step of `listen`. -/
theorem CallsInv.quiet_of_settled (hi : CallsInv c s) (hs : s.Settled c)
    (hlisten : ∀ x ∈ c.names, (s.system.hosts x).listen = none) {l : FleetLabel}
    (hl : l.isCall = false) : s.step sites c l = none := by
  refine Option.eq_none_iff_forall_ne_some.mpr fun s' h => ?_
  have hdead : ∀ {x i t}, s.system.task? x i = some t → t.goroutine.alive ≠ true :=
    fun ht halive => by simp [hs.dead _ _ _ ht] at halive
  have hwaiting : ∀ {x i t w}, s.system.task? x i = some t → w ∉ s.waiting x :=
    fun ht hw => by simp [hs.waiting _ (hi.system.members ht)] at hw
  cases Fleet.step_move h with
  | ask | alone => cases hl
  | replicate x index tid a system ha hstep =>
    cases System.step_move hstep with
    | host x e h' sent hx => simp [hs.asking x hx] at ha
  | resume x ref w t mount errno hw href ht hg honward => exact hwaiting ht hw
  | refuse x ref w t err hw href ht hg => exact hwaiting ht hw
  | consult x ref t msg request response system ht hg hconsult hstep =>
    exact hdead ht (by rw [hg]; rfl)
  | mirror x ref t request mount err system ht hg hmirror hstep =>
    exact hdead ht (by rw [hg]; rfl)
  -- Only a step of a goroutine can panic.
  | crash l x p hx htask =>
    obtain ⟨ref, t, ht, halive⟩ := htask hl
    exact hdead ht halive
  | network action system hfiles hstep =>
    cases System.step_move hstep with
    | lose x msg hmem => simp [hs.flight] at hmem
    | host x e h' sent hx ha hp hmove =>
      cases hmove with
      | replicate tid request hfresh => cases hfiles
      | join | spawn => simp [System.admits, hs.flight] at ha
      | notify ref msg t hpending ht hr =>
        rw [hlisten x hx] at hpending
        cases hpending
      | task ref input t m ht hmove => exact hdead ht hmove.alive
      | panic ref input t p ht hpanic =>
        have hnone := Task.step_of_returned (s.system.hosts x) (hs.dead x ref t ht) input
        rw [hnone] at hpanic
        cases hpanic

end Settled

/-- Whatever goes wrong, a run is no longer than the work at its start and what its new FUSE calls
cost. When nothing but new calls can follow, no FUSE call is in progress on a host that has not
panicked, and all its transactions are over. -/
theorem calls_return (sites : PeerName → Site) (c : Cluster) (clocks : PeerName → UInt64)
    (disks : PeerName → Disk) {s s' : Fleet} {ls : List FleetLabel}
    (hs : Reaches (Fleet.step sites c) (Fleet.init c clocks disks) s)
    (hrun : run (Fleet.step sites c) s ls = some s') :
    ls.length ≤ s.work c + (ls.map (FleetLabel.cost c)).sum ∧
      ((∀ l, l.isCall = false → s'.step sites c l = none) → ∀ x ∈ c.names,
        s'.stopped x = true ∨
          s'.inProgress x = [] ∧ (s'.system.hosts x).drained = true) := by
  have hi : OpenInv c s := hs.invariant (fun _ _ _ h hi => OpenInv.step hi h) (.init c clocks disks)
  constructor
  · have hle := run_length_add_le_cost (I := CallsInv c) (μ := Fleet.work c) (FleetLabel.cost c)
      (fun _ _ _ h hi => hi.step h) (fun _ _ _ h hi => Fleet.work_lt hi h) hrun hi.inv
    omega
  · intro hquiet x hx
    have hi' : OpenInv c s' := run_invariant (fun _ _ _ h hi => OpenInv.step hi h) hrun hi
    cases hrunning : s'.stopped x with
    | true => exact .inl rfl
    | false =>
      right
      -- A goroutine that is alive could take a step.
      have hdead : ∀ i t, s'.system.task? x i = some t → t.goroutine.alive = false := by
        intro i t ht
        refine Bool.eq_false_iff.mpr fun halive => ?_
        obtain ⟨l, hcall, hready⟩ := hi'.inv.task_ready sites hrunning ht halive
        rw [hquiet l hcall] at hready
        cases hready
      obtain ⟨hasking, hwaiting⟩ := hi'.inProgress_eq_nil sites hx hrunning hdead
        (fun _ _ => hquiet _ rfl) fun _ => hquiet _ rfl
      refine ⟨by simp [Fleet.inProgress, hasking, hwaiting], ?_⟩
      exact (hi'.inv.system.hosts x).drained_of_dead hdead

/-- The call of `votedCall` times out, and the vote is lost. `b` makes the directory
nevertheless. -/
def timedOutCall : List FleetLabel :=
  votedCall ++ [.network (.host "a" (.task 0 (.contextDone .deadlineExceeded))),
    .network (.host "a" (.task 0 .run)), .resume "a" 0,
    .network (.lose "a" (newResponseMessage "t" "b" ack)), .network (.host "b" (.task 0 .run)),
    .mirror "b" 0, .network (.host "b" (.task 0 .run))]

/-- After `timedOutCall` nothing is left to do, and no call is in progress. The number of its steps
is within the bound of the theorem. -/
theorem calls_return_timedOutCall :
    ∃ s, run (Fleet.step someSites duo) someFleet timedOutCall = some s ∧
      (∀ l, l.isCall = false → s.step someSites duo l = none) ∧ s.inProgress "a" = [] ∧
      timedOutCall.length ≤
        someFleet.work duo + (timedOutCall.map (FleetLabel.cost duo)).sum := by
  have hrun : (run (Fleet.step someSites duo) someFleet timedOutCall).any (fun s =>
      (s.quiet duo && duo.names.all fun x => (s.system.hosts x).listen.isNone) &&
        !s.stopped "a") = true := by decide
  rw [Option.any_eq_true] at hrun
  obtain ⟨s, hs, hobs⟩ := hrun
  simp only [Bool.and_eq_true, Bool.not_eq_true', List.all_eq_true,
    Option.isNone_iff_eq_none] at hobs
  obtain ⟨⟨hquiet, hlisten⟩, hrunning⟩ := hobs
  have hi : CallsInv duo s :=
    run_invariant (fun _ _ _ h hi => CallsInv.step hi h) hs (.init duo _ _)
  have hnone : ∀ l, l.isCall = false → s.step someSites duo l = none :=
    fun l hl => hi.quiet_of_settled (hi.settled hquiet) hlisten hl
  obtain ⟨hle, hreturned⟩ := calls_return someSites duo _ _ (Reaches.refl _) hs
  rcases hreturned hnone "a" (by decide) with hstopped | ⟨hidle, -⟩
  · rw [hrunning] at hstopped
    cases hstopped
  · exact ⟨s, hs, hnone, hidle, hle⟩

section Settles
variable {sites : PeerName → Site} {c : Cluster} {s : Fleet}

/-- A label of a fault-free run that can follow: the step is possible, and it brings no fault. -/
private theorem stepFF_isSome {l : FleetLabel} (hfree : s.faultFree c l = true)
    (h : (s.step sites c l).isSome = true) : (s.stepFF sites c l).isSome = true := by
  rwa [Fleet.stepFF, restrict, if_pos hfree]

/-- When nothing but new calls can follow, the network is quiet. If the network had a step, the
fleet would have it, too. For the answers of the mirror it is the step in which the fleet calls the
method on the files of the host. -/
private theorem FleetInv.quiet_system (hi : FleetInv c s)
    (hrunning : ∀ x ∈ c.names, s.stopped x = false)
    (hquiet : ∀ l, l.isCall = false → s.stepFF sites c l = none) : s.system.Quiet c := by
  intro a
  refine Option.eq_none_iff_forall_ne_some.mpr fun system hsettle => ?_
  obtain ⟨hcall, hff⟩ := restrict_eq_some.mp hsettle
  obtain ⟨hfree, hstep⟩ := restrict_eq_some.mp hff
  -- The fleet has the step that the network has, or the one of the method of `Mirror`.
  suffices hready : ∃ l, l.isCall = false ∧ (s.stepFF sites c l).isSome = true by
    obtain ⟨l, hl, hsome⟩ := hready
    rw [hquiet l hl] at hsome
    cases hsome
  cases System.step_move hstep with
  | lose x msg hmem => cases hfree
  | host x e h' sent hx ha hp hmove =>
    have hgo := hrunning x hx
    cases hfiles : usesFiles (.host x e) with
    | false =>
      refine ⟨.network (.host x e), rfl, stepFF_isSome hfree ?_⟩
      simp only [Fleet.step, FleetLabel.host?, Option.any_some, hgo, Bool.false_eq_true, if_false,
        hfiles, Option.isSome_map, hstep, Option.isSome_some]
    | true =>
      cases hmove with
      | task ref input t m ht hmove =>
        cases hmove with
        | approve msg request response hg | reject msg request response hg =>
          exact ⟨.consult x ref, rfl, stepFF_isSome rfl (hi.consult_ready sites hgo ht hg)⟩
        | mirror request err hg =>
          exact ⟨.mirror x ref, rfl, stepFF_isSome rfl (hi.mirror_ready sites hgo ht hg)⟩
        | _ => cases hfiles
      | replicate tid request hfresh => simp [Action.isCall] at hcall
      | panic ref input t p ht hpanic =>
        have hnone := (hi.faultFree.step hi.system hff).running x
        simp at hnone
      | _ => cases hfiles

end Settles

/-- Take a run in which no message is lost, no broadcast fails and no context ends. Here a message
that `listen` reads and then drops, on the error of a handler, counts as lost. Such a run needs no
timeout: it has a bounded number of steps besides those for new FUSE calls, and when only new calls
can follow, every transaction is over on every host and no call is in progress. The exception is a
host that has panicked, for which the others may wait for ever. -/
theorem fleet_settles (sites : PeerName → Site) (c : Cluster) (clocks : PeerName → UInt64)
    (disks : PeerName → Disk) {s s' : Fleet} {ls : List FleetLabel}
    (hs : Reaches (Fleet.stepFF sites c) (Fleet.init c clocks disks) s)
    (hrun : run (Fleet.stepFF sites c) s ls = some s') :
    ls.length ≤ s.work c + (ls.map (FleetLabel.cost c)).sum ∧
      ((∀ l, l.isCall = false → s'.stepFF sites c l = none) →
        (∃ x ∈ c.names, s'.stopped x = true) ∨ s'.Settled c) := by
  have hi : FleetInv c s :=
    hs.invariant (fun _ _ _ h hi => FleetInv.step hi h) (.init c clocks disks)
  have hi' : FleetInv c s' := run_invariant (fun _ _ _ h hi => FleetInv.step hi h) hrun hi
  have hopen : OpenInv c s' :=
    ((hs.trans ⟨ls, hrun⟩).of_restrict).invariant (fun _ _ _ h hi => OpenInv.step hi h)
      (.init c clocks disks)
  constructor
  · have hle := run_length_add_le_cost (I := CallsInv c) (μ := Fleet.work c) (FleetLabel.cost c)
      (fun _ _ _ h hi => hi.step h) (fun _ _ _ h hi => Fleet.work_lt hi h)
      -- The bound is the one of all runs, of which the fault-free ones are some.
      (run_of_restrict hrun) hi.toCallsInv
    omega
  · intro hquiet
    by_cases hstopped : ∃ x ∈ c.names, s'.stopped x = true
    · exact .inl hstopped
    · right
      have hrunning : ∀ x ∈ c.names, s'.stopped x = false := fun x hx =>
        Bool.eq_false_iff.mpr fun hx' => hstopped ⟨x, hx, hx'⟩
      -- Without timeouts this takes the argument about votes: nobody waits for a vote that is not
      -- on its way.
      obtain ⟨hdead, hflight⟩ :=
        hi'.faultFree.finished_of_quiet hi'.system (hi'.quiet_system hrunning hquiet)
      have hidle : ∀ x ∈ c.names, s'.asking x = [] ∧ s'.waiting x = [] := by
        intro x hx
        have hnone : ∀ l, l.isCall = false → s'.faultFree c l = true →
            s'.step sites c l = none := by
          intro l hl hfree
          have hff := hquiet l hl
          rwa [Fleet.stepFF, restrict, if_pos hfree] at hff
        exact hopen.inProgress_eq_nil sites hx (hrunning x hx) (hdead x)
          (fun _ _ => hnone _ rfl rfl) fun _ => hnone _ rfl rfl
      exact ⟨hdead, hflight, fun x hx => (hidle x hx).1, fun x hx => (hidle x hx).2⟩

/-- The call of `votedCall` gets the vote, and both hosts make the directory. -/
def answeredCall : List FleetLabel :=
  votedCall ++ (hears "a" (newResponseMessage "t" "b" ack)).map .network ++
    [.network (.host "a" (.task 0 .run)), .network (.host "a" (.task 0 .run)), .resume "a" 0,
      .network (.host "b" (.task 0 .run)), .mirror "b" 0, .network (.host "b" (.task 0 .run))]

/-- `answeredCall` goes on until the fleet is settled. No step is left then, and no call waits. -/
theorem fleet_settles_answeredCall :
    ∃ s, run (Fleet.stepFF someSites duo) someFleet answeredCall = some s ∧
      (∀ l, l.isCall = false → s.stepFF someSites duo l = none) ∧ s.Settled duo := by
  have hrun : (run (Fleet.stepFF someSites duo) someFleet answeredCall).any (fun s =>
      (s.quiet duo && duo.names.all fun x => (s.system.hosts x).listen.isNone) &&
        duo.names.all fun x => !s.stopped x) = true := by decide
  rw [Option.any_eq_true] at hrun
  obtain ⟨s, hs, hobs⟩ := hrun
  simp only [Bool.and_eq_true, Bool.not_eq_true', List.all_eq_true,
    Option.isNone_iff_eq_none] at hobs
  obtain ⟨⟨hquiet, hlisten⟩, hrunning⟩ := hobs
  have hi : CallsInv duo s :=
    run_invariant (fun _ _ _ h hi => CallsInv.step hi h) (run_of_restrict hs) (.init duo _ _)
  -- A settled state has no steps at all, and so no fault-free ones.
  have hnone : ∀ l, l.isCall = false → s.stepFF someSites duo l = none := by
    intro l hl
    unfold Fleet.stepFF restrict
    split
    · exact hi.quiet_of_settled (hi.settled hquiet) hlisten hl
    · rfl
  rcases (fleet_settles someSites duo _ _ (Reaches.refl _) hs).2 hnone with
    ⟨x, hx, hstopped⟩ | hsettled
  · rw [hrunning x hx] at hstopped
    cases hstopped
  · exact ⟨s, hs, hnone, hsettled⟩

end ReplicatedFs.Rfs
