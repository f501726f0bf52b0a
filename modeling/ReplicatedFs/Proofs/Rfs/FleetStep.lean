import ReplicatedFs.Proofs.P2p.ExactlyOnce
import ReplicatedFs.Proofs.Mirror.Verdict
import ReplicatedFs.Proofs.Rfs.Permission
import ReplicatedFs.Rfs.Fleet

/-!
# `ReplicatedFs.Proofs.Rfs.FleetStep`: the steps of the fleet

`FleetMove` lists what a step can do, and `Fleet.step_move` says that there is nothing else. The
network of a fleet makes the steps of `System.step`, or none (`FleetMove.system`).

`CallsInv` ties the FUSE calls to the transactions: a call waits exactly until its task has
returned, and every task of a `Replicate` call has one FUSE call. `FleetInv` is the invariant of
fault-free runs.
-/

set_option autoImplicit false

namespace ReplicatedFs.Rfs

open Library Library.Posix Protobuf P2p

section Move
variable (sites : PeerName → Site) (c : Cluster) (s : Fleet)

/-- The steps of the fleet. -/
inductive FleetMove : FleetLabel → Fleet → Prop
  | ask (x : PeerName) (call : Call) (request : Request)
      (hasks : (s.mounts x).asks (sites x).mirror (sites x).proc call = some request) :
      FleetMove (.call x call)
        { s with asking := Function.update s.asking x (s.asking x ++ [⟨request, call⟩]) }
  | alone (x : PeerName) (call : Call) (mount : Mount) (errno : Option Errno)
      (hadmits : s.admits x call = true)
      (hasks : (s.mounts x).asks (sites x).mirror (sites x).proc call = none)
      (hcall : (s.mounts x).call (sites x).mirror (sites x).proc (sites x).loopback none call =
        some (.ok (mount, errno))) :
      FleetMove (.call x call) { s with mounts := Function.update s.mounts x mount }
  | replicate (x : PeerName) (index : Nat) (tid : TransactionID) (a : Asking) (system : System)
      (ha : (s.asking x)[index]? = some a)
      (hstep : s.system.step c (.host x (.replicate tid a.request)) = some system) :
      FleetMove (.replicate x index tid)
        { s with
            system
            asking := Function.update s.asking x ((s.asking x).eraseIdx index)
            waiting := Function.update s.waiting x
              (s.waiting x ++ [⟨(s.system.hosts x).tasks.length, a.call⟩])
            issued := s.issued ++ [⟨x, tid, a.call⟩] }
  | resume (x : PeerName) (ref : Nat) (w : Waiting) (t : Task) (mount : Mount)
      (errno : Option Errno) (hw : w ∈ s.waiting x) (href : w.ref = ref)
      (ht : s.system.task? x ref = some t) (hg : t.goroutine = .replicate (.returned none))
      (honward : (s.mounts x).onward (sites x).mirror (sites x).proc (sites x).loopback w.call =
        some (mount, errno)) :
      FleetMove (.resume x ref)
        { s with
            mounts := Function.update s.mounts x mount
            waiting := Function.update s.waiting x ((s.waiting x).filter (·.ref ≠ ref)) }
  | refuse (x : PeerName) (ref : Nat) (w : Waiting) (t : Task) (err : ReplicateError)
      (hw : w ∈ s.waiting x) (href : w.ref = ref)
      (ht : s.system.task? x ref = some t)
      (hg : t.goroutine = .replicate (.returned (some err))) :
      FleetMove (.resume x ref)
        { s with waiting := Function.update s.waiting x ((s.waiting x).filter (·.ref ≠ ref)) }
  | consult (x : PeerName) (ref : Nat) (t : Task) (msg : Message) (request : Request)
      (response : Response) (system : System) (ht : s.system.task? x ref = some t)
      (hg : t.goroutine = .handle (.consult msg request))
      (hconsult : (sites x).mirror.consult (sites x).proc (s.mounts x).disk.tree.1 request =
        .ok (some response))
      (hstep : s.system.step c (.host x (.task ref (.consulted response))) = some system) :
      FleetMove (.consult x ref) { s with system }
  | mirror (x : PeerName) (ref : Nat) (t : Task) (request : Request) (mount : Mount)
      (err : Option String) (system : System) (ht : s.system.task? x ref = some t)
      (hg : t.goroutine = .handle (.mirror (some request)))
      (hmirror : (s.mounts x).mirrored (sites x).mirror (sites x).proc request =
        .ok (mount, err))
      (hstep : s.system.step c (.host x (.task ref (.mirrored err))) = some system) :
      FleetMove (.mirror x ref)
        { s with system, mounts := Function.update s.mounts x mount }
  | network (action : Action) (system : System) (hfiles : usesFiles action = false)
      (hstep : s.system.step c action = some system) :
      FleetMove (.network action) { s with system }
  | crash (l : FleetLabel) (x : PeerName) (p : Panic) (hx : l.host? = some x)
      (htask : l.isCall = false → ∃ ref t, s.system.task? x ref = some t ∧
        t.goroutine.alive = true) :
      FleetMove l (s.crash x p)

variable {sites c s} {s' : Fleet}

/-- A FUSE call that asks for a transaction begins to ask. Any other one is over in this step. It
may have changed the files, if it is one of those without a request, or it has stopped at its own
mirror. -/
private theorem Fleet.call_move {x : PeerName} {call : Call}
    (h : s.call sites x call = some s') : FleetMove sites c s (.call x call) s' := by
  unfold Fleet.call at h
  dsimp only at h
  split at h
  · rename_i hadmits
    split at h
    · -- The call has built a request. It is going to ask its own `Mirror.Consult`.
      rename_i request hasks
      cases h
      exact .ask x call request hasks
    · rename_i hasks
      split at h
      · cases h
      · cases h
        exact .crash _ x _ rfl nofun
      · rename_i mount errno hcall
        cases h
        exact .alone x call mount errno hadmits hasks hcall
  · cases h

/-- The call of `Replicate`, with the id that it draws. The FUSE call waits for the task from now
on. -/
private theorem Fleet.replicate_move {x : PeerName} {index : Nat} {tid : TransactionID}
    (h : s.replicate c x index tid = some s') :
    FleetMove sites c s (.replicate x index tid) s' := by
  unfold Fleet.replicate at h
  split at h
  · cases h
  · rename_i a ha
    obtain ⟨system, hstep, rfl⟩ := Option.map_eq_some_iff.mp h
    exact .replicate x index tid a system ha hstep

/-- The FUSE call goes on when its `Replicate` has returned, with the files as they are at that
time. -/
private theorem Fleet.resume_move {x : PeerName} {ref : Nat}
    (h : s.resume sites x ref = some s') : FleetMove sites c s (.resume x ref) s' := by
  unfold Fleet.resume at h
  split at h
  · rename_i w t hw ht
    have href : w.ref = ref := by simpa using List.find?_some hw
    dsimp only at h
    split at h
    · rename_i hg
      -- Permitted: the operation is carried out now, on the files as they are now.
      obtain ⟨⟨mount, errno⟩, honward, rfl⟩ := Option.map_eq_some_iff.mp h
      exact .resume x ref w t mount errno (List.mem_of_find?_eq_some hw) href ht hg honward
    · rename_i err hg
      cases h
      exact .refuse x ref w t err (List.mem_of_find?_eq_some hw) href ht hg
    · cases h
  · cases h

/-- A handler calls `Mirror.Consult`, on the files of its host as they are at this time. A panic of
`Consult` stops the process. -/
private theorem Fleet.consult_move {x : PeerName} {ref : Nat}
    (h : s.consult sites c x ref = some s') : FleetMove sites c s (.consult x ref) s' := by
  unfold Fleet.consult at h
  split at h
  · rename_i msg request hg
    obtain ⟨t, ht, hg⟩ := Option.map_eq_some_iff.mp hg
    split at h
    · rename_i response hconsult
      obtain ⟨system, hstep, rfl⟩ := Option.map_eq_some_iff.mp h
      exact .consult x ref t msg request response system ht hg hconsult hstep
    · cases h
      -- A panic, or no answer at all, which the caller dereferences.
      exact .crash _ x _ rfl fun _ => ⟨ref, t, ht, by rw [hg]; rfl⟩
    · cases h
      exact .crash _ x _ rfl fun _ => ⟨ref, t, ht, by rw [hg]; rfl⟩
  · cases h

/-- A handler calls `Mirror.Mirror`, which edits the files of its host or panics. -/
private theorem Fleet.mirror_move {x : PeerName} {ref : Nat}
    (h : s.mirror sites c x ref = some s') : FleetMove sites c s (.mirror x ref) s' := by
  unfold Fleet.mirror at h
  split at h
  · rename_i request hg
    obtain ⟨t, ht, hg⟩ := Option.map_eq_some_iff.mp hg
    split at h
    · rename_i mount err hmirror
      obtain ⟨system, hstep, rfl⟩ := Option.map_eq_some_iff.mp h
      exact .mirror x ref t request mount err system ht hg hmirror hstep
    · cases h
      exact .crash _ x _ rfl fun _ => ⟨ref, t, ht, by rw [hg]; rfl⟩
  · cases h

/-- The fleet makes one of the steps. The lemmas below split on the steps and not on the code of
`Fleet.step`. -/
theorem Fleet.step_move {l : FleetLabel} (h : s.step sites c l = some s') :
    FleetMove sites c s l s' := by
  unfold Fleet.step at h
  split at h
  · cases h
  · cases l with
    | call x call => exact Fleet.call_move h
    | replicate x index tid => exact Fleet.replicate_move h
    | resume x ref => exact Fleet.resume_move h
    | consult x ref => exact Fleet.consult_move h
    | mirror x ref => exact Fleet.mirror_move h
    | network action =>
      dsimp only at h
      split at h
      · cases h
      · rename_i hfiles
        obtain ⟨system, hstep, rfl⟩ := Option.map_eq_some_iff.mp h
        exact .network action system (by simpa using hfiles) hstep

/-- The network makes a fault-free step in a fault-free step of the fleet, or none. -/
theorem FleetMove.system {l : FleetLabel} (hm : FleetMove sites c s l s')
    (hfree : s.faultFree c l = true) :
    s'.system = s.system ∨ ∃ a, s.system.stepFF c a = some s'.system := by
  cases hm with
  | replicate x index tid a system ha hstep =>
    exact .inr ⟨_, restrict_eq_some.mpr ⟨rfl, hstep⟩⟩
  | consult x ref t msg request response system ht hg hconsult hstep =>
    exact .inr ⟨_, restrict_eq_some.mpr ⟨rfl, hstep⟩⟩
  | mirror x ref t request mount err system ht hg hmirror hstep =>
    exact .inr ⟨_, restrict_eq_some.mpr ⟨rfl, hstep⟩⟩
  | network action system hfiles hstep => exact .inr ⟨_, restrict_eq_some.mpr ⟨hfree, hstep⟩⟩
  | _ => exact .inl rfl

end Move

section Tasks
variable {c : Cluster} {s s' : System}

/-- A new call is one more task of its host, under a new id. All other tasks are as before. The
index of the new task is the number of tasks so far, and by this index the FUSE call waits for
it. -/
theorem replicate_tasks {x : PeerName} {tid : TransactionID} {request : Request}
    (h : s.step c (.host x (.replicate tid request)) = some s') :
    (∃ t, s'.task? x (s.hosts x).tasks.length = some t ∧ t.trans.tid = tid ∧
        t.trans.request = some request ∧ t.goroutine.isReplicate = true ∧
        t.goroutine.alive = true) ∧
      ∀ {y i t}, s'.task? y i = some t →
        s.task? y i = some t ∨ y = x ∧ i = (s.hosts x).tasks.length := by
  cases System.step_move h with
  | host x e h' sent hx ha hp hm =>
    cases hm with
    | replicate tid request hfresh =>
      refine ⟨⟨_, by rw [task?_update_self, List.getElem?_concat_length], rfl, rfl, rfl, rfl⟩, ?_⟩
      intro y i t ht
      by_cases hy : y = x
      · subst hy
        rw [task?_update_self] at ht
        rcases getElem?_concat_eq_some.mp ht with hold | ⟨rfl, -⟩
        · exact .inl hold
        · -- The task at the end of the list is the new one.
          exact .inr ⟨rfl, rfl⟩
      · rw [task?_update_of_ne hy] at ht
        exact .inl ht

/-- A `Replicate` call that is there after another step was there before. Tasks are never removed
from a host, so this is the only way in which calls come about. -/
theorem old_of_isReplicate {a : Action} (hm : SystemMove c s a s') (ha : a.isCall = false)
    {y : PeerName} {i : Nat} {t' : Task} (ht' : s'.task? y i = some t')
    (hrep : t'.goroutine.isReplicate = true) :
    ∃ t, s.task? y i = some t ∧ TaskExtends t t' := by
  cases hold : s.task? y i with
  | some t =>
    obtain ⟨u, hu, hext⟩ := hm.extends.tasks hold
    obtain rfl : t' = u := Option.some.inj (ht'.symm.trans hu)
    exact ⟨t, rfl, hext⟩
  | none =>
    rcases hm.change ht' with hsame | ⟨e, sent, rfl, -, -, -, hchange⟩
    · rw [hold] at hsame
      cases hsame
    · rw [hold] at hchange
      cases hchange with
      | call tid request hfresh => cases ha
      -- A message starts a handler, and never a `Replicate`.
      | spawn msg hlookup => cases hrep

end Tasks

/-- The invariant of a fleet, whatever goes wrong. -/
structure CallsInv (c : Cluster) (s : Fleet) : Prop where
  system : SystemInv c s.system
  asking : ∀ x, ∀ a ∈ s.asking x, ∃ mount : Mount, mount.request? a.call = some a.request
  waiting : ∀ x, ∀ w ∈ s.waiting x, ∃ t, s.system.task? x w.ref = some t ∧
    t.goroutine.isReplicate = true ∧ ⟨x, t.trans.tid, w.call⟩ ∈ s.issued
  alive : ∀ {x i t}, s.system.task? x i = some t → t.goroutine.isReplicate = true →
    t.goroutine.alive = true → ∃ w ∈ s.waiting x, w.ref = i
  issued : ∀ e ∈ s.issued, ∃ i t, ∃ mount : Mount, s.system.task? e.host i = some t ∧
    t.goroutine.isReplicate = true ∧ t.trans.tid = e.tid ∧
    mount.request? e.call = t.trans.request
  unique : (s.issued.map FleetCall.tid).Nodup
  called : ∀ {x i t}, s.system.task? x i = some t → t.goroutine.isReplicate = true →
    ∃ call, ⟨x, t.trans.tid, call⟩ ∈ s.issued

/-- The invariant of a fleet in fault-free runs. -/
structure FleetInv (c : Cluster) (s : Fleet) : Prop extends CallsInv c s where
  faultFree : FaultFreeInv c s.system

section Invariant
variable {sites : PeerName → Site} {c : Cluster} {s s' : Fleet}

/-- No call has been made, so there is nothing to be asked and nothing that waits. -/
theorem CallsInv.init (c : Cluster) (clocks : PeerName → UInt64) (disks : PeerName → Disk) :
    CallsInv c (Fleet.init c clocks disks) where
  system := .init c clocks
  asking := by simp [Fleet.init]
  waiting := by simp [Fleet.init]
  alive ht := by simp [System.task?, Fleet.init, System.init] at ht
  issued := by simp [Fleet.init]
  unique := by simp [Fleet.init]
  called ht := by simp [System.task?, Fleet.init, System.init] at ht

/-- The task of a `Replicate` call later on. It keeps its place, its id and its request in every
step of the network. -/
theorem CallsInv.later (hi : CallsInv c s) {a : Action} {system : System}
    (hstep : s.system.step c a = some system) {x : PeerName} {i : Nat} {t : Task}
    (ht : s.system.task? x i = some t) (hrep : t.goroutine.isReplicate = true) :
    ∃ t', system.task? x i = some t' ∧ t'.goroutine.isReplicate = true ∧
      t'.trans.tid = t.trans.tid ∧ t'.trans.request = t.trans.request := by
  have hm := System.step_move hstep
  have hi' := hi.system.step hstep
  obtain ⟨t', ht', hext⟩ := hm.extends.tasks ht
  exact ⟨t', ht', hext.kind.trans hrep, hext.tid,
    (hi.system.request_stable hm ht ht' hext hrep (hi'.taskInv ht').tids).1⟩

/-- A step of the network that starts no call keeps the invariant. The FUSE calls are as before, and
the tasks that they wait for have only grown. They keep their ids and their requests, which is all
that the invariant says about them. -/
private theorem CallsInv.network (hi : CallsInv c s) {a : Action}
    (hstep : s.system.step c a = some s'.system) (hcall : a.isCall = false)
    (hasking : s'.asking = s.asking) (hwaiting : s'.waiting = s.waiting)
    (hissued : s'.issued = s.issued) : CallsInv c s' := by
  have hm := System.step_move hstep
  refine ⟨hi.system.step hstep, ?_, ?_, ?_, ?_, ?_, ?_⟩
  · rw [hasking]
    exact hi.asking
  · -- A call that waits still has its task, with the same id.
    rw [hwaiting, hissued]
    intro x w hw
    obtain ⟨t, ht, hrep, hmem⟩ := hi.waiting x w hw
    obtain ⟨t', ht', hrep', htid, -⟩ := hi.later hstep ht hrep
    exact ⟨t', ht', hrep', by rwa [htid]⟩
  · rw [hwaiting]
    intro x i t' ht' hrep' halive
    obtain ⟨t, ht, hext⟩ := old_of_isReplicate hm hcall ht' hrep'
    exact hi.alive ht (hext.kind.symm.trans hrep') (hext.alive halive)
  · rw [hissued]
    intro e he
    obtain ⟨i, t, mount, ht, hrep, htid, hreq⟩ := hi.issued e he
    obtain ⟨t', ht', hrep', htid', hreq'⟩ := hi.later hstep ht hrep
    exact ⟨i, t', mount, ht', hrep', htid'.trans htid, hreq.trans hreq'.symm⟩
  · rw [hissued]
    exact hi.unique
  · rw [hissued]
    intro x i t' ht' hrep'
    obtain ⟨t, ht, hext⟩ := old_of_isReplicate hm hcall ht' hrep'
    rw [hext.tid]
    exact hi.called ht (hext.kind.symm.trans hrep')

/-- A new call keeps the invariant. Its task is the last one of the host, and it has the request of
the FUSE call. The id is unused, so the list of issued calls has it once. The FUSE call moves from
those that ask to those that wait. -/
private theorem CallsInv.replicate (hi : CallsInv c s) {x : PeerName} {index : Nat}
    {tid : TransactionID} {a : Asking} {system : System} (ha : a ∈ s.asking x)
    (hstep : s.system.step c (.host x (.replicate tid a.request)) = some system) :
    CallsInv c { s with
      system
      asking := Function.update s.asking x ((s.asking x).eraseIdx index)
      waiting := Function.update s.waiting x
        (s.waiting x ++ [⟨(s.system.hosts x).tasks.length, a.call⟩])
      issued := s.issued ++ [⟨x, tid, a.call⟩] } := by
  obtain ⟨⟨new, hnew, hntid, hnreq, hnrep, -⟩, htasks⟩ := replicate_tasks hstep
  have hfresh : ∀ {y i t}, s.system.task? y i = some t → t.trans.tid ≠ tid := by
    cases System.step_move hstep with
    | host x e h' sent hx hadmits hp hm =>
      simp only [System.admits, Bool.and_eq_true, Bool.not_eq_true'] at hadmits
      exact fun ht => hi.system.fresh_tid hadmits.1 ht
  refine ⟨hi.system.step hstep, ?_, ?_, ?_, ?_, ?_, ?_⟩
  · intro y b hb
    by_cases hy : y = x
    · subst hy
      simp only [Function.update_self] at hb
      exact hi.asking y b (List.eraseIdx_subset hb)
    · simp only [Function.update_of_ne hy] at hb
      exact hi.asking y b hb
  · intro y w hw
    have hold : w ∈ s.waiting y ∨ y = x ∧ w = ⟨(s.system.hosts x).tasks.length, a.call⟩ := by
      by_cases hy : y = x
      · subst hy
        simpa using hw
      · simp only [Function.update_of_ne hy] at hw
        exact .inl hw
    rcases hold with hold | ⟨rfl, rfl⟩
    · obtain ⟨t, ht, hrep, hmem⟩ := hi.waiting y w hold
      obtain ⟨t', ht', hrep', htid, -⟩ := hi.later hstep ht hrep
      exact ⟨t', ht', hrep', List.mem_append_left _ (by rwa [htid])⟩
    · exact ⟨new, hnew, hnrep, by simp [hntid]⟩
  · intro y i t ht hrep halive
    rcases htasks ht with hold | ⟨rfl, rfl⟩
    · obtain ⟨w, hw, href⟩ := hi.alive hold hrep halive
      refine ⟨w, ?_, href⟩
      by_cases hy : y = x
      · subst hy
        simp [hw]
      · simpa [Function.update_of_ne hy] using hw
    · exact ⟨⟨_, a.call⟩, by simp, rfl⟩
  · intro e he
    rcases List.mem_append.mp he with hold | hlast
    · obtain ⟨i, t, mount, ht, hrep, htid, hreq⟩ := hi.issued e hold
      obtain ⟨t', ht', hrep', htid', hreq'⟩ := hi.later hstep ht hrep
      exact ⟨i, t', mount, ht', hrep', htid'.trans htid, hreq.trans hreq'.symm⟩
    · obtain rfl := List.mem_singleton.mp hlast
      obtain ⟨mount, hmount⟩ := hi.asking x a ha
      exact ⟨_, new, mount, hnew, hnrep, hntid, hmount.trans hnreq.symm⟩
  · -- The id of the new call is not the one of an earlier call.
    have hother : tid ∉ s.issued.map FleetCall.tid := by
      intro hmem
      obtain ⟨e, he, hetid⟩ := List.mem_map.mp hmem
      obtain ⟨i, t, -, ht, -, htid, -⟩ := hi.issued e he
      exact hfresh ht (htid.trans hetid)
    rw [List.map_append]
    exact hi.unique.append (List.nodup_singleton tid) (by simpa using hother)
  · intro y i t ht hrep
    rcases htasks ht with hold | ⟨rfl, rfl⟩
    · obtain ⟨call, hcall⟩ := hi.called hold hrep
      exact ⟨call, List.mem_append_left _ hcall⟩
    · obtain rfl : t = new := Option.some.inj (ht.symm.trans hnew)
      exact ⟨a.call, by simp [hntid]⟩

/-- The call of a task that has returned no longer waits. The other calls have tasks of their own,
so the filter by `ref` takes out this call and no other. A refused call is taken out in the same way
as a permitted one. -/
private theorem CallsInv.answered (hi : CallsInv c s) {x : PeerName} {ref : Nat} {t : Task}
    {r : Option ReplicateError} (ht : s.system.task? x ref = some t)
    (hg : t.goroutine = .replicate (.returned r)) (mounts : PeerName → Mount) :
    CallsInv c { s with
      mounts
      waiting := Function.update s.waiting x ((s.waiting x).filter (·.ref ≠ ref)) } := by
  have hsub : ∀ {y w}, w ∈ Function.update s.waiting x ((s.waiting x).filter (·.ref ≠ ref)) y →
      w ∈ s.waiting y := by
    intro y w hw
    by_cases hy : y = x
    · subst hy
      rw [Function.update_self] at hw
      exact List.mem_of_mem_filter hw
    · rwa [Function.update_of_ne hy] at hw
  refine ⟨hi.system, hi.asking, fun y w hw => hi.waiting y w (hsub hw), ?_,
    hi.issued, hi.unique, hi.called⟩
  intro y i u hu hrep halive
  obtain ⟨w, hw, href⟩ := hi.alive hu hrep halive
  refine ⟨w, ?_, href⟩
  by_cases hy : y = x
  · subst hy
    simp only [Function.update_self, List.mem_filter]
    refine ⟨hw, decide_eq_true fun hsame => ?_⟩
    -- The task at `ref` is not alive.
    rw [← href, hsame, ht] at hu
    cases hu
    rw [hg] at halive
    cases halive
  · simpa only [Function.update_of_ne hy] using hw

/-- Every step keeps the invariant. The steps of the files are steps of the network for it, since it
says nothing about the files. So the proof looks at the moves of the fleet, and sees whether each
starts a call, answers one, or neither. -/
theorem CallsInv.step (hi : CallsInv c s) {l : FleetLabel}
    (h : s.step sites c l = some s') : CallsInv c s' := by
  cases Fleet.step_move h with
  | ask x call request hasks =>
    refine ⟨hi.system, fun y a ha => ?_, hi.waiting, hi.alive, hi.issued, hi.unique,
      hi.called⟩
    by_cases hy : y = x
    · subst hy
      simp only [Function.update_self, List.mem_append, List.mem_singleton] at ha
      rcases ha with hold | rfl
      · exact hi.asking y a hold
      · exact ⟨s.mounts y, Mount.request?_of_asks hasks⟩
    · simp only [Function.update_of_ne hy] at ha
      exact hi.asking y a ha
  | alone x call mount errno hadmits hasks hcall =>
    exact ⟨hi.system, hi.asking, hi.waiting, hi.alive, hi.issued, hi.unique,
      hi.called⟩
  | replicate x index tid a system ha hstep => exact hi.replicate (List.mem_of_getElem? ha) hstep
  | resume x ref w t mount errno hw href ht hg honward => exact hi.answered ht hg _
  | refuse x ref w t err hw href ht hg => exact hi.answered ht hg _
  | consult x ref t msg request response system ht hg hconsult hstep =>
    exact hi.network hstep rfl rfl rfl rfl
  | mirror x ref t request mount err system ht hg hmirror hstep =>
    exact hi.network hstep rfl rfl rfl rfl
  | network action system hfiles hstep =>
    -- A call of `Replicate` is a step of the fleet, with the label `replicate`.
    have hcall : action.isCall = false := by
      unfold Action.isCall
      split
      · cases hfiles
      · rfl
    exact hi.network hstep hcall rfl rfl rfl
  | crash l x p hx htask =>
    exact ⟨hi.system, hi.asking, hi.waiting, hi.alive, hi.issued, hi.unique,
      hi.called⟩

/-- No call has been made, and nothing is in flight. The clocks and the files are arbitrary. -/
theorem FleetInv.init (c : Cluster) (clocks : PeerName → UInt64) (disks : PeerName → Disk) :
    FleetInv c (Fleet.init c clocks disks) where
  toCallsInv := .init c clocks disks
  faultFree := .init c clocks

/-- Every fault-free step keeps the invariant. The network is one of a fault-free run throughout. -/
theorem FleetInv.step (hi : FleetInv c s) {l : FleetLabel}
    (h : s.stepFF sites c l = some s') : FleetInv c s' := by
  obtain ⟨hfree, hstep⟩ := restrict_eq_some.mp h
  refine ⟨hi.toCallsInv.step hstep, ?_⟩
  rcases (Fleet.step_move hstep).system hfree with hsame | ⟨a, ha⟩
  · rw [hsame]
    exact hi.faultFree
  · exact hi.faultFree.step hi.system ha

/-- `Fleet.Settled`, seen from the hosts of the cluster. -/
def Fleet.quiet (c : Cluster) (s : Fleet) : Bool :=
  s.system.inFlight.isEmpty && c.names.all fun x =>
    ((s.system.hosts x).tasks.all fun t => !t.goroutine.alive) &&
      ((s.asking x).isEmpty && (s.waiting x).isEmpty)

/-- `quiet` can be evaluated. It looks at the hosts of the configuration only, and by the invariant
there is nothing elsewhere. -/
theorem CallsInv.settled (hi : CallsInv c s) (h : s.quiet c = true) : s.Settled c := by
  simp only [Fleet.quiet, Bool.and_eq_true, List.all_eq_true, Bool.not_eq_true',
    List.isEmpty_iff] at h
  obtain ⟨hflight, hhosts⟩ := h
  refine ⟨fun x i t ht => ?_, hflight, fun x hx => (hhosts x hx).2.1, fun x hx => (hhosts x hx).2.2⟩
  exact (hhosts x (hi.system.members ht)).1 t (List.mem_of_getElem? ht)

end Invariant

end ReplicatedFs.Rfs
