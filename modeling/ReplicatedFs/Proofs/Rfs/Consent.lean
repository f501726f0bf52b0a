import ReplicatedFs.Proofs.P2p.AtomicCommit
import ReplicatedFs.Proofs.Rfs.FleetStep

/-!
# `ReplicatedFs.Proofs.Rfs.Consent`: no change without the consent of every host

A run of the fleet in which anything may go wrong: messages are lost, broadcasts fail or reach a
part of the peers, contexts end, hosts panic. The files of a host change in three ways: a FUSE call
that asks nobody, a FUSE call whose `Replicate` returned nil, and a call of `Mirror.Mirror`.

`ConsentInv` keeps what the hosts were asked. A verdict that a handler holds is one that its own
`Mirror.Consult` gave earlier in the run, on the files as they were then. The request of a
transaction is one that the FUSE call behind it built, and the `Mirror.Consult` of its host had
nothing against it.

With the votes of `Votes.lean` this is what stands behind a change of the last two kinds
(`changes_consented`).
-/

set_option autoImplicit false

namespace ReplicatedFs.P2p

open ReplicatedFs.Protobuf

/-- The answer of `Mirror.Consult` that a handler is about to vote with, with its request. -/
def Goroutine.verdict? : Goroutine → Option (Request × Response)
  | .handle (.detect _ request verdict) => some (request, verdict)
  | .handle (.respond _ ballot) => some (ballot.request, ballot.verdict)
  | _ => none

/-- The answers of `Mirror.Consult` that a handler has voted with, or is about to. -/
def Task.verdicts (t : Task) : List (Request × Response) :=
  t.ballots.map (fun b => (b.request, b.verdict)) ++ t.goroutine.verdict?.toList

section Verdicts
variable {h : Host} {t t' : Task} {v : Request × Response}

/-- A verdict that a goroutine has after its step is an old one, or the one that it was given. It is
kept with the request until the vote is broadcast, and with the ballot after that. -/
private theorem TaskMove.verdicts {input : Input} {m : Move} (hm : TaskMove h t input m)
    (hv : v ∈ m.task.verdicts) :
    v ∈ t.verdicts ∨ input = .consulted v.2 ∧ ∃ msg, t.goroutine = .handle (.consult msg v.1) := by
  cases hm with
  | approve msg request response hg ha | reject msg request response hg ha =>
    rcases List.mem_append.mp hv with hold | hnew
    · exact .inl (List.mem_append_left _ hold)
    · obtain rfl : v = (request, response) := by simpa [Goroutine.verdict?, Task.goto] using hnew
      exact .inr ⟨rfl, msg, hg⟩
  | detect msg request verdict b hg hc =>
    -- The verdict moves into the ballot.
    left
    rw [Task.verdicts, hg]
    exact hv
  | respond msg ballot result hg =>
    left
    rw [Task.verdicts, hg]
    simpa [Task.verdicts, Goroutine.verdict?] using hv
  | _ =>
    left
    refine List.mem_append_left _ ?_
    simpa [Task.verdicts, Goroutine.verdict?, Task.goto] using hv

/-- A verdict that a handler has after a step of its host is an old one, or the one that the step
gave it. So all verdicts are answers of `Mirror.Consult`. -/
theorem TaskChange.verdicts {i : Nat} {e : Event} {sent : Option Sent} {old : Option Task}
    (hc : TaskChange h i e sent old t') (hv : v ∈ t'.verdicts) :
    ∃ t, old = some t ∧ (v ∈ t.verdicts ∨
      e = .task i (.consulted v.2) ∧ ∃ msg, t.goroutine = .handle (.consult msg v.1)) := by
  cases hc with
  | same e sent t => exact ⟨_, rfl, .inl hv⟩
  | call tid request hfresh => cases hv
  | join msg t hlookup => exact ⟨t, rfl, .inl hv⟩
  | spawn msg hlookup => cases hv
  | notify msg t hl hr =>
    refine ⟨t, rfl, .inl ?_⟩
    unfold Task.notified at hv
    split at hv
    · -- A reader that takes a request has no verdict for it yet.
      refine List.mem_append_left _ ?_
      simpa [Task.verdicts, Goroutine.verdict?] using hv
    · exact hv
  | move input t m hm =>
    refine ⟨t, rfl, ?_⟩
    rcases hm.verdicts hv with hold | ⟨rfl, hg⟩
    · exact .inl hold
    · exact .inr ⟨rfl, hg⟩

end Verdicts

section Initiator
variable {c : Cluster} {s : System} {x z : PeerName} {i j : Nat} {t u : Task}

/-- Behind a commit every peer of the initiator has a verdict for the request, and it is an ACK.
Here the commit may be the one of the initiator or of a handler. -/
theorem SystemInv.consented (hi : SystemInv c s) (hu : s.task? z j = some u)
    (hrep : u.goroutine.isReplicate = true) (ht : s.task? x i = some t)
    (htid : t.trans.tid = u.trans.tid) (hcommit : t.goroutine.decision? = some .commit)
    {request : Request} (hreq : u.trans.request = some request) {y : PeerName}
    (hy : y ∈ c.peers z) :
    ∃ k v verdict, s.task? y k = some v ∧ (request, verdict) ∈ v.verdicts ∧
      verdict.type = .ack := by
  -- A commit follows a unanimous vote, by the theorem about elections.
  have hunanimous := hi.election_sound hu hrep (x, i) .commit (by
    rw [← htid, election_decisions ht]
    exact hcommit)
  obtain ⟨b, hvoted, happroves⟩ := hi.voted_of_unanimous hunanimous y hy
  have hsame := (hi.call_of_voted hu hrep hvoted).2.1
  rw [hreq] at hsame
  obtain ⟨k, v, hv, -, hb⟩ := hvoted
  simp only [Ballot.approves, Bool.and_eq_true, decide_eq_true_eq] at happroves
  refine ⟨k, v, b.verdict, hv, ?_, happroves.1⟩
  rw [Option.some.inj hsame]
  exact List.mem_append_left _ (List.mem_map.mpr ⟨b, hb, rfl⟩)

/-- A handler that calls `Mirror.Mirror` with a request has it from another host. -/
theorem SystemInv.mirror_initiator (hi : SystemInv c s) (ht : s.task? x i = some t)
    {request : Request} (hg : t.goroutine = .handle (.mirror (some request))) :
    ∃ z j u, s.task? z j = some u ∧ u.goroutine.isReplicate = true ∧
      u.trans.tid = t.trans.tid ∧ u.trans.request = some request ∧ z ≠ x := by
  obtain ⟨-, -, -, ms, -, hms, hreq⟩ := hi.decided_of_mirrorCall ht
    (by rw [hg]; rfl : t.goroutine.mirrorCall? = some (some request))
  obtain ⟨m, hm, hr⟩ := mem_requestsOf.mp (List.mem_of_getLast? hreq.symm)
  have hinbox := hms.subset hm
  obtain ⟨j, u, hu, htid, hrep, -, hur, hne⟩ :=
    hi.request_source (mem_arrived_of_inbox ht hinbox) hr
  exact ⟨m.peerName, j, u, hu, hrep, htid.trans ((hi.taskInv ht).tids m hinbox), hur, hne⟩

end Initiator

end ReplicatedFs.P2p

namespace ReplicatedFs.Rfs

open Library Library.Posix Protobuf P2p

/-- `Mirror.Consult` of the host answers the request, on the files that it has. -/
def Fleet.Consults (sites : PeerName → Site) (s : Fleet) (y : PeerName) (request : Request)
    (response : Response) : Prop :=
  (sites y).mirror.consult (sites y).proc (s.mounts y).disk.tree.1 request = .ok (some response)

/-- The FUSE call of the host hands the request to `Replicate`. -/
def Fleet.Asks (sites : PeerName → Site) (s : Fleet) (x : PeerName) (call : Call)
    (request : Request) : Prop :=
  (s.mounts x).asks (sites x).mirror (sites x).proc call = some request

/-- What stands behind the state `s` after the labels `ls`. -/
structure ConsentInv (sites : PeerName → Site) (c : Cluster) (s₀ : Fleet) (ls : List FleetLabel)
    (s : Fleet) : Prop where
  inv : CallsInv c s
  run : run (Fleet.step sites c) s₀ ls = some s
  verdicts : ∀ {y i t}, s.system.task? y i = some t → ∀ v ∈ t.verdicts,
    Passes (Fleet.step sites c) s₀ ls fun m => m.Consults sites y v.1 v.2
  asking : ∀ x, ∀ a ∈ s.asking x,
    Passes (Fleet.step sites c) s₀ ls fun m => m.Asks sites x a.call a.request
  issued : ∀ e ∈ s.issued, ∃ i t request, s.system.task? e.host i = some t ∧
    t.goroutine.isReplicate = true ∧ t.trans.tid = e.tid ∧ t.trans.request = some request ∧
    Passes (Fleet.step sites c) s₀ ls fun m => m.Asks sites e.host e.call request

section Consent
variable {sites : PeerName → Site} {c : Cluster} {s₀ s s' : Fleet} {ls : List FleetLabel}

/-- The handlers after a step of the network, which gives a verdict only to a handler that
`Mirror.Consult` has just answered. -/
private theorem ConsentInv.verdicts_step (hi : ConsentInv sites c s₀ ls s) {a : Action}
    {system : System} (hstep : s.system.step c a = some system) (l : FleetLabel)
    (hconsult : ∀ {y ref response}, a = .host y (.task ref (.consulted response)) →
      ∀ {t msg request}, s.system.task? y ref = some t →
        t.goroutine = .handle (.consult msg request) → s.Consults sites y request response)
    {y : PeerName} {i : Nat} {t' : Task} (ht' : system.task? y i = some t')
    {v : Request × Response} (hv : v ∈ t'.verdicts) :
    Passes (Fleet.step sites c) s₀ (ls ++ [l]) fun m => m.Consults sites y v.1 v.2 := by
  rcases (System.step_move hstep).change ht' with hsame | ⟨e, sent, rfl, -, -, -, hchange⟩
  · exact (hi.verdicts hsame v hv).concat l
  · obtain ⟨t, ht, hold | ⟨rfl, msg, hg⟩⟩ := hchange.verdicts hv
    · exact (hi.verdicts ht v hold).concat l
    · exact (Passes.last hi.run (hconsult rfl ht hg)).concat l

/-- The transactions of the FUSE calls after a step of the network. -/
private theorem ConsentInv.issued_step (hi : ConsentInv sites c s₀ ls s) {a : Action}
    {system : System} (hstep : s.system.step c a = some system) (l : FleetLabel)
    {e : FleetCall} (he : e ∈ s.issued) :
    ∃ i t request, system.task? e.host i = some t ∧ t.goroutine.isReplicate = true ∧
      t.trans.tid = e.tid ∧ t.trans.request = some request ∧
      Passes (Fleet.step sites c) s₀ (ls ++ [l]) fun m => m.Asks sites e.host e.call request := by
  obtain ⟨i, t, request, ht, hrep, htid, hreq, hasks⟩ := hi.issued e he
  obtain ⟨t', ht', hrep', htid', hreq'⟩ := hi.inv.later hstep ht hrep
  exact ⟨i, t', request, ht', hrep', htid'.trans htid, hreq'.trans hreq, hasks.concat l⟩

/-- A step that leaves the network and the calls before `Replicate` as they are. -/
private theorem ConsentInv.quiet (hi : ConsentInv sites c s₀ ls s) {l : FleetLabel}
    (hstep : s.step sites c l = some s') (hsystem : s'.system = s.system)
    (hasking : s'.asking = s.asking) (hissued : s'.issued = s.issued) :
    ConsentInv sites c s₀ (ls ++ [l]) s' := by
  refine ⟨hi.inv.step hstep, run_concat hi.run hstep, ?_, ?_, ?_⟩
  · rw [hsystem]
    exact fun ht v hv => (hi.verdicts ht v hv).concat l
  · rw [hasking]
    exact fun x a ha => (hi.asking x a ha).concat l
  · rw [hissued, hsystem]
    intro e he
    obtain ⟨i, t, request, ht, hrep, htid, hreq, hasks⟩ := hi.issued e he
    exact ⟨i, t, request, ht, hrep, htid, hreq, hasks.concat l⟩

/-- A step of the network that starts no call. The verdicts it adds are those of `Mirror.Consult` on
the files of the host, and this is asked for in `hconsult`. -/
private theorem ConsentInv.network (hi : ConsentInv sites c s₀ ls s) {l : FleetLabel} {a : Action}
    (hstep : s.step sites c l = some s') (hsystem : s.system.step c a = some s'.system)
    (hasking : s'.asking = s.asking) (hissued : s'.issued = s.issued)
    (hconsult : ∀ {y ref response}, a = .host y (.task ref (.consulted response)) →
      ∀ {t msg request}, s.system.task? y ref = some t →
        t.goroutine = .handle (.consult msg request) → s.Consults sites y request response) :
    ConsentInv sites c s₀ (ls ++ [l]) s' := by
  refine ⟨hi.inv.step hstep, run_concat hi.run hstep, ?_, ?_, ?_⟩
  · exact fun ht v hv => hi.verdicts_step hsystem l hconsult ht hv
  · rw [hasking]
    exact fun x a ha => (hi.asking x a ha).concat l
  · rw [hissued]
    exact fun e he => hi.issued_step hsystem l he

/-- Every step keeps the invariant. A step adds its label to the run, and with it the states that
the run has passed, which is all that `Passes` needs to stay true. -/
theorem ConsentInv.step (hi : ConsentInv sites c s₀ ls s) {l : FleetLabel}
    (h : s.step sites c l = some s') : ConsentInv sites c s₀ (ls ++ [l]) s' := by
  have hm := Fleet.step_move h
  cases hm with
  | ask x call request hasks =>
    refine ⟨hi.inv.step h, run_concat hi.run h, ?_, ?_, ?_⟩
    · exact fun ht v hv => (hi.verdicts ht v hv).concat _
    · intro y a ha
      by_cases hy : y = x
      · subst hy
        simp only [Function.update_self, List.mem_append, List.mem_singleton] at ha
        rcases ha with hold | rfl
        · exact (hi.asking y a hold).concat _
        · -- The state in which the call asks is the one before this step.
          exact (Passes.last hi.run hasks).concat _
      · simp only [Function.update_of_ne hy] at ha
        exact (hi.asking y a ha).concat _
    · intro e he
      obtain ⟨i, t, request, ht, hrep, htid, hreq, hpass⟩ := hi.issued e he
      exact ⟨i, t, request, ht, hrep, htid, hreq, hpass.concat _⟩
  | replicate x index tid a system ha hstep =>
    refine ⟨hi.inv.step h, run_concat hi.run h, ?_, ?_, ?_⟩
    · exact fun ht v hv => hi.verdicts_step hstep _ (fun heq => by cases heq) ht hv
    · intro y b hb
      by_cases hy : y = x
      · subst hy
        simp only [Function.update_self] at hb
        exact (hi.asking y b (List.eraseIdx_subset hb)).concat _
      · simp only [Function.update_of_ne hy] at hb
        exact (hi.asking y b hb).concat _
    · intro e he
      rcases List.mem_append.mp he with hold | hnew
      · exact hi.issued_step hstep _ hold
      · obtain rfl := List.mem_singleton.mp hnew
        -- The new task has the request of the call, which has asked before.
        obtain ⟨⟨t, ht, htid, hreq, hrep, -⟩, -⟩ := replicate_tasks hstep
        exact ⟨_, t, a.request, ht, hrep, htid, hreq,
          (hi.asking x a (List.mem_of_getElem? ha)).concat _⟩
  | consult x ref t msg request response system ht hg hconsult hstep =>
    refine hi.network h hstep rfl rfl fun heq t' msg' request' ht' hg' => ?_
    cases heq
    obtain rfl : t = t' := Option.some.inj (ht.symm.trans ht')
    rw [hg] at hg'
    cases hg'
    exact hconsult
  | mirror x ref t request mount err system ht hg hmirror hstep =>
    exact hi.network h hstep rfl rfl fun heq => by cases heq
  | network action system hfiles hstep =>
    exact hi.network h hstep rfl rfl fun heq => by
      subst heq
      cases hfiles
  | alone | resume | refuse | crash => exact hi.quiet h rfl rfl rfl

/-- The invariant holds after every run, since a longer run only adds a step at its end. -/
theorem ConsentInv.of_run {clocks : PeerName → UInt64} {disks : PeerName → Disk}
    (hrun : Library.run (Fleet.step sites c) (Fleet.init c clocks disks) ls = some s) :
    ConsentInv sites c (Fleet.init c clocks disks) ls s := by
  refine run_history (I := ConsentInv sites c (Fleet.init c clocks disks))
    (fun _ _ _ _ hstep hi => hi.step hstep) hrun ⟨.init c clocks disks, rfl, ?_, ?_, ?_⟩
  · intro y i t ht
    simp [System.task?, Fleet.init, System.init] at ht
  · simp [Fleet.init]
  · simp [Fleet.init]

/-- A FUSE call that returns without a call of `Replicate` and has changed something asks nobody. A
call that has a request and does not get to `Replicate` was turned down by its own mirror, and
leaves everything as it was. -/
private theorem request?_of_alone {m : Mirror} {proc : Process} {lb : Loopback}
    {mount mount' : Mount} {call : Call} {errno : Option Errno}
    (hasks : mount.asks m proc call = none)
    (hcall : mount.call m proc lb none call = some (.ok (mount', errno)))
    (hchange : mount' ≠ mount) : mount.request? call = none := by
  cases hreq : mount.request? call with
  | none => rfl
  | some req =>
    obtain ⟨onward, honward⟩ := mount.call_eq_permitted m proc lb hreq
    have hpermitted := Option.some.inj ((honward none).symm.trans hcall)
    rcases Mount.permitted_cases hreq hpermitted with ⟨-, hsame, -⟩ | ⟨hsome, -⟩
    · -- It was refused or failed to ask, and such a call changes nothing.
      exact absurd hsame hchange
    · rw [hasks] at hsome
      cases hsome

/-- What stands behind a commit of the task `t`, whose transaction the task `u` at `z` started. The
FUSE call had asked for the request earlier in the run, and every peer of `z` had consulted its
mirror about it with the answer `ACK`. -/
private theorem ConsentInv.of_commit (hi : ConsentInv sites c s₀ ls s) {x z : PeerName} {i j : Nat}
    {t u : Task} (hu : s.system.task? z j = some u) (hrep : u.goroutine.isReplicate = true)
    (ht : s.system.task? x i = some t) (htid : t.trans.tid = u.trans.tid)
    (hcommit : t.goroutine.decision? = some .commit) {e : FleetCall} (he : e ∈ s.issued)
    (hetid : e.tid = u.trans.tid) :
    ∃ request, u.trans.request = some request ∧ e.host = z ∧
      Passes (Fleet.step sites c) s₀ ls (fun m => m.Asks sites z e.call request) ∧
      ∀ y ∈ c.peers z, ∃ verdict, verdict.type = .ack ∧
        Passes (Fleet.step sites c) s₀ ls fun m => m.Consults sites y request verdict := by
  obtain ⟨k, w, request, hw, hwrep, hwtid, hreq, hasks⟩ := hi.issued e he
  -- The call with this id is the one of `u`.
  obtain ⟨hhost, rfl⟩ := hi.inv.system.initiators hw hu hwrep hrep (hwtid.trans hetid)
  rw [hhost] at hw hasks
  obtain rfl : w = u := Option.some.inj (hw.symm.trans hu)
  refine ⟨request, hreq, hhost, hasks, fun y hy => ?_⟩
  obtain ⟨l, v, verdict, hv, hmem, hack⟩ :=
    hi.inv.system.consented hu hrep ht htid hcommit hreq hy
  have hconsults := hi.verdicts hv (request, verdict) hmem
  exact ⟨verdict, hack, hconsults⟩

end Consent

/-- Whatever goes wrong, a host changes its files only in a FUSE call that asks nobody, or for a
FUSE call of some host that asked for a transaction. The host of the call itself goes on with the
call, and another host mirrors the request of the call. Before that, `Mirror.Consult` of the calling
host had nothing against the request, and `Mirror.Consult` of every other host answered it with
`ACK`, each on its own files. -/
theorem changes_consented (sites : PeerName → Site) (c : Cluster) (clocks : PeerName → UInt64)
    (disks : PeerName → Disk) {ls : List FleetLabel} {s s' : Fleet}
    (hrun : run (Fleet.step sites c) (Fleet.init c clocks disks) ls = some s) {l : FleetLabel}
    (hstep : s.step sites c l = some s') {x : PeerName} (hchange : s'.mounts x ≠ s.mounts x) :
    (∃ call, l = .call x call ∧ (s.mounts x).request? call = none) ∨
      ∃ e ∈ s.issued, ∃ request,
        (if x = e.host then
          ∃ errno, (s.mounts x).onward (sites x).mirror (sites x).proc (sites x).loopback e.call =
            some (s'.mounts x, errno)
        else ∃ err, (s.mounts x).mirrored (sites x).mirror (sites x).proc request =
          .ok (s'.mounts x, err)) ∧
        Passes (Fleet.step sites c) (Fleet.init c clocks disks) ls
          (fun m => m.Asks sites e.host e.call request) ∧
        ∀ y ∈ c.peers e.host, ∃ verdict, verdict.type = .ack ∧
          Passes (Fleet.step sites c) (Fleet.init c clocks disks) ls
            fun m => m.Consults sites y request verdict := by
  have hi := ConsentInv.of_run hrun
  -- The mount of the host that moved is the only one that can have changed.
  have hat : ∀ {z mount}, s'.mounts = Function.update s.mounts z mount →
      z = x ∧ s'.mounts x = mount := by
    intro z mount hupdate
    by_cases hz : x = z
    · subst hz
      exact ⟨rfl, by rw [hupdate, Function.update_self]⟩
    · exact absurd (by rw [hupdate, Function.update_of_ne hz]) hchange
  cases Fleet.step_move hstep with
  | alone z call mount errno hadmits hasks hcall =>
    obtain ⟨rfl, hmount⟩ := hat rfl
    rw [hmount] at hchange
    exact .inl ⟨call, rfl, request?_of_alone hasks hcall hchange⟩
  | resume z ref w t mount errno hw href ht hg honward =>
    obtain ⟨rfl, hmount⟩ := hat rfl
    right
    obtain ⟨u, hu, hrep, hissued⟩ := hi.inv.waiting z w hw
    rw [href] at hu
    obtain rfl : t = u := Option.some.inj (ht.symm.trans hu)
    obtain ⟨request, -, -, hasks, hconsults⟩ :=
      hi.of_commit hu hrep hu rfl (by rw [hg]; rfl) hissued rfl
    refine ⟨_, hissued, request, ?_, hasks, hconsults⟩
    rw [if_pos rfl, hmount]
    exact ⟨errno, honward⟩
  | mirror z ref t request mount err system ht hg hmirror hsystem =>
    obtain ⟨rfl, hmount⟩ := hat rfl
    right
    obtain ⟨p, j, u, hu, hrep, htid, hreq, hne⟩ := hi.inv.system.mirror_initiator ht hg
    obtain ⟨call, hissued⟩ := hi.inv.called hu hrep
    obtain ⟨request', hreq', -, hasks, hconsults⟩ :=
      hi.of_commit hu hrep ht htid.symm (by rw [hg]; rfl) hissued rfl
    obtain rfl : request = request' := Option.some.inj (hreq.symm.trans hreq')
    refine ⟨_, hissued, request, ?_, hasks, hconsults⟩
    rw [if_neg hne.symm, hmount]
    exact ⟨err, hmirror⟩
  | ask | replicate | refuse | consult | network | crash => exact absurd rfl hchange

/-- The vote of `b` is lost, and the call at `a` times out. -/
def unansweredRun : List FleetLabel :=
  votedCall ++ [.network (.lose "a" (newResponseMessage "t" "b" ack)),
    .network (.host "a" (.task 0 (.contextDone .deadlineExceeded))),
    .network (.host "b" (.task 0 .run))]

/-- After `unansweredRun` the host `b` makes the directory. Its `Mirror.Consult` had agreed to the
request earlier in this run. -/
theorem changes_consented_unansweredRun :
    ∃ s s', run (Fleet.step someSites duo) someFleet unansweredRun = some s ∧
      s.step someSites duo (.mirror "b" 0) = some s' ∧ s'.mounts "b" ≠ s.mounts "b" ∧
      ∃ e ∈ s.issued, ∃ request verdict, "b" ∈ duo.peers e.host ∧ verdict.type = .ack ∧
        Passes (Fleet.step someSites duo) someFleet unansweredRun
          fun m => m.Consults someSites "b" request verdict := by
  have hrun : (run (Fleet.step someSites duo) someFleet unansweredRun).any (fun s =>
      decide (∀ e ∈ s.issued, e.host = "a") &&
        (s.step someSites duo (.mirror "b" 0)).any fun s' =>
          (stat someProcess (s'.mounts "b").disk.tree.1 ["m", "c"]).isOk &&
            !(stat someProcess (s.mounts "b").disk.tree.1 ["m", "c"]).isOk) = true := by decide
  simp only [Option.any_eq_true, Bool.and_eq_true, decide_eq_true_eq, Bool.not_eq_true'] at hrun
  obtain ⟨s, hs, hhost, s', hs', hnew, hold⟩ := hrun
  -- The directory is there after the step and was not before.
  have hchange : s'.mounts "b" ≠ s.mounts "b" := by
    intro hsame
    rw [hsame, hold] at hnew
    cases hnew
  refine ⟨s, s', hs, hs', hchange, ?_⟩
  rcases changes_consented someSites duo _ _ hs hs' hchange with
    ⟨call, hcall, -⟩ | ⟨e, he, request, -, -, hconsults⟩
  · cases hcall
  · have hpeer : "b" ∈ duo.peers e.host := by
      rw [hhost e he]
      decide
    obtain ⟨verdict, hack, hpass⟩ := hconsults "b" hpeer
    exact ⟨e, he, request, verdict, hpeer, hack, hpass⟩

end ReplicatedFs.Rfs
