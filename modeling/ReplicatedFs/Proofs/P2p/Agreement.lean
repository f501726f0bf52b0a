import ReplicatedFs.Proofs.P2p.Listening

/-!
# `ReplicatedFs.Proofs.P2p.Agreement`: fault-free transactions

* `fault_free_agreement`: in a fault-free run in which no handler disturbs `listen`, all hosts
  decide alike. `Replicate` returns nil, and a handler mirrors the request of the initiator,
  exactly when every peer voted for it. The id leaves all maps, and the run settles.
* `acknowledged_call_hangs`: without the condition on `listen` this is false. The network delivers
  the vote of the only peer, `listen` drops it because of the error of another transaction, and
  `Replicate` waits for it while the peer has mirrored the request.
* `program_order`: when `Replicate` has returned nil, every other host has voted for the
  request, and its handler can only end by mirroring it. It need not have mirrored it yet:
  `overtaken_by_later_call` is a fault-free run in which a later request is mirrored first.
-/

set_option autoImplicit false

namespace ReplicatedFs.P2p

open ReplicatedFs.Protobuf
open Library

/-- Every peer of `x` has voted for the transaction: `Mirror.Consult` answered `ACK` and no
conflict was found. -/
def System.Approved (c : Cluster) (s : System) (x : PeerName) (tid : TransactionID) : Prop :=
  ∀ p ∈ c.peers x, ∃ b, s.Voted tid p b ∧ b.approves = true

section Facts
variable {c : Cluster} {s : System} {x y : PeerName} {i j : Nat} {t u : Task}

/-- The approval that is read off the goroutines is the unanimity of the abstract election. -/
theorem SystemInv.approved_iff (hi : SystemInv c s) {tid : TransactionID} :
    s.Approved c x tid ↔ (s.election tid).Unanimous (c.peers x) := by
  constructor
  · intro h p hp
    exact hi.vote?_eq_some.mpr (h p hp)
  · exact hi.voted_of_unanimous

/-- In a fault-free run, `Replicate` decides by the votes. No other error can have come up, so its
result says how the peers voted. -/
theorem FaultFreeInv.returned_nil_iff (hf : FaultFreeInv c s) (hi : SystemInv c s)
    (ht : s.task? x i = some t) {r : Option ReplicateError}
    (hg : t.goroutine = .replicate (.returned r)) :
    r = none ↔ s.Approved c x t.trans.tid := by
  have hrep : t.goroutine.isReplicate = true := by rw [hg]; rfl
  have hsound := hi.election_sound ht hrep
  have hdecision : (s.election t.trans.tid).decisions (x, i) = some (replicateDecision r) := by
    rw [election_decisions ht, hg]
    rfl
  have hfault := hf.faultless ht
  rw [hg] at hfault
  rw [hi.approved_iff]
  rcases of_decide_eq_true hfault with rfl | rfl | rfl
  · simpa using (hsound.commit_iff hdecision (by decide)).mp rfl
  · -- After a conflict nothing was asked, so no peer has voted.
    refine ⟨fun h => absurd h (by simp), fun hall => ?_⟩
    obtain ⟨p, hp⟩ := List.exists_mem_of_length_pos (c.length_peers_pos (hi.members ht))
    obtain ⟨b, hb, -⟩ := hi.voted_of_unanimous hall p hp
    have hasked := (hi.call_of_voted ht hrep hb).1
    simp [hg, Goroutine.asked] at hasked
  · refine ⟨fun h => absurd h (by simp), fun hall => ?_⟩
    have := (hsound.commit_iff hdecision (by decide)).mpr hall
    cases this

/-- In a fault-free run, a handler that is past its decision decided by the votes. -/
theorem FaultFreeInv.mirror_iff (hf : FaultFreeInv c s) (hi : SystemInv c s)
    (ht : s.task? x i = some t) (hrep : t.goroutine.isReplicate = true)
    (hu : s.task? y j = some u) (htid : u.trans.tid = t.trans.tid)
    (hpast : u.goroutine.mirrorCall?.isSome ∨ u.goroutine.outcome?.isSome) :
    u.goroutine.mirrorCall?.isSome ↔ s.Approved c x t.trans.tid := by
  have hsound := hi.election_sound ht hrep
  have hdecision := election_decisions hu
  rw [htid] at hdecision
  rw [hi.approved_iff]
  by_cases hm : u.goroutine.mirrorCall?.isSome
  · obtain ⟨req, hreq⟩ := Option.isSome_iff_exists.mp hm
    rw [decision?_of_mirrorCall hreq] at hdecision
    exact ⟨fun _ => hsound (y, j) .commit hdecision, fun _ => hm⟩
  · -- Without a fault, the handler ended with `ErrNotPermitted`.
    obtain ⟨r, hr⟩ := Option.isSome_iff_exists.mp (hpast.resolve_left hm)
    have hfault := hf.faultless hu
    have hveto : u.goroutine.decision? = some .veto := by
      rcases outcome?_eq_some.mp hr with hg | hg <;> rw [hg] at hfault hm ⊢ <;> cases r
      · cases hfault
      · rfl
      · exact absurd rfl hm
      · cases hfault
      · rfl
      · exact absurd rfl hm
    rw [hveto] at hdecision
    refine ⟨fun h => absurd h hm, fun hall => ?_⟩
    exact absurd (hsound (y, j) .veto hdecision) hall.not_vetoed

/-- In a fault-free run, no map holds the id of a transaction whose call and handlers have returned.
Each of them deletes its id at its end, and no message comes in later that would make it anew.
`hall` asks for a handler on every peer only if the request was sent. -/
private theorem FaultFreeInv.forgotten (hf : FaultFreeInv c s) (hi : SystemInv c s)
    (ht : s.task? x i = some t) (hrep : t.goroutine.isReplicate = true)
    (hdead : t.goroutine.alive = false)
    (hall : t.goroutine.asked = true → ∀ y ∈ c.peers x, ∃ j u, s.task? y j = some u ∧
      u.trans.tid = t.trans.tid ∧ u.goroutine.alive = false) (z : PeerName) :
    (s.hosts z).ts.lookup t.trans.tid = none := by
  cases hlookup : (s.hosts z).ts.lookup t.trans.tid with
  | none => rfl
  | some k =>
    exfalso
    obtain ⟨v, hv, hvtid⟩ := (hi.hosts z).listed _ _ hlookup
    have hvtask : s.task? z k = some v := hv
    have halive : v.goroutine.alive = true :=
      ((hi.hosts z).table k v hv).mpr (by rw [hvtid]; exact hlookup)
    cases hvrep : v.goroutine.isReplicate with
    | true =>
      -- The entry is the one of the call itself, which is gone.
      obtain ⟨rfl, rfl⟩ := hi.initiators hvtask ht hvrep hrep hvtid
      obtain rfl : v = t := Option.some.inj (hvtask.symm.trans ht)
      rw [hdead] at halive
      cases halive
    | false =>
      -- The entry is the one of a handler. There is one on each host, and it has ended.
      have hzx : z ≠ x := by
        rintro rfl
        exact hf.apart ht hvtask hrep hvrep hvtid.symm
      obtain ⟨m, hm⟩ := List.exists_mem_of_ne_nil _ (hi.gathered hvtask hvrep)
      have hasked := hi.asked_of_arrived ht hrep (mem_arrived_of_inbox hvtask hm)
        (((hi.taskInv hvtask).tids m hm).trans hvtid)
      obtain ⟨j, u, hu, hutid, hudead⟩ :=
        hall hasked z (Cluster.mem_peers.mpr ⟨hi.members hvtask, hzx⟩)
      have hurep : u.goroutine.isReplicate = false := by
        by_contra hurep
        exact hzx (hi.initiators hu ht (by simpa using hurep) hrep hutid).1
      have hkj := hf.handler_unique hi hvtask hu hvrep hurep (hvtid.trans hutid.symm)
      subst hkj
      obtain rfl : v = u := Option.some.inj (hvtask.symm.trans hu)
      rw [hudead] at halive
      cases halive

end Facts

/-- In a run without a fault of the network or of a context, in which no handler puts its error in
the place of a message that `listen` has decoded, all hosts decide a transaction alike. `Replicate`
returns nil exactly when all peers voted for it. The handlers are on the other hosts, and one that
is past its decision has called `Mirror.Mirror`, with the request of the initiator, exactly in that
case. When all of them have returned, the id is in no map. Without new calls the run is bounded, and
it stops only when every reader has returned. -/
theorem fault_free_agreement {c : Cluster} {s : ListeningSystem} {x : PeerName} {i : Nat} {t : Task}
    (hs : ReachableClean c s) (ht : s.system.task? x i = some t)
    (hrep : t.goroutine.isReplicate = true) :
    (∀ r, t.goroutine = .replicate (.returned r) →
      (r = none ↔ s.system.Approved c x t.trans.tid)) ∧
    (∀ y j u, s.system.task? y j = some u → u.goroutine.isReplicate = false →
      u.trans.tid = t.trans.tid →
        y ≠ x ∧ (∀ req, u.goroutine.mirrorCall? = some req → req = t.trans.request) ∧
        (u.goroutine.mirrorCall?.isSome ∨ u.goroutine.outcome?.isSome →
          (u.goroutine.mirrorCall?.isSome ↔ s.system.Approved c x t.trans.tid))) ∧
    (t.goroutine.alive = false →
      (t.goroutine.asked = true → ∀ y ∈ c.peers x, ∃ j u, s.system.task? y j = some u ∧
        u.trans.tid = t.trans.tid ∧ u.goroutine.alive = false) →
      ∀ z, (s.system.hosts z).ts.lookup t.trans.tid = none) ∧
    ∀ as s', run (ListeningSystem.settleStep c) s as = some s' →
      as.length ≤ s.work c ∧ (s'.Quiet c → s'.system.Finished) := by
  obtain ⟨hi, hf⟩ := hs.system.2.inv
  refine ⟨fun r hg => hf.returned_nil_iff hi ht hg, fun y j u hu hurep htid => ?_,
    fun hdead hall => hf.forgotten hi ht hrep hdead hall,
    fun as s' hrun => ListeningSystem.settles hs hrun⟩
  have hyx : y ≠ x := by
    rintro rfl
    exact hf.apart ht hu hrep hurep htid.symm
  exact ⟨hyx, fun req hreq => hi.mirror_request ht hrep hu htid hyx hreq,
    hf.mirror_iff hi ht hrep hu htid⟩

/-- A clean run of two hosts, up to the return of `Replicate`. -/
def agreedListening : List ListeningAction :=
  (calls "a" 0 "t" (mkdirRequest "p" 0) ["b"]).map .other ++
    listens "b" (newRequestMessage "t" "a" (mkdirRequest "p" 0)) ++
    (votes "b" 0 ["a"]).map .other ++ listens "a" (newResponseMessage "t" "b" ack) ++
    [.other (.host "a" (.task 0 .run)), .other (.host "a" (.task 0 .run))]

/-- At the end of `agreedListening` the call has returned nil, and `b` has voted for the request. -/
theorem agreedRun_approved :
    ∃ s t, ReachableClean duo s ∧ s.system.task? "a" 0 = some t ∧
      t.goroutine = .replicate (.returned none) ∧ s.system.Approved duo "a" t.trans.tid := by
  have hrun : (run (ListeningSystem.stepClean duo) (ListeningSystem.init duo fun _ => 0)
      agreedListening).any (fun s => (s.system.task? "a" 0).any fun t =>
        t.goroutine = .replicate (.returned none)) = true := by decide
  obtain ⟨s, hs, hobs⟩ := Reaches.of_any _ _ _ hrun
  simp only [Option.any_eq_true, decide_eq_true_eq] at hobs
  obtain ⟨t, ht, hg⟩ := hobs
  have hclean : ReachableClean duo s := ⟨fun _ => 0, hs⟩
  refine ⟨s, t, hclean, ht, hg, ?_⟩
  exact ((fault_free_agreement hclean ht (by rw [hg]; rfl)).1 none hg).mp rfl

/-- Whatever `listen` drops, a `Replicate` that has returned nil was approved by all peers. What is
lost with a message is the way back: an approved call need not return. -/
theorem ListeningSystem.approved_of_nil {c : Cluster} {clocks : PeerName → UInt64}
    {s : ListeningSystem} {x : PeerName} {i : Nat} {t : Task}
    (hs : Reaches (ListeningSystem.step c) (ListeningSystem.init c clocks) s)
    (ht : s.system.task? x i = some t) (hnil : t.goroutine = .replicate (.returned none)) :
    s.system.Approved c x t.trans.tid := by
  have hi := (ListeningSystem.reachable hs).inv
  have hcommit : (s.system.election t.trans.tid).decisions (x, i) = some .commit := by
    rw [election_decisions ht, hnil]
    rfl
  exact hi.approved_iff.mpr (hi.election_sound ht (by rw [hnil]; rfl) (x, i) .commit hcommit)

/-- Two transactions at once. `a` turns down the request "t" of `b`, and its handler returns
`ErrNotPermitted`. Meanwhile `a` has sent the request "u". The vote of `b` for it arrives, `listen`
decodes it, and the closure of "t" assigns its error before `listen` tests `err`. Then everything
else goes on to its end. -/
def droppedVote : List ListeningAction :=
  (calls "b" 0 "t" (mkdirRequest "p" 0) ["a"]).map .other ++
    listens "a" (newRequestMessage "t" "b" (mkdirRequest "p" 0)) ++
    [.other (.host "a" (.task 0 (.consulted (nack .alreadyExists "file exists")))),
      .other (.host "a" (.task 0 (reaching ["b"]))), .other (.host "a" (.task 0 .run))] ++
    (calls "a" 1 "u" (mkdirRequest "q" 0) ["b"]).map .other ++
    listens "b" (newRequestMessage "u" "a" (mkdirRequest "q" 0)) ++
    (votes "b" 1 ["a"]).map .other ++
    -- The vote is read, the handler of "t" assigns its error, and the vote is dropped.
    [.read "a" (newResponseMessage "u" "b" ack), .assign "a" 0, .test "a",
      .other (.host "a" (.task 0 .run)), .other (.host "b" (.task 1 .run)),
      .other (.host "b" (.task 1 (.mirrored none)))] ++ ends "b" 1 ++
    listens "b" (newResponseMessage "t" "a" (nack .alreadyExists "file exists")) ++
    [.other (.host "b" (.task 0 .run)), .other (.host "b" (.task 0 .run))]

/-- The network delivers every message to `listen` once, and nothing times out. The only peer votes
for the request "u", and mirrors it. But nothing is left to happen, and the `Replicate` of that
request has not returned. -/
theorem acknowledged_call_hangs :
    ∃ s t u, Reaches (ListeningSystem.stepFF duo) (ListeningSystem.init duo fun _ => 0) s ∧
      s.Quiet duo ∧
      (s.system.task? "a" 1 = some t ∧ t.trans.tid = "u" ∧
        t.goroutine = .replicate (.collect 1 [])) ∧
      s.system.Approved duo "a" "u" ∧
      (s.system.task? "b" 1 = some u ∧ u.trans.tid = "u" ∧
        u.goroutine = .handle (.ended (.mirrored (mkdirRequest "q" 0) none))) := by
  have hrun : (run (ListeningSystem.stepFF duo) (ListeningSystem.init duo fun _ => 0)
      droppedVote).any (fun s => s.idle duo &&
        ((s.system.task? "a" 1).any fun t => t.trans.tid = "u" ∧
          t.goroutine = .replicate (.collect 1 [])) &&
        (s.system.task? "b" 1).any fun u => u.trans.tid = "u" ∧
          u.goroutine = .handle (.ended (.mirrored (mkdirRequest "q" 0) none)) ∧
          u.ballots = [⟨mkdirRequest "q" 0, ack, false⟩]) = true := by decide
  obtain ⟨s, hs, hobs⟩ := Reaches.of_any _ _ _ hrun
  simp only [Bool.and_eq_true, Option.any_eq_true, decide_eq_true_eq] at hobs
  obtain ⟨⟨hidle, t, ht, htid, hg⟩, u, hu, hutid, hug, hballots⟩ := hobs
  refine ⟨s, t, u, hs, ListeningSystem.quiet_of_idle hidle, ⟨ht, htid, hg⟩, ?_, hu, hutid, hug⟩
  intro p hp
  obtain rfl : p = "b" := by simpa [duo, Cluster.peers] using hp
  exact ⟨⟨mkdirRequest "q" 0, ack, false⟩, ⟨1, u, hu, hutid, by simp [hballots]⟩, rfl⟩

/-- Take a fault-free state in which `Replicate` has returned nil, a later call on the same
host, and any state that follows. Before the later call every other host had voted for the
first request, and no task for the later one existed. A handler of the first request that ends
has mirrored it. -/
theorem program_order {c : Cluster} {s s' s'' : System} {x : PeerName} {i : Nat} {t : Task}
    {tid : TransactionID} {request : Request} (hs : ReachableFF c s)
    (ht : s.task? x i = some t) (hnil : t.goroutine = .replicate (.returned none))
    (hcall : s.stepFF c (.host x (.replicate tid request)) = some s')
    (hlater : Reaches (System.stepFF c) s' s'') :
    ∀ y ∈ c.peers x,
      (∃ b, s.Voted t.trans.tid y b ∧ b.approves = true ∧ t.trans.request = some b.request) ∧
      (∀ k v, s.task? y k = some v → v.trans.tid ≠ tid) ∧
      ∀ j u r, s''.task? y j = some u → u.trans.tid = t.trans.tid →
        u.goroutine.outcome? = some r →
        ∃ req err, r = .mirrored req err ∧ t.trans.request = some req := by
  intro y hy
  obtain ⟨hi, hf⟩ := hs.inv
  have hrep : t.goroutine.isReplicate = true := by rw [hnil]; rfl
  have hsound := hi.election_sound ht hrep
  have hcommit : (s.election t.trans.tid).decisions (x, i) = some .commit := by
    rw [election_decisions ht, hnil]
    rfl
  obtain ⟨b, hb, happroves⟩ := hi.voted_of_unanimous (hsound (x, i) .commit hcommit) y hy
  refine ⟨⟨b, hb, happroves, (hi.call_of_voted ht hrep hb).2.1⟩, fun k v hv => ?_, ?_⟩
  · -- The id of the later call is new.
    have hstep := (restrict_eq_some.mp hcall).2
    cases System.step_move hstep with
    | host x e h' sent hx ha hp hm =>
      simp only [System.admits, Bool.and_eq_true, Bool.not_eq_true'] at ha
      exact hi.fresh_tid ha.1 hv
  · intro j u r hu hutid hout
    have hreach : Reaches (System.stepFF c) s s'' :=
      (Reaches.single hcall).trans hlater
    obtain ⟨hi'', hf''⟩ := (hs.trans hreach).inv
    obtain ⟨t'', ht'', hext⟩ := (Reaches.extends hreach.of_restrict).tasks ht
    have hrep'' : t''.goroutine.isReplicate = true := hext.kind.trans hrep
    have hyx : y ≠ x := (Cluster.mem_peers.mp hy).2
    -- The commit of the call is still there, so the handler did not veto.
    have hcommit'' := (Reaches.extends hreach.of_restrict).election t.trans.tid
      |>.decisions (x, i) .commit hcommit
    rw [← hext.tid] at hutid hcommit''
    have hall := (hi''.election_sound ht'' hrep'') (x, i) .commit hcommit''
    have hmirror := (hf''.mirror_iff hi'' ht'' hrep'' hu hutid (.inr (by simp [hout]))).mpr
      (hi''.approved_iff.mpr hall)
    obtain ⟨req, hreq⟩ := Option.isSome_iff_exists.mp hmirror
    have hsame := hi''.mirror_request ht'' hrep'' hu hutid hyx hreq
    have hstable : t''.trans.request = t.trans.request := by
      refine (hext.request fun m hm => ?_).1
      exact hi''.no_request ht'' hrep'' (mem_arrived_of_inbox ht'' hm)
        ((hi''.taskInv ht'').tids m hm)
    rw [hsame, hstable] at hreq
    rcases outcome?_eq_some.mp hout with hg | hg <;> rw [hg] at hreq <;> cases r <;>
      simp only [Goroutine.mirrorCall?, reduceCtorEq, Option.some.injEq] at hreq <;>
      exact ⟨_, _, rfl, hreq.symm⟩

/-- A fault-free run of two hosts, up to the return of `Replicate`. -/
def agreedRun : List Action :=
  calls "a" 0 "t" (mkdirRequest "p" 0) ["b"] ++
    hears "b" (newRequestMessage "t" "a" (mkdirRequest "p" 0)) ++ votes "b" 0 ["a"] ++
    hears "a" (newResponseMessage "t" "b" ack) ++
    [.host "a" (.task 0 .run), .host "a" (.task 0 .run)]

/-- The second call of `a`, after `agreedRun`. -/
def laterCall : Action := .host "a" (.replicate "u" (mkdirRequest "q" 0))

/-- What follows `laterCall`. The handler of the first request at `b` has voted, and is not
scheduled again. The second request is consulted and mirrored at `b` meanwhile. -/
def overtakingRun : List Action :=
  [.host "a" (.task 1 .run), .host "a" (.task 1 (reaching ["b"]))] ++
    hears "b" (newRequestMessage "u" "a" (mkdirRequest "q" 0)) ++ votes "b" 1 ["a"] ++
    [.host "b" (.task 1 .run), .host "b" (.task 1 (.mirrored none)), .host "b" (.task 1 .run)]

/-- A later request overtakes an earlier one of the same host. When the later call is made, the
earlier one has returned nil. In the end `b` has mirrored the later request, and has not called
`Mirror.Mirror` for the earlier one. -/
theorem overtaken_by_later_call :
    ∃ s s' s'', ReachableFF duo s ∧
      (∃ t, s.task? "a" 0 = some t ∧ t.trans.tid = "t" ∧
        t.goroutine = .replicate (.returned none)) ∧
      s.stepFF duo laterCall = some s' ∧ Reaches (System.stepFF duo) s' s'' ∧
      (∃ t, s''.task? "b" 0 = some t ∧ t.trans.tid = "t" ∧
        t.goroutine = .handle (.await .ack)) ∧
      ∃ t, s''.task? "b" 1 = some t ∧ t.trans.tid = "u" ∧
        t.goroutine = .handle (.ended (.mirrored (mkdirRequest "q" 0) none)) := by
  obtain ⟨s, hs, hobs⟩ := ReachableFF.of_run duo (fun _ => 0) agreedRun
    (fun s => ((s.task? "a" 0).any fun t => t.trans.tid = "t" ∧
        t.goroutine = .replicate (.returned none)) &&
      (s.stepFF duo laterCall).any fun s' =>
        (run (System.stepFF duo) s' overtakingRun).any fun s'' =>
          ((s''.task? "b" 0).any fun t => t.trans.tid = "t" ∧
            t.goroutine = .handle (.await .ack)) &&
          (s''.task? "b" 1).any fun t => t.trans.tid = "u" ∧
            t.goroutine = .handle (.ended (.mirrored (mkdirRequest "q" 0) none))) (by decide)
  simp only [Bool.and_eq_true, Option.any_eq_true, decide_eq_true_eq] at hobs
  obtain ⟨ht, s', hcall, s'', hrun, ht₁, ht₂⟩ := hobs
  exact ⟨s, s', s'', hs, ht, hcall, ⟨overtakingRun, hrun⟩, ht₁, ht₂⟩

/-- When `laterCall` is made after `agreedRun`, `b` has voted for the first request. -/
theorem voted_before_later_call :
    ∃ s s' t, ReachableFF duo s ∧ s.task? "a" 0 = some t ∧
      s.stepFF duo laterCall = some s' ∧
      ∃ b, s.Voted t.trans.tid "b" b ∧ b.approves = true := by
  obtain ⟨s, hs, hobs⟩ := ReachableFF.of_run duo (fun _ => 0) agreedRun
    (fun s => ((s.task? "a" 0).any fun t => t.goroutine = .replicate (.returned none)) &&
      (s.stepFF duo laterCall).any fun _ => true) (by decide)
  simp only [Bool.and_eq_true, Option.any_eq_true, decide_eq_true_eq] at hobs
  obtain ⟨⟨t, ht, hg⟩, s', hcall, -⟩ := hobs
  obtain ⟨⟨b, hb, happroves, -⟩, -⟩ :=
    program_order hs ht hg hcall (Reaches.refl s') "b" (by decide)
  exact ⟨s, s', t, hs, ht, hcall, b, hb, happroves⟩

end ReplicatedFs.P2p
