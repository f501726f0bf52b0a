import ReplicatedFs.Proofs.P2p.Votes

/-!
# `ReplicatedFs.Proofs.P2p.AtomicCommit`: what an error and a nil of `Replicate` tell

Both results are about any run: messages are lost, broadcasts fail or reach a part of the
peers, contexts end at any time.

* `abort_safety`: when `Replicate` returns an error and another host still calls
  `Mirror.Mirror`, then the error is the one of its context or of its broadcast, and all peers
  voted for the request. A conflict, a refused broadcast or `ErrNotPermitted` is never
  mirrored.
* `commit_safety`: when `Replicate` returns nil, all peers voted for the request, and a
  handler that ends without `Mirror.Mirror` ends because its own context is done while messages
  of the transaction are missing.

The two runs after them show that neither exception can be dropped. A responder applies what
its initiator gave up, and a responder gives up what its initiator applied.
-/

set_option autoImplicit false

namespace ReplicatedFs.P2p

open ReplicatedFs.Protobuf
open Library

section Facts
variable {c : Cluster} {s : System} {x y : PeerName} {i j : Nat} {t t' : Task}

/-- The call that a vote is about has broadcast its request, and the broadcast was not refused. The
chain goes back from the vote to the request in the inbox, from there to the log, and from the log
to the call. -/
theorem SystemInv.call_of_voted (hi : SystemInv c s) (ht : s.task? x i = some t)
    (hrep : t.goroutine.isReplicate = true) {b : Ballot} (hb : s.Voted t.trans.tid y b) :
    t.goroutine.asked = true ∧ t.trans.request = some b.request ∧
      ∀ reason, t.goroutine.result? ≠ some (some (.refused reason)) := by
  obtain ⟨k, u, hu, hutid, hmem⟩ := hb
  obtain ⟨m, hm, hr, hmtid⟩ := hi.ballot_request hu hmem
  obtain ⟨e, he, rfl, hreached, -⟩ := hi.sent_of_arrived (mem_arrived_of_inbox hu hm)
  obtain ⟨-, -, l, v, hv, hvtid, ⟨r, hpay, hvrep, hasked, hreq, hrefused⟩ | ⟨d, -, hpay⟩⟩ :=
    hi.accounted e he
  · obtain ⟨hname, rfl⟩ := hi.initiators hv ht hvrep hrep (by rw [hvtid, hmtid, hutid])
    rw [hname] at hv
    obtain rfl : v = t := Option.some.inj (hv.symm.trans ht)
    have hrb : r = b.request := by simpa [Message.getRequest, hpay] using hr
    -- A refused broadcast reaches nobody, but the request has reached the voter.
    refine ⟨hasked, hreq.trans (by rw [hrb]), fun reason hres => ?_⟩
    rw [hrefused reason hres] at hreached
    cases hreached
  · simp [Message.getRequest, hpay] at hr

/-- A call of `Mirror.Mirror` is a commit, from the point on where the handler is about to make
it. -/
theorem decision?_of_mirrorCall {g : Goroutine} {req : Option Request}
    (h : g.mirrorCall? = some req) : g.decision? = some .commit := by
  rcases mirrorCall?_eq_some.mp h with hg | ⟨r, err, -, hg | hg⟩ <;> rw [hg] <;> rfl

/-- The decision of a task in the election of its transaction. The deciders of the election are the
tasks, and its voters are the hosts. -/
theorem election_decisions (ht : s.task? x i = some t) :
    (s.election t.trans.tid).decisions (x, i) = t.goroutine.decision? := by
  simp [System.election, ht]

/-- The facts at the point of a call of `Mirror.Mirror`, for a task of a reachable system. -/
theorem SystemInv.decided_of_mirrorCall (hi : SystemInv c s) (ht : s.task? x i = some t)
    {req : Option Request} (h : t.goroutine.mirrorCall? = some req) :
    Decided (c.peers x).length t req :=
  (hi.taskInv ht).decided_of_mirrorCall h

/-- At a responder, `Mirror.Mirror` is called with the request of the initiator. The argument is the
last request of the messages, and there is only one. At the initiator itself it may be nil, which is
why `hyx` is there. -/
theorem SystemInv.mirror_request (hi : SystemInv c s) (ht : s.task? x i = some t)
    (hrep : t.goroutine.isReplicate = true) (ht' : s.task? y j = some t')
    (htid : t'.trans.tid = t.trans.tid) (hyx : y ≠ x) {req : Option Request}
    (hm : t'.goroutine.mirrorCall? = some req) : req = t.trans.request := by
  obtain ⟨htaken, -, -, ms, hseen, hms, hreq⟩ := hi.decided_of_mirrorCall ht' hm
  obtain ⟨m, hmem, -, hr⟩ := hi.full_request ht' htaken ht hrep htid.symm (Ne.symm hyx)
  obtain ⟨-, r, hrequest, -⟩ := hi.requests ht hrep
  have hlen : (requestsOf ms).length ≤ 1 :=
    ((hms.sublist.filterMap _).length_le).trans (hi.length_requestsOf ht')
  have hrmem : r ∈ requestsOf ms :=
    mem_requestsOf.mpr ⟨m, hseen.subset hmem, hr.trans hrequest⟩
  -- The one request among the messages is the last one.
  cases hlast : (requestsOf ms).getLast? with
  | none =>
    rw [List.getLast?_eq_none_iff.mp hlast] at hrmem
    cases hrmem
  | some r' =>
    have heq : r' = r := eq_of_length_le_one hlen (List.mem_of_getLast? hlast) hrmem
    rw [hreq, hlast, hrequest, heq]

/-- The voters of an election that is unanimous have voted for the request. -/
theorem SystemInv.voted_of_unanimous (hi : SystemInv c s) {tid : TransactionID}
    (h : (s.election tid).Unanimous (c.peers x)) :
    ∀ p ∈ c.peers x, ∃ b, s.Voted tid p b ∧ b.approves = true :=
  fun p hp => hi.vote?_eq_some.mp (h p hp)

end Facts

/-- When `Replicate` returned an error and another host has called `Mirror.Mirror` for the
transaction, then the error is the one of its context, or of a broadcast that reached every
peer. All peers voted for the request, which is the one that is mirrored. -/
theorem abort_safety {c : Cluster} {s : System} {x y : PeerName} {i j : Nat} {t t' : Task}
    {err : ReplicateError} {req : Option Request} (hs : Reachable c s)
    (ht : s.task? x i = some t) (herr : t.goroutine = .replicate (.returned (some err)))
    (ht' : s.task? y j = some t') (hyx : y ≠ x) (htid : t'.trans.tid = t.trans.tid)
    (hm : t'.goroutine.mirrorCall? = some req) :
    ((∃ e, err = .context e) ∨ ∃ peers, err = .multiErr peers) ∧
      (∀ p ∈ c.peers x, ∃ b, s.Voted t.trans.tid p b ∧ b.approves = true) ∧
      req = t.trans.request := by
  have hi := hs.inv
  have hrep : t.goroutine.isReplicate = true := by simp [herr, Goroutine.isReplicate]
  have hsound := hi.election_sound ht hrep
  have hcommit : (s.election t.trans.tid).decisions (y, j) = some .commit := by
    rw [← htid, election_decisions ht', decision?_of_mirrorCall hm]
  have hvoted := hi.voted_of_unanimous (hsound (y, j) .commit hcommit)
  refine ⟨?_, hvoted, hi.mirror_request ht hrep ht' htid hyx hm⟩
  -- Some peer voted, so the request was broadcast.
  obtain ⟨b, hb, -⟩ := hvoted y (Cluster.mem_peers.mpr ⟨hi.members ht', hyx⟩)
  obtain ⟨hasked, -, hrefused⟩ := hi.call_of_voted ht hrep hb
  cases err with
  | transactionConflict => simp [herr, Goroutine.asked] at hasked
  | refused reason => exact absurd (by rw [herr]; rfl) (hrefused reason)
  | multiErr peers => exact .inr ⟨peers, rfl⟩
  | context e => exact .inl ⟨e, rfl⟩
  | notPermitted =>
    -- A veto of the initiator excludes the commit of the responder.
    have hveto : (s.election t.trans.tid).decisions (x, i) ≠ some .veto :=
      hsound.agreement hcommit
    rw [election_decisions ht, herr] at hveto
    exact absurd rfl hveto

/-- The responder `b` votes for the request, but the call at `a` gives up before the vote is
there. With its one vote `b` is complete and mirrors. -/
def timeoutRun : List Action :=
  calls "a" 0 "t" (mkdirRequest "p" 0) ["b"] ++
    hears "b" (newRequestMessage "t" "a" (mkdirRequest "p" 0)) ++ votes "b" 0 ["a"] ++
    [.host "a" (.task 0 (.contextDone .deadlineExceeded)), .host "a" (.task 0 .run),
      .host "b" (.task 0 .run), .host "b" (.task 0 (.mirrored none))]

/-- The send to `b` reports an error after the bytes were delivered. -/
def sendErrorRun : List Action :=
  [.host "a" (.replicate "t" (mkdirRequest "p" 0)), .host "a" (.task 0 .run),
    .host "a" (.task 0 (.broadcast (.sent ["b"] ["b"]))), .host "a" (.task 0 .run)] ++
    hears "b" (newRequestMessage "t" "a" (mkdirRequest "p" 0)) ++ votes "b" 0 ["a"] ++
    [.host "b" (.task 0 .run), .host "b" (.task 0 (.mirrored none))]

/-- The call of `Replicate` at `x` returned the error, and the host `y` called `Mirror.Mirror`
with the request of the transaction. -/
def System.MirroredAfter (s : System) (x y : PeerName) (err : ReplicateError)
    (request : Request) : Prop :=
  ∃ i t j t', s.task? x i = some t ∧ t.goroutine = .replicate (.returned (some err)) ∧
    s.task? y j = some t' ∧ t'.trans.tid = t.trans.tid ∧
    t'.goroutine.mirrorCall? = some (some request)

/-- Reading `MirroredAfter` off the first tasks of the two hosts. -/
private theorem mirroredAfter_of_any {s : System} {err : ReplicateError} {request : Request}
    (h : ((s.task? "a" 0).any (fun t => t.trans.tid = "t" ∧
          t.goroutine = .replicate (.returned (some err))) &&
        (s.task? "b" 0).any fun t => t.trans.tid = "t" ∧
          t.goroutine.mirrorCall? = some (some request)) = true) :
    s.MirroredAfter "a" "b" err request := by
  simp only [Bool.and_eq_true, Option.any_eq_true, decide_eq_true_eq] at h
  obtain ⟨⟨t, ht, htid, hg⟩, t', ht', htid', hm⟩ := h
  exact ⟨0, t, 0, t', ht, hg, ht', htid'.trans htid.symm, hm⟩

/-- A responder mirrors a request whose call timed out. Nothing tells it that the initiator has
given up. -/
private theorem exists_mirrored_after_timeout :
    ∃ s, Reachable duo s ∧
      s.MirroredAfter "a" "b" (.context .deadlineExceeded) (mkdirRequest "p" 0) := by
  obtain ⟨s, hs, hobs⟩ := Reachable.of_run duo (fun _ => 0) timeoutRun
    (fun s => (s.task? "a" 0).any (fun t => t.trans.tid = "t" ∧
        t.goroutine = .replicate (.returned (some (.context .deadlineExceeded)))) &&
      (s.task? "b" 0).any fun t => t.trans.tid = "t" ∧
        t.goroutine.mirrorCall? = some (some (mkdirRequest "p" 0))) (by decide)
  exact ⟨s, hs, mirroredAfter_of_any hobs⟩

/-- A responder mirrors a request whose call timed out, and one whose broadcast reported an error.
In both cases the responder has got the request, and nobody takes it back. -/
theorem mirrored_after_error :
    (∃ s, Reachable duo s ∧
      s.MirroredAfter "a" "b" (.context .deadlineExceeded) (mkdirRequest "p" 0)) ∧
      ∃ s, Reachable duo s ∧
        s.MirroredAfter "a" "b" (.multiErr ["b"]) (mkdirRequest "p" 0) := by
  refine ⟨exists_mirrored_after_timeout, ?_⟩
  obtain ⟨s, hs, hobs⟩ := Reachable.of_run duo (fun _ => 0) sendErrorRun
    (fun s => (s.task? "a" 0).any (fun t => t.trans.tid = "t" ∧
        t.goroutine = .replicate (.returned (some (.multiErr ["b"])))) &&
      (s.task? "b" 0).any fun t => t.trans.tid = "t" ∧
        t.goroutine.mirrorCall? = some (some (mkdirRequest "p" 0))) (by decide)
  exact ⟨s, hs, mirroredAfter_of_any hobs⟩

/-- In the run with the timeout, `b` had voted for the request. So the votes alone do not decide
what the call returns. -/
theorem voted_before_timeout :
    ∃ s, Reachable duo s ∧ ∃ i t, s.task? "a" i = some t ∧
      t.goroutine = .replicate (.returned (some (.context .deadlineExceeded))) ∧
      ∀ p ∈ duo.peers "a", ∃ b, s.Voted t.trans.tid p b ∧ b.approves = true := by
  obtain ⟨s, hs, i, t, j, t', ht, herr, ht', htid, hm⟩ := exists_mirrored_after_timeout
  exact ⟨s, hs, i, t, ht, herr, (abort_safety hs ht herr ht' (by decide) htid hm).2.1⟩

/-- When `Replicate` returned nil, all peers voted for the request. A handler of the transaction on
another host that has called `Mirror.Mirror`, whether the call has returned or not, has called it
with this request. One that has ended has mirrored the request, or its own context was done before
it took a message of every peer. -/
theorem commit_safety {c : Cluster} {s : System} {x : PeerName} {i : Nat} {t : Task}
    (hs : Reachable c s) (ht : s.task? x i = some t)
    (hnil : t.goroutine = .replicate (.returned none)) :
    (∀ p ∈ c.peers x, ∃ b, s.Voted t.trans.tid p b ∧ b.approves = true) ∧
      ∀ y j t', s.task? y j = some t' → y ≠ x → t'.trans.tid = t.trans.tid →
        (∀ req, t'.goroutine.mirrorCall? = some req → req = t.trans.request) ∧
        ∀ result, t'.goroutine.outcome? = some result →
          (∃ request err, result = .mirrored request err ∧ t.trans.request = some request) ∨
            ∃ e, result = .context e ∧ t'.taken < (c.peers y).length := by
  have hi := hs.inv
  have hrep : t.goroutine.isReplicate = true := by simp [hnil, Goroutine.isReplicate]
  have hsound := hi.election_sound ht hrep
  have hcommit : (s.election t.trans.tid).decisions (x, i) = some .commit := by
    rw [election_decisions ht, hnil]
    rfl
  refine ⟨hi.voted_of_unanimous (hsound (x, i) .commit hcommit), ?_⟩
  intro y j t' ht' hyx htid
  have hmirror : ∀ req, t'.goroutine.mirrorCall? = some req → req = t.trans.request :=
    fun req hm => hi.mirror_request ht hrep ht' htid hyx hm
  refine ⟨hmirror, fun result hout => ?_⟩
  have hpoint := (hi.taskInv ht').point
  cases result with
  | context e =>
    refine .inr ⟨e, rfl, ?_⟩
    rcases outcome?_eq_some.mp hout with hg | hg <;> rw [hg] at hpoint <;> exact hpoint.2.2
  | notPermitted =>
    -- The commit of the initiator excludes a veto.
    have hveto : (s.election t.trans.tid).decisions (y, j) ≠ some .veto :=
      hsound.agreement hcommit
    rw [← htid, election_decisions ht'] at hveto
    rcases outcome?_eq_some.mp hout with hg | hg <;> rw [hg] at hveto <;>
      exact absurd rfl hveto
  | mirrored request err =>
    refine .inl ⟨request, err, rfl, (hmirror (some request) ?_).symm⟩
    rcases outcome?_eq_some.mp hout with hg | hg <;> rw [hg] <;> rfl

/-- The vote of `b` reaches the initiator `a`, but not `c`. The call at `a` returns nil, and the
handler at `c` times out. -/
def partialVoteRun : List Action :=
  calls "a" 0 "t" (mkdirRequest "p" 0) ["b", "c"] ++
    hears "b" (newRequestMessage "t" "a" (mkdirRequest "p" 0)) ++ votes "b" 0 ["a"] ++
    hears "c" (newRequestMessage "t" "a" (mkdirRequest "p" 0)) ++ votes "c" 0 ["a", "b"] ++
    hears "a" (newResponseMessage "t" "b" ack) ++ hears "a" (newResponseMessage "t" "c" ack) ++
    [.host "a" (.task 0 .run), .host "a" (.task 0 .run),
      .host "c" (.task 0 (.contextDone .deadlineExceeded)), .host "c" (.task 0 .run)]

/-- A handler ends without `Mirror.Mirror` although `Replicate` returned nil. The vote of `b` does
not reach `c`, whose handler waits for it until its context ends. -/
theorem handler_times_out_after_nil :
    ∃ s t t', Reachable trio s ∧ s.task? "a" 0 = some t ∧
      t.goroutine = .replicate (.returned none) ∧ s.task? "c" 0 = some t' ∧
      t'.trans.tid = t.trans.tid ∧
      t'.goroutine = .handle (.ended (.context .deadlineExceeded)) := by
  obtain ⟨s, hs, hobs⟩ := Reachable.of_run trio (fun _ => 0) partialVoteRun
    (fun s => (s.task? "a" 0).any (fun t => t.trans.tid = "t" ∧
        t.goroutine = .replicate (.returned none)) &&
      (s.task? "c" 0).any fun t => t.trans.tid = "t" ∧
        t.goroutine = .handle (.ended (.context .deadlineExceeded))) (by decide)
  simp only [Bool.and_eq_true, Option.any_eq_true, decide_eq_true_eq] at hobs
  obtain ⟨⟨t, ht, htid, hg⟩, t', ht', htid', hg'⟩ := hobs
  exact ⟨s, t, t', hs, ht, hg, ht', htid'.trans htid.symm, hg'⟩

/-- In a complete run of two hosts, the responder has voted for what `Replicate` returned nil
for. -/
theorem voted_before_nil :
    ∃ s, Reachable duo s ∧ ∃ t, s.task? "a" 0 = some t ∧
      t.goroutine = .replicate (.returned none) ∧
      ∀ p ∈ duo.peers "a", ∃ b, s.Voted t.trans.tid p b ∧ b.approves = true := by
  obtain ⟨s, hs, hobs⟩ := Reachable.of_run duo (fun _ => 0)
    (calls "a" 0 "t" (mkdirRequest "p" 0) ["b"] ++
      hears "b" (newRequestMessage "t" "a" (mkdirRequest "p" 0)) ++ votes "b" 0 ["a"] ++
      hears "a" (newResponseMessage "t" "b" ack) ++
      [.host "a" (.task 0 .run), .host "a" (.task 0 .run)])
    (fun s => (s.task? "a" 0).any fun t => t.goroutine = .replicate (.returned none)) (by decide)
  simp only [Option.any_eq_true, decide_eq_true_eq] at hobs
  obtain ⟨t, ht, hg⟩ := hobs
  exact ⟨s, hs, t, ht, hg, (commit_safety hs ht hg).1⟩

end ReplicatedFs.P2p
