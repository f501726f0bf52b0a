import ReplicatedFs.Library.Election
import ReplicatedFs.Proofs.P2p.SystemInvariant

/-!
# `ReplicatedFs.Proofs.P2p.Votes`: a transaction is an election

The voters of a transaction are the peers of its initiator. The deciders are the `Replicate`
call and all handlers of the id, those that `listen` re-created included.
`System.election` reads the votes off the log and the decisions off the tasks, and
`SystemInv.election_sound` says that in every state of every run it is a sound election: a
`Replicate` call that returns nil and a handler that calls `Mirror.Mirror` both have the votes
of all peers behind them.

* `SystemInv.full`: a reader that took as many messages as it has peers has one of each.
* `SystemInv.vote_unique`: a host votes at most once on a transaction.
* `SystemInv.vote?_eq_some`: the votes of the election are the ballots of the handlers.
* `System.Extends.election`: the election only grows.
-/

set_option autoImplicit false

namespace ReplicatedFs.P2p

open ReplicatedFs.Protobuf
open Library

/-- The ballot is for the request: `Mirror.Consult` answered `ACK` and no conflict was found. -/
def Ballot.approves (b : Ballot) : Bool := b.verdict.type = .ack && !b.conflict

/-- The host `y` has voted on the transaction, with the ballot `b`. -/
def System.Voted (s : System) (tid : TransactionID) (y : PeerName) (b : Ballot) : Prop :=
  ∃ i t, s.task? y i = some t ∧ t.trans.tid = tid ∧ b ∈ t.ballots

/-- What the result of `Replicate` stands for. -/
def replicateDecision : Option ReplicateError → Decision
  | none => .commit
  | some .notPermitted => .veto
  | some _ => .giveUp

/-- What the end of `handleTransaction` stands for. -/
def HandleResult.decision : HandleResult → Decision
  | .mirrored _ _ => .commit
  | .notPermitted => .veto
  | .context _ => .giveUp

/-- What the reader of a transaction has decided. A call of `Mirror.Mirror` is a commit. -/
def Goroutine.decision? : Goroutine → Option Decision
  | .replicate (.leave r) | .replicate (.returned r) => some (replicateDecision r)
  | .handle (.mirror _) => some .commit
  | .handle (.leave r) | .handle (.ended r) => some r.decision
  | _ => none

/-- The vote of the host `y`, from the log. -/
def System.vote? (s : System) (tid : TransactionID) (y : PeerName) : Option Bool :=
  (s.log.find? fun e => messageKey e.msg = (y, tid)).bind fun e =>
    e.msg.getResponse.map fun r => r.type = .ack

/-- The election of the transaction. The deciders are its tasks. -/
def System.election (s : System) (tid : TransactionID) :
    Election PeerName (PeerName × Nat) where
  votes := s.vote? tid
  decisions p := (s.task? p.1 p.2).bind fun t =>
    if t.trans.tid = tid then t.goroutine.decision? else none

/-- A decision stays. It can be read off the result of a `Replicate`, and off the call of `Mirror`
or the result of a handler. -/
theorem TaskExtends.decision {t t' : Task} (h : TaskExtends t t') {k : Decision}
    (hk : t.goroutine.decision? = some k) : t'.goroutine.decision? = some k := by
  cases hg : t.goroutine with
  | replicate pc =>
    have hresult := h.result
    rw [hg] at hk hresult
    cases pc with
    | leave r | returned r =>
      rcases result?_eq_some.mp (hresult r rfl) with hg' | hg' <;> rw [hg'] <;> exact hk
    | _ => cases hk
  | handle pc =>
    have houtcome := h.outcome
    have hmirror := h.mirrorCall
    rw [hg] at hk houtcome hmirror
    cases pc with
    | mirror request =>
      rcases mirrorCall?_eq_some.mp (hmirror request rfl) with hg' | ⟨r, err, -, hg' | hg'⟩ <;>
        rw [hg'] <;> exact hk
    | leave r | ended r =>
      rcases outcome?_eq_some.mp (houtcome r rfl) with hg' | hg' <;> rw [hg'] <;> exact hk
    | _ => cases hk

section Ballots
variable {b : Ballot}

/-- The type of a vote that is broadcast. It is a `NACK` also when the mirror agrees but there is a
conflict. -/
theorem Ballot.response_type (hv : b.verdict.IsVerdict) :
    b.response.type = if b.approves then .ack else .nack := by
  unfold Ballot.response Ballot.approves
  cases hc : b.conflict with
  | true => simp [nack]
  | false =>
    rcases hv with hack | ⟨hnack, -⟩
    · simp [hack]
    · simp [hnack]

/-- A vote is an ACK exactly when the peer approves. The hypothesis says that `Consult` answered
with an ACK or a NACK, as it does. -/
theorem Ballot.response_ack (hv : b.verdict.IsVerdict) :
    b.response.type = .ack ↔ b.approves = true := by
  rw [Ballot.response_type hv]
  cases b.approves <;> simp

/-- `Mirror` is called unless the vote was a NACK, which for such an answer comes to the same. -/
theorem Ballot.response_ne_nack (hv : b.verdict.IsVerdict) :
    b.response.type ≠ .nack ↔ b.approves = true := by
  rw [Ballot.response_type hv]
  cases b.approves <;> simp

/-- A `NACK` names its error, and it blames a conflict exactly when one was found. -/
theorem Ballot.response_error (hv : b.verdict.IsVerdict) (hn : b.response.type = .nack) :
    b.response.error.isSome ∧
      (b.response.error = some .transactionConflict ↔ b.conflict = true) := by
  unfold Ballot.response at hn ⊢
  cases hc : b.conflict with
  | true => simp [nack]
  | false =>
    simp only [hc] at hn
    rcases hv with hack | ⟨-, herr, hne, -⟩
    · simp [hack] at hn
    · simpa using ⟨herr, hne⟩

end Ballots

section Facts
variable {c : Cluster} {s : System} {x : PeerName} {i : Nat} {t : Task}

/-- The requests that a handler has taken are those of its votes, up to one it has not voted
on yet. -/
theorem SystemInv.votes_prefix (hi : SystemInv c s) (ht : s.task? x i = some t) :
    t.votes.map Ballot.request <+: requestsOf t.seen := by
  have hpoint := (hi.taskInv ht).point
  cases hg : t.goroutine with
  | replicate pc =>
    rw [hg] at hpoint
    simp [Task.votes, hpoint.1, hg, Goroutine.vote?]
  | handle pc =>
    rw [hg] at hpoint
    rw [hpoint.2.1, Task.votes, hg, List.map_append]
    cases pc with
    | respond msg ballot => exact List.prefix_refl _
    | _ => simp [Goroutine.vote?]

/-- A handler votes at most once, because it gets at most one request. -/
theorem SystemInv.length_votes (hi : SystemInv c s) (ht : s.task? x i = some t) :
    t.votes.length ≤ 1 := by
  have hprefix := (hi.votes_prefix ht).length_le
  have hseen : (requestsOf t.seen).length ≤ (requestsOf t.inbox).length :=
    (t.seen_prefix.sublist.filterMap _).length_le
  have hone := hi.length_requestsOf ht
  simp only [List.length_map] at hprefix
  omega

/-- A vote is on a request of the transaction, and never on one that the host made up. -/
theorem SystemInv.vote_request (hi : SystemInv c s) (ht : s.task? x i = some t) {b : Ballot}
    (hb : b ∈ t.votes) : ∃ m ∈ t.inbox, m.getRequest = some b.request := by
  obtain ⟨m, hm, hr⟩ := mem_requestsOf.mp
    ((hi.votes_prefix ht).subset (List.mem_map_of_mem hb))
  exact ⟨m, t.seen_subset m hm, hr⟩

/-- A host votes at most once on a transaction, also across re-created handlers. -/
theorem SystemInv.vote_unique (hi : SystemInv c s) {j : Nat} {t' : Task}
    (ht : s.task? x i = some t) (ht' : s.task? x j = some t')
    (htid : t.trans.tid = t'.trans.tid) {b b' : Ballot} (hb : b ∈ t.votes) (hb' : b' ∈ t'.votes) :
    i = j ∧ b = b' := by
  obtain ⟨m, hm, hr⟩ := hi.vote_request ht hb
  obtain ⟨m', hm', hr'⟩ := hi.vote_request ht' hb'
  have hmtid := (hi.taskInv ht).tids m hm
  have hmtid' := (hi.taskInv ht').tids m' hm'
  have hij := hi.holder_unique ht ht' hm hm' (by simp [hr]) (by simp [hr'])
    (by rw [hmtid, hmtid', htid])
  subst hij
  obtain rfl : t = t' := Option.some.inj (ht.symm.trans ht')
  exact ⟨rfl, eq_of_length_le_one (hi.length_votes ht) hb hb'⟩

/-- A vote that is cast is a vote. Those that are still to be broadcast are counted as well. -/
theorem Task.ballots_subset_votes (t : Task) {b : Ballot} (hb : b ∈ t.ballots) : b ∈ t.votes :=
  List.mem_append_left _ hb

/-- A ballot that was cast holds a verdict, which is an `ACK` or a `NACK` with an error. -/
theorem SystemInv.voted_verdict (hi : SystemInv c s) {tid : TransactionID} {y : PeerName}
    {b : Ballot} (h : s.Voted tid y b) : b.verdict.IsVerdict := by
  obtain ⟨i, t, ht, -, hb⟩ := h
  exact (hi.verdicts ht b (t.ballots_subset_votes hb)).1

/-- The initiator does not vote on its own transaction. It decides by the votes of the others. -/
theorem SystemInv.voted_ne_initiator (hi : SystemInv c s) (ht : s.task? x i = some t)
    (hrep : t.goroutine.isReplicate = true) {y : PeerName} {b : Ballot}
    (h : s.Voted t.trans.tid y b) : y ≠ x := by
  rintro rfl
  obtain ⟨j, t', ht', htid', hb⟩ := h
  have := hi.no_ballot_at_initiator ht hrep ht' htid'
  simp [this] at hb

/-- A host that has voted on a transaction holds a request of its initiator. -/
theorem SystemInv.voted_initiator (hi : SystemInv c s) {tid : TransactionID} {y : PeerName}
    {b : Ballot} (h : s.Voted tid y b) :
    ∃ p j t', s.task? p j = some t' ∧ t'.trans.tid = tid ∧ t'.goroutine.isReplicate = true ∧
      t'.trans.request = some b.request := by
  obtain ⟨i, t, ht, htid, hb⟩ := h
  obtain ⟨m, hm, hr, hmtid⟩ := hi.ballot_request ht hb
  obtain ⟨j, t', ht', htid', hrep, -, hreq, -⟩ :=
    hi.request_source (mem_arrived_of_inbox ht hm) hr
  exact ⟨m.peerName, j, t', ht', by rw [htid', hmtid, htid], hrep, hreq⟩

/-- A response in the log is the vote of its sender. No host sends a response in the name of another
one. -/
theorem SystemInv.voted_of_log (hi : SystemInv c s) {e : Sent} (he : e ∈ s.log) {r : Response}
    (hr : e.msg.getResponse = some r) :
    ∃ b, s.Voted e.msg.tid e.msg.peerName b ∧ b.response = r := by
  obtain ⟨-, -, j, t', ht', htid, ⟨r', hpay, -⟩ | ⟨b, hb, hpay⟩⟩ := hi.accounted e he
  · simp [Message.getResponse, hpay] at hr
  · exact ⟨b, ⟨j, t', ht', htid, hb⟩, by simpa [Message.getResponse, hpay] using hr⟩

/-- A response that has arrived is the vote of its sender, since what has arrived is in the log. -/
theorem SystemInv.voted_of_response (hi : SystemInv c s) {m : Message} {r : Response}
    (hm : m ∈ s.arrived x) (hr : m.getResponse = some r) :
    ∃ b, s.Voted m.tid m.peerName b ∧ b.response = r := by
  obtain ⟨e, he, rfl, -, -⟩ := hi.sent_of_arrived hm
  exact hi.voted_of_log he hr

/-- Some host has called `Replicate` for the id of a message. A response answers a request, and that
came from the call. -/
theorem SystemInv.initiator (hi : SystemInv c s) {m : Message} (hm : m ∈ s.arrived x) :
    ∃ p j t', s.task? p j = some t' ∧ t'.trans.tid = m.tid ∧
      t'.goroutine.isReplicate = true := by
  rcases hi.request_or_response hm with hr | hr
  · obtain ⟨r, hr⟩ := Option.isSome_iff_exists.mp hr
    obtain ⟨j, t', ht', htid, hrep, -⟩ := hi.request_source hm hr
    exact ⟨_, j, t', ht', htid, hrep⟩
  · obtain ⟨r, hr⟩ := Option.isSome_iff_exists.mp hr
    obtain ⟨b, hb, -⟩ := hi.voted_of_response hm hr
    obtain ⟨p, j, t', ht', htid, hrep, -⟩ := hi.voted_initiator hb
    exact ⟨p, j, t', ht', htid, hrep⟩

/-- The messages of a transaction have distinct senders, since they all have its id. -/
theorem SystemInv.nodup_senders (hi : SystemInv c s) (ht : s.task? x i = some t) :
    (t.inbox.map Message.peerName).Nodup := by
  have hkeys : (t.inbox.map messageKey).Nodup := by
    have h := hi.nodup_arrived x
    rw [System.arrived, List.map_append] at h
    exact nodup_of_flatMap (List.Nodup.of_append_left h) ht
  refine List.Nodup.map_on ?_ (List.Nodup.of_map _ hkeys)
  intro m hm m' hm' hname
  have htids := (hi.taskInv ht).tids
  refine List.inj_on_of_nodup_map hkeys hm hm' ?_
  simp [messageKey, hname, htids m hm, htids m' hm']

/-- The senders of the messages of a transaction are peers of the host. -/
theorem SystemInv.sender_mem_peers (hi : SystemInv c s) (ht : s.task? x i = some t) :
    ∀ y ∈ t.inbox.map Message.peerName, y ∈ c.peers x := by
  intro y hy
  obtain ⟨m, hm, rfl⟩ := List.mem_map.mp hy
  obtain ⟨-, -, -, -, hpeer⟩ := hi.sent_of_arrived (mem_arrived_of_inbox ht hm)
  exact hpeer

/-- A reader that took as many messages as it has peers has one of each. -/
theorem SystemInv.full (hi : SystemInv c s) (ht : s.task? x i = some t)
    (htaken : t.taken = (c.peers x).length) {y : PeerName} (hy : y ∈ c.peers x) :
    ∃ m ∈ t.seen, m.peerName = y := by
  have hsub : (t.seen.map Message.peerName).Sublist (t.inbox.map Message.peerName) :=
    t.seen_prefix.sublist.map _
  have hlen : (c.peers x).length ≤ (t.seen.map Message.peerName).length := by
    rw [List.length_map, (hi.taskInv ht).length_seen, htaken]
  exact List.mem_map.mp (mem_of_length_le_of_subset ((hi.nodup_senders ht).sublist hsub)
    (fun z hz => hi.sender_mem_peers ht z (hsub.subset hz)) hlen hy)

/-- The messages that a full reader has: a vote of every peer that is not the initiator. Its
messages are from distinct peers and as many as there are peers. What comes from a host that is not
the initiator is a vote. -/
theorem SystemInv.full_votes (hi : SystemInv c s) (ht : s.task? x i = some t)
    (htaken : t.taken = (c.peers x).length) {p : PeerName} {j : Nat} {t' : Task}
    (ht' : s.task? p j = some t') (hrep : t'.goroutine.isReplicate = true)
    (htid : t'.trans.tid = t.trans.tid) {y : PeerName} (hy : y ∈ c.peers x) (hyp : y ≠ p) :
    ∃ b, s.Voted t.trans.tid y b ∧ b.response ∈ responsesOf t.seen := by
  obtain ⟨m, hm, rfl⟩ := hi.full ht htaken hy
  have harrived := mem_arrived_of_inbox ht (t.seen_subset m hm)
  have hmtid := (hi.taskInv ht).tids m (t.seen_subset m hm)
  -- Here it is the other way round: only the initiator sends the request, and the sender is not the
  -- initiator.
  rcases hi.request_or_response harrived with hr | hr
  · -- Only the initiator sends a request.
    obtain ⟨r, hr⟩ := Option.isSome_iff_exists.mp hr
    obtain ⟨k, u, hu, hutid, hurep, -⟩ := hi.request_source harrived hr
    exact absurd (hi.initiators hu ht' hurep hrep (by rw [hutid, hmtid, htid])).1 hyp
  · obtain ⟨r, hr⟩ := Option.isSome_iff_exists.mp hr
    obtain ⟨b, hb, hbr⟩ := hi.voted_of_response harrived hr
    exact ⟨b, hmtid ▸ hb, mem_responsesOf.mpr ⟨m, hm, hr.trans (by rw [hbr])⟩⟩

/-- A full reader that is not at the initiator has the request: it has a message of every peer, and
what comes from the initiator is not a vote. -/
theorem SystemInv.full_request (hi : SystemInv c s) (ht : s.task? x i = some t)
    (htaken : t.taken = (c.peers x).length) {p : PeerName} {j : Nat} {t' : Task}
    (ht' : s.task? p j = some t') (hrep : t'.goroutine.isReplicate = true)
    (htid : t'.trans.tid = t.trans.tid) (hp : p ≠ x) :
    ∃ m ∈ t.seen, m.peerName = p ∧ m.getRequest = t'.trans.request := by
  obtain ⟨m, hm, rfl⟩ := hi.full ht htaken (Cluster.mem_peers.mpr ⟨hi.members ht', hp⟩)
  have harrived := mem_arrived_of_inbox ht (t.seen_subset m hm)
  have hmtid := (hi.taskInv ht).tids m (t.seen_subset m hm)
  refine ⟨m, hm, rfl, ?_⟩
  -- The message of the initiator is a request or a response, and the latter would be a vote of its
  -- own.
  rcases hi.request_or_response harrived with hr | hr
  · obtain ⟨r, hr⟩ := Option.isSome_iff_exists.mp hr
    obtain ⟨k, u, hu, hutid, hurep, -, hureq, -⟩ := hi.request_source harrived hr
    obtain ⟨-, rfl⟩ := hi.initiators hu ht' hurep hrep (by rw [hutid, hmtid, htid])
    obtain rfl : u = t' := Option.some.inj (hu.symm.trans ht')
    rw [hr, hureq]
  · obtain ⟨r, hr⟩ := Option.isSome_iff_exists.mp hr
    obtain ⟨b, hb, -⟩ := hi.voted_of_response harrived hr
    rw [hmtid, ← htid] at hb
    exact absurd rfl (hi.voted_ne_initiator ht' hrep hb)

/-- The votes of the election are the ballots of the handlers. The one is read off the log of
messages and the other off the tasks, and the invariants say that every ballot was sent and every
response is a ballot. -/
theorem SystemInv.vote?_eq_some (hi : SystemInv c s) {tid : TransactionID} {y : PeerName}
    {v : Bool} : s.vote? tid y = some v ↔ ∃ b, s.Voted tid y b ∧ b.approves = v := by
  -- An ACK on the wire is an approval of the ballot.
  have hack : ∀ {b : Ballot}, s.Voted tid y b →
      (decide (b.response.type = .ack) = v ↔ b.approves = v) := by
    intro b hb
    rw [show decide (b.response.type = .ack) = b.approves by
      rw [Bool.eq_iff_iff, decide_eq_true_iff, Ballot.response_ack (hi.voted_verdict hb)]]
  constructor
  · intro h
    obtain ⟨e, hfind, hmap⟩ := Option.bind_eq_some_iff.mp h
    obtain ⟨he, hkey⟩ := (find?_key_eq_some hi.keys).mp hfind
    obtain ⟨hname, htid⟩ : e.msg.peerName = y ∧ e.msg.tid = tid := by
      simpa [messageKey] using hkey
    obtain ⟨r, hr, htype⟩ := Option.map_eq_some_iff.mp hmap
    obtain ⟨b, hb, rfl⟩ := hi.voted_of_log he hr
    rw [hname, htid] at hb
    exact ⟨b, hb, (hack hb).mp htype⟩
  · rintro ⟨b, hb, hv⟩
    have htype := (hack hb).mpr hv
    obtain ⟨i, t, ht, rfl, hmem⟩ := hb
    obtain ⟨e, he, hmsg⟩ := hi.cast ht b hmem
    have hfind := (find?_key_eq_some hi.keys).mpr ⟨he, rfl⟩
    have hkey : messageKey e.msg = (y, t.trans.tid) := by rw [hmsg]; rfl
    rw [hkey] at hfind
    rw [System.vote?, hfind]
    simpa [hmsg] using htype

end Facts

section Sound
variable {c : Cluster} {s : System} {x p : PeerName} {i j : Nat} {t t' : Task}

/-- A vote against the transaction that a reader has gathered. It is a vote of a peer of the
initiator. -/
private theorem SystemInv.vetoed_of_inbox (hi : SystemInv c s) (ht : s.task? x i = some t)
    (ht' : s.task? p j = some t') (hrep : t'.goroutine.isReplicate = true)
    (htid : t'.trans.tid = t.trans.tid) (hnack : ¬ NoNack t.inbox) :
    (s.election t.trans.tid).Vetoed (c.peers p) := by
  obtain ⟨r, hr, htype⟩ : ∃ r ∈ responsesOf t.inbox, r.type = .nack := by
    simpa [NoNack] using hnack
  -- The NACK came in a message of a peer, which is not the initiator.
  obtain ⟨m, hm, hmr⟩ := mem_responsesOf.mp hr
  have harrived := mem_arrived_of_inbox ht hm
  obtain ⟨b, hb, rfl⟩ := hi.voted_of_response harrived hmr
  have hverdict := hi.voted_verdict hb
  rw [(hi.taskInv ht).tids m hm] at hb
  obtain ⟨-, -, -, -, hpeer⟩ := hi.sent_of_arrived harrived
  refine ⟨m.peerName, Cluster.mem_peers.mpr ⟨(Cluster.mem_peers.mp hpeer).1, ?_⟩, ?_⟩
  · exact hi.voted_ne_initiator ht' hrep (htid ▸ hb)
  · refine hi.vote?_eq_some.mpr ⟨b, hb, ?_⟩
    by_contra happroves
    exact (Ballot.response_ne_nack hverdict).mpr (by simpa using happroves) htype

/-- A full reader without a `NACK`, at the initiator or at a host with a vote for the
transaction, has the votes of all peers of the initiator. -/
private theorem SystemInv.unanimous_of_full (hi : SystemInv c s) (ht : s.task? x i = some t)
    (ht' : s.task? p j = some t') (hrep : t'.goroutine.isReplicate = true)
    (htid : t'.trans.tid = t.trans.tid) (htaken : t.taken = (c.peers x).length)
    (hno : NoNack t.seen) (hown : x ≠ p → ∃ b ∈ t.ballots, b.response.type = .ack) :
    (s.election t.trans.tid).Unanimous (c.peers p) := by
  intro y hy
  refine hi.vote?_eq_some.mpr ?_
  obtain ⟨hmem, hyp⟩ := Cluster.mem_peers.mp hy
  -- The host of the reader has voted itself. All others have sent their votes to it.
  by_cases hyx : y = x
  · subst hyx
    obtain ⟨b, hb, hack⟩ := hown hyp
    have hvoted : s.Voted t.trans.tid y b := ⟨i, t, ht, rfl, hb⟩
    exact ⟨b, hvoted, (Ballot.response_ack (hi.voted_verdict hvoted)).mp hack⟩
  · obtain ⟨b, hb, hr⟩ := hi.full_votes ht htaken ht' hrep htid
      (Cluster.mem_peers.mpr ⟨hmem, hyx⟩) hyp
    exact ⟨b, hb, (Ballot.response_ne_nack (hi.voted_verdict hb)).mp (hno b.response hr)⟩

/-- The last vote of a handler, when it has one. Without any it would be taken for an `ACK`. -/
private theorem lastVote_of_ne_nil {ballots : List Ballot} (hne : ballots ≠ []) :
    ∃ b ∈ ballots, lastVote ballots = b.response.type := by
  refine ⟨ballots.getLast hne, List.getLast_mem hne, ?_⟩
  simp [lastVote, List.getLast?_eq_some_getLast hne]

/-- A handler that calls `Mirror.Mirror` has the votes of all peers of the initiator. Those of the
other hosts are among its messages. Its own vote is an `ACK`, and it is one of the votes, because it
has taken the request. -/
private theorem SystemInv.unanimous_of_decided (hi : SystemInv c s)
    (ht : s.task? x i = some t) (ht' : s.task? p j = some t')
    (hrep : t'.goroutine.isReplicate = true) (htid : t'.trans.tid = t.trans.tid)
    {request : Option Request} (hd : Decided (c.peers x).length t request)
    (hseen : requestsOf t.seen = t.ballots.map Ballot.request) :
    (s.election t.trans.tid).Unanimous (c.peers p) := by
  obtain ⟨htaken, hvote, hno, -⟩ := hd
  refine hi.unanimous_of_full ht ht' hrep htid htaken hno fun hxp => ?_
  -- It has taken the request, so it has voted.
  obtain ⟨m, hm, -, hr⟩ := hi.full_request ht htaken ht' hrep htid (Ne.symm hxp)
  obtain ⟨-, r, hreq, -⟩ := hi.requests ht' hrep
  have hne : t.ballots ≠ [] := by
    intro hnil
    have hmem : r ∈ requestsOf t.seen := mem_requestsOf.mpr ⟨m, hm, hr.trans hreq⟩
    simp [hseen, hnil] at hmem
  obtain ⟨b, hb, hlast⟩ := lastVote_of_ne_nil hne
  exact ⟨b, hb, hlast.symm.trans hvote⟩

/-- A handler that ends with `ErrNotPermitted` knows of a vote against the transaction. It is its
own one, or one of its messages. The evaluation looks at the whole transaction, so the message may
be one that the reader has not taken. -/
private theorem SystemInv.vetoed_of_forbidden (hi : SystemInv c s)
    (ht : s.task? x i = some t) (ht' : s.task? p j = some t')
    (hrep : t'.goroutine.isReplicate = true) (htid : t'.trans.tid = t.trans.tid)
    (hd : lastVote t.ballots ≠ .ack ∨ ¬ NoNack t.inbox) :
    (s.election t.trans.tid).Vetoed (c.peers p) := by
  -- The vote against it is the own one, or that of another peer.
  rcases hd with hvote | hnack
  · have hne : t.ballots ≠ [] := by
      intro hnil
      simp [hnil, lastVote] at hvote
    obtain ⟨b, hb, hlast⟩ := lastVote_of_ne_nil hne
    have hvoted : s.Voted t.trans.tid x b := ⟨i, t, ht, rfl, hb⟩
    refine ⟨x, Cluster.mem_peers.mpr ⟨hi.members ht, ?_⟩, ?_⟩
    · exact hi.voted_ne_initiator ht' hrep (htid ▸ hvoted)
    · refine hi.vote?_eq_some.mpr ⟨b, hvoted, ?_⟩
      by_contra happroves
      refine hvote (hlast.trans ?_)
      exact (Ballot.response_ack (hi.voted_verdict hvoted)).mpr (by simpa using happroves)
  · exact hi.vetoed_of_inbox ht ht' hrep htid hnack

/-- Every decision on a transaction is allowed by the votes. A commit needs all of them, a veto
needs one against it, and to give up needs none. -/
private theorem SystemInv.justified (hi : SystemInv c s) (ht : s.task? x i = some t)
    (ht' : s.task? p j = some t') (hrep : t'.goroutine.isReplicate = true)
    (htid : t'.trans.tid = t.trans.tid) {k : Decision}
    (hk : t.goroutine.decision? = some k) :
    (s.election t.trans.tid).Justified (c.peers p) k := by
  have hpoint := (hi.taskInv ht).point
  cases hg : t.goroutine with
  | replicate pc =>
    rw [hg] at hk hpoint
    -- The initiator is this host.
    obtain ⟨rfl, -⟩ := hi.initiators ht' ht hrep (by simp [hg, Goroutine.isReplicate]) htid
    cases pc with
    | leave r | returned r =>
      have hr : ReplicateResult (c.peers p).length t r := hpoint.2
      obtain rfl : replicateDecision r = k := Option.some.inj hk
      cases r with
      | none =>
        exact hi.unanimous_of_full ht ht' hrep htid hr.1 hr.2 fun hne => absurd rfl hne
      | some e =>
        cases e with
        | notPermitted => exact hi.vetoed_of_inbox ht ht' hrep htid hr.2
        | _ => trivial
    | _ => cases hk
  | handle pc =>
    rw [hg] at hk hpoint
    obtain ⟨-, hseen, hpoint⟩ := hpoint
    cases pc with
    | mirror request =>
      cases hk
      exact hi.unanimous_of_decided ht ht' hrep htid hpoint
        (by simpa [HandlePc.inProgress] using hseen)
    | leave r | ended r =>
      obtain rfl : r.decision = k := Option.some.inj hk
      cases r with
      | context e => trivial
      | notPermitted => exact hi.vetoed_of_forbidden ht ht' hrep htid hpoint.2
      | mirrored request err =>
        exact hi.unanimous_of_decided ht ht' hrep htid hpoint
          (by simpa [HandlePc.inProgress] using hseen)
    | _ => cases hk

/-- In every state of every run, a transaction is a sound election of the peers of its
initiator. -/
theorem SystemInv.election_sound (hi : SystemInv c s) (ht' : s.task? p j = some t')
    (hrep : t'.goroutine.isReplicate = true) :
    (s.election t'.trans.tid).Sound (c.peers p) := by
  rintro ⟨x, i⟩ k hk
  obtain ⟨t, ht, hk⟩ := Option.bind_eq_some_iff.mp hk
  split at hk
  · rename_i htid
    rw [← htid]
    exact hi.justified ht ht' hrep htid.symm hk
  · cases hk

/-- The election only grows. This is what makes its theorems apply to a run, where votes and
decisions are added one by one. -/
theorem System.Extends.election {s' : System} (hext : s.Extends s') (tid : TransactionID) :
    (s.election tid).Le (s'.election tid) where
  votes y v hv := by
    obtain ⟨e, hfind, hmap⟩ := Option.bind_eq_some_iff.mp hv
    obtain ⟨new, hlog⟩ := hext.log
    refine Option.bind_eq_some_iff.mpr ⟨e, ?_, hmap⟩
    -- The log grows at its end, so the first response of a peer stays the first.
    rw [← hlog, List.find?_append, hfind]
    rfl
  decisions := by
    rintro ⟨y, k⟩ d hd
    obtain ⟨t, ht, hd⟩ := Option.bind_eq_some_iff.mp hd
    obtain ⟨t', ht', hext⟩ := hext.tasks ht
    refine Option.bind_eq_some_iff.mpr ⟨t', ht', ?_⟩
    rw [hext.tid]
    split at hd
    · rw [if_pos ‹_›]
      exact hext.decision hd
    · cases hd

end Sound

end ReplicatedFs.P2p
