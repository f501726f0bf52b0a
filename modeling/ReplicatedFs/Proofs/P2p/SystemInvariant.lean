import ReplicatedFs.Proofs.P2p.SystemStep

/-!
# `ReplicatedFs.Proofs.P2p.SystemInvariant`: what holds of the system in every state

`SystemInv` holds in every state of every run, with any loss, any failed broadcast and any
timeout (`Reachable.inv`). It ties what a host has gathered to what the other hosts did:

* no message is invented or duplicated (`wire`, `keys`);
* a request in the log belongs to the one `Replicate` call of its id, a response to a vote of a
  handler (`accounted`), and both ways (`asked`, `cast`);
* one host calls `Replicate` for an id, once (`initiators`).

From it follow the facts about one transaction that the later modules use:

* `SystemInv.request_source`: where a gathered request comes from.
* `SystemInv.request_unique`: a host gathers at most one request for an id.
* `SystemInv.holder_unique`: at most one task of a host holds it.
-/

set_option autoImplicit false

namespace ReplicatedFs.P2p

open ReplicatedFs.Protobuf
open Library

/-- What identifies a message: an honest host sends at most one for an id. -/
def messageKey (m : Message) : PeerName × TransactionID := (m.peerName, m.tid)

/-- What the task `t` has done to put the entry in the log. A `Replicate` call broadcast its
request, a handler its vote. -/
def Authored (t : Task) (e : Sent) : Prop :=
  (∃ r, e.msg.payload = .request r ∧ t.goroutine.isReplicate = true ∧
      t.goroutine.asked = true ∧ t.trans.request = some r ∧
      ∀ reason, t.goroutine.result? = some (some (.refused reason)) → e.reached = []) ∨
    ∃ b ∈ t.ballots, e.msg.payload = .response b.response

/-- The entry of the log was sent by a host of the cluster to some of its peers, and some task
of that host is its author. -/
def Accounted (c : Cluster) (s : System) (e : Sent) : Prop :=
  e.msg.peerName ∈ c.names ∧ e.reached.Sublist (c.peers e.msg.peerName) ∧
    ∃ i t, s.task? e.msg.peerName i = some t ∧ t.trans.tid = e.msg.tid ∧ Authored t e

/-- The invariant of the system. -/
structure SystemInv (c : Cluster) (s : System) : Prop where
  config : ∀ x, (s.hosts x).name = x ∧ (s.hosts x).peers = c.peers x
  hosts : ∀ x, HostInv (s.hosts x)
  members : ∀ {x i t}, s.task? x i = some t → x ∈ c.names
  wire : ∀ x, (s.arrived x).Subperm (s.sentTo x)
  keys : (s.log.map fun e => messageKey e.msg).Nodup
  accounted : ∀ e ∈ s.log, Accounted c s e
  asked : ∀ {x i t}, s.task? x i = some t → t.goroutine.asked = true →
    ∃ e ∈ s.log, messageKey e.msg = (x, t.trans.tid) ∧ e.msg.getRequest.isSome
  cast : ∀ {x i t}, s.task? x i = some t → ∀ b ∈ t.ballots,
    ∃ e ∈ s.log, e.msg = newResponseMessage t.trans.tid x b.response
  initiators : ∀ {x i t y j t'}, s.task? x i = some t → s.task? y j = some t' →
    t.goroutine.isReplicate = true → t'.goroutine.isReplicate = true →
    t.trans.tid = t'.trans.tid → x = y ∧ i = j
  requests : ∀ {x i t}, s.task? x i = some t → t.goroutine.isReplicate = true →
    t.trans.initiatorName = x ∧ ∃ r, t.trans.request = some r ∧ r.metadata.isSome
  verdicts : ∀ {x i t}, s.task? x i = some t → ∀ b ∈ t.votes,
    b.verdict.IsVerdict ∧ (b.conflict = true → b.verdict.type = .ack)
  gathered : ∀ {x i t}, s.task? x i = some t → t.goroutine.isReplicate = false → t.inbox ≠ []

section Facts
variable {c : Cluster} {s : System} {x : PeerName} {i : Nat} {t : Task}

/-- The invariant of a task, with the name and the peers that the cluster gives to its host. -/
theorem SystemInv.taskInv (hi : SystemInv c s) (ht : s.task? x i = some t) :
    TaskInv x (c.peers x).length ((s.hosts x).blocks i) t := by
  have := (hi.hosts x).tasks i t ht
  rwa [(hi.config x).1, (hi.config x).2] at this

/-- What a task has gathered has arrived. It counts as arrived when it is in an inbox or still in
flight. -/
theorem mem_arrived_of_inbox {m : Message} (ht : s.task? x i = some t) (hm : m ∈ t.inbox) :
    m ∈ s.arrived x :=
  List.mem_append_left _ (List.mem_flatMap.mpr ⟨t, List.mem_of_getElem? ht, hm⟩)

/-- What has arrived was sent by another host, in a broadcast that reached this one. Nothing else
brings a message. -/
theorem SystemInv.sent_of_arrived (hi : SystemInv c s) {m : Message} (hm : m ∈ s.arrived x) :
    ∃ e ∈ s.log, e.msg = m ∧ x ∈ e.reached ∧ m.peerName ∈ c.peers x := by
  obtain ⟨e, he, hx, rfl⟩ := mem_copiesTo.mp ((hi.wire x).subset hm)
  obtain ⟨hname, hsub, -⟩ := hi.accounted e he
  have hpeer := Cluster.mem_peers.mp (hsub.subset hx)
  exact ⟨e, he, rfl, hx, Cluster.mem_peers.mpr ⟨hname, Ne.symm hpeer.2⟩⟩

/-- The log has one entry for a sender and an id. A host sends a request or a vote for a
transaction, and only once. -/
theorem SystemInv.entry_unique (hi : SystemInv c s) {e e' : Sent} (he : e ∈ s.log)
    (he' : e' ∈ s.log) (hkey : messageKey e.msg = messageKey e'.msg) : e = e' :=
  List.inj_on_of_nodup_map hi.keys he he' hkey

/-- The keys of what has arrived at a host are distinct. So no peer is counted twice in a
transaction. -/
theorem SystemInv.nodup_arrived (hi : SystemInv c s) (x : PeerName) :
    ((s.arrived x).map messageKey).Nodup := by
  have hsent : ((s.sentTo x).map messageKey).Nodup := by
    rw [System.sentTo, copiesTo, List.map_map]
    exact hi.keys.sublist (List.filter_sublist.map _)
  obtain ⟨l, hperm, hsub⟩ := hi.wire x
  exact (hperm.map messageKey).nodup_iff.mp (hsent.sublist (hsub.map messageKey))

/-- A request that has arrived belongs to the `Replicate` call of its sender. -/
theorem SystemInv.request_source (hi : SystemInv c s) {m : Message} {r : Request}
    (hm : m ∈ s.arrived x) (hr : m.getRequest = some r) :
    ∃ j t', s.task? m.peerName j = some t' ∧ t'.trans.tid = m.tid ∧
      t'.goroutine.isReplicate = true ∧ t'.goroutine.asked = true ∧
      t'.trans.request = some r ∧ m.peerName ≠ x := by
  obtain ⟨e, he, rfl, hx, hpeer⟩ := hi.sent_of_arrived hm
  obtain ⟨-, -, j, t', ht', htid, ⟨r', hpay, hrep, hasked, hreq, -⟩ | ⟨b, -, hpay⟩⟩ :=
    hi.accounted e he
  · have : r' = r := by simpa [Message.getRequest, hpay] using hr
    subst this
    exact ⟨j, t', ht', htid, hrep, hasked, hreq, (Cluster.mem_peers.mp hpeer).2⟩
  · simp [Message.getRequest, hpay] at hr

/-- Every message is a request or a response. The hosts send no message with an empty `oneof`. -/
theorem SystemInv.request_or_response (hi : SystemInv c s) {m : Message}
    (hm : m ∈ s.arrived x) : m.getRequest.isSome ∨ m.getResponse.isSome := by
  obtain ⟨e, he, rfl, -, -⟩ := hi.sent_of_arrived hm
  obtain ⟨-, -, j, t', -, -, ⟨r, hpay, -⟩ | ⟨b, -, hpay⟩⟩ := hi.accounted e he
  · simp [Message.getRequest, hpay]
  · simp [Message.getResponse, hpay]

/-- No request for its own id reaches the host that called `Replicate`. -/
theorem SystemInv.no_request (hi : SystemInv c s) (ht : s.task? x i = some t)
    (hrep : t.goroutine.isReplicate = true) {m : Message} (hm : m ∈ s.arrived x)
    (htid : m.tid = t.trans.tid) : m.getRequest = none := by
  cases hr : m.getRequest with
  | none => rfl
  | some r =>
    obtain ⟨j, t', ht', htid', hrep', -, -, hne⟩ := hi.request_source hm hr
    exact absurd (hi.initiators ht' ht hrep' hrep (htid'.trans htid)).1 hne

/-- A handler with a vote has the request it voted on in its transaction. A `Replicate` has no
ballots. -/
theorem SystemInv.ballot_request (hi : SystemInv c s) (ht : s.task? x i = some t) {b : Ballot}
    (hb : b ∈ t.ballots) :
    ∃ m ∈ t.inbox, m.getRequest = some b.request ∧ m.tid = t.trans.tid := by
  have hinv := hi.taskInv ht
  have hpoint := hinv.point
  cases hg : t.goroutine with
  | replicate pc =>
    rw [hg] at hpoint
    simp [hpoint.1] at hb
  | handle pc =>
    rw [hg] at hpoint
    -- The requests that were taken are those with a ballot, and at most one more.
    have hmem : b.request ∈ requestsOf t.seen := by
      rw [hpoint.2.1]
      exact List.mem_append_left _ (List.mem_map_of_mem hb)
    obtain ⟨m, hm, hr⟩ := mem_requestsOf.mp hmem
    exact ⟨m, t.seen_subset m hm, hr, hinv.tids m (t.seen_subset m hm)⟩

/-- Two requests for one id that have arrived at a host are the same message. -/
theorem SystemInv.request_unique (hi : SystemInv c s) {m m' : Message}
    (hm : m ∈ s.arrived x) (hm' : m' ∈ s.arrived x) (hr : m.getRequest.isSome)
    (hr' : m'.getRequest.isSome) (htid : m.tid = m'.tid) : messageKey m = messageKey m' := by
  obtain ⟨r, hr⟩ := Option.isSome_iff_exists.mp hr
  obtain ⟨r', hr'⟩ := Option.isSome_iff_exists.mp hr'
  obtain ⟨j, u, hu, hut, hurep, -⟩ := hi.request_source hm hr
  obtain ⟨j', u', hu', hut', hurep', -⟩ := hi.request_source hm' hr'
  have hname := (hi.initiators hu hu' hurep hurep' (by rw [hut, hut', htid])).1
  simp [messageKey, hname, htid]

/-- A transaction gathers at most one request, that of the host which has made the call. -/
theorem SystemInv.length_requestsOf (hi : SystemInv c s) (ht : s.task? x i = some t) :
    (requestsOf t.inbox).length ≤ 1 := by
  have hnodup : (t.inbox.map messageKey).Nodup := by
    have := hi.nodup_arrived x
    rw [System.arrived, List.map_append] at this
    exact nodup_of_flatMap (List.Nodup.of_append_left this) ht
  refine length_filterMap_le_one hnodup fun m hm m' hm' hr hr' => ?_
  have htids := (hi.taskInv ht).tids
  exact hi.request_unique (mem_arrived_of_inbox ht hm) (mem_arrived_of_inbox ht hm') hr hr'
    ((htids m hm).trans (htids m' hm').symm)

/-- Two tasks of a host that hold a request for one id are the same. -/
theorem SystemInv.holder_unique (hi : SystemInv c s) {j : Nat} {t' : Task}
    (ht : s.task? x i = some t) (ht' : s.task? x j = some t') {m m' : Message}
    (hm : m ∈ t.inbox) (hm' : m' ∈ t'.inbox) (hr : m.getRequest.isSome)
    (hr' : m'.getRequest.isSome) (htid : m.tid = m'.tid) : i = j := by
  have hkey := hi.request_unique (mem_arrived_of_inbox ht hm) (mem_arrived_of_inbox ht' hm')
    hr hr' htid
  have hnodup := hi.nodup_arrived x
  rw [System.arrived, List.map_append] at hnodup
  exact flatMap_key_unique (List.Nodup.of_append_left hnodup) ht ht' hm hm' hkey

/-- The sender of the request of an id that arrived at a host is not that host. -/
theorem SystemInv.no_ballot_at_initiator (hi : SystemInv c s) (ht : s.task? x i = some t)
    (hrep : t.goroutine.isReplicate = true) {j : Nat} {t' : Task}
    (ht' : s.task? x j = some t') (htid : t'.trans.tid = t.trans.tid) : t'.ballots = [] := by
  rw [List.eq_nil_iff_forall_not_mem]
  intro b hb
  obtain ⟨m, hm, hr, hmtid⟩ := hi.ballot_request ht' hb
  have := hi.no_request ht hrep (mem_arrived_of_inbox ht' hm) (hmtid.trans htid)
  simp [this] at hr

end Facts

section Step
variable {c : Cluster} {s s' : System} {a : Action}

/-- The initial system. There are no tasks, no messages and no log. -/
theorem SystemInv.init (c : Cluster) (clocks : PeerName → UInt64) :
    SystemInv c (System.init c clocks) where
  config _ := ⟨rfl, rfl⟩
  hosts x := HostInv.init x (c.peers x) (clocks x)
  members ht := by simp [System.task?, System.init] at ht
  wire x := by simp [System.arrived, System.init]
  keys := by simp [System.init]
  accounted := by simp [System.init]
  asked ht := by simp [System.task?, System.init] at ht
  cast ht := by simp [System.task?, System.init] at ht
  initiators ht := by simp [System.task?, System.init] at ht
  requests ht := by simp [System.task?, System.init] at ht
  verdicts ht := by simp [System.task?, System.init] at ht
  gathered ht := by simp [System.task?, System.init] at ht

/-- What a task has gathered after a step had arrived before it. It was in an inbox before, or in
flight. So facts about arrived messages can be used for the new state before its invariant is
proved. -/
theorem SystemInv.inbox_arrived (hi : SystemInv c s) (hm : SystemMove c s a s') {x : PeerName}
    {i : Nat} {t' : Task} (ht' : s'.task? x i = some t') {m : Message} (hmem : m ∈ t'.inbox) :
    m ∈ s.arrived x := by
  have hflat : m ∈ (s'.hosts x).tasks.flatMap Task.inbox :=
    List.mem_flatMap.mpr ⟨t', List.mem_of_getElem? ht', hmem⟩
  cases hm with
  | host y e h' sent hy ha hp hm =>
    by_cases hxy : x = y
    · subst hxy
      simp only [Function.update_self] at hflat
      rcases List.mem_append.mp ((hm.inboxes (hi.hosts x)).subset hflat) with hrec | hold
      · -- The received message was in flight.
        cases e with
        | receive msg =>
          obtain rfl : m = msg := by simpa [Event.received] using hrec
          refine List.mem_append_right _ (List.mem_map.mpr ⟨(x, m), ?_, rfl⟩)
          simpa [System.admits] using ha
        | _ => simp [Event.received] at hrec
      · exact List.mem_append_left _ hold
    · simp only [Function.update_of_ne hxy] at hflat
      exact List.mem_append_left _ hflat
  | lose y msg hmem => exact List.mem_append_left _ hflat

/-- The request of a `Replicate` call stays what it was. `Put` would replace it if another request
came in with the same id. -/
theorem SystemInv.request_stable (hi : SystemInv c s) (hm : SystemMove c s a s') {x : PeerName}
    {i : Nat} {t t' : Task} (ht : s.task? x i = some t) (ht' : s'.task? x i = some t')
    (hext : TaskExtends t t') (hrep : t.goroutine.isReplicate = true)
    (htids : ∀ m ∈ t'.inbox, m.tid = t'.trans.tid) :
    t'.trans.request = t.trans.request ∧ t'.trans.initiatorName = t.trans.initiatorName := by
  refine hext.request fun m hmem => ?_
  exact hi.no_request ht hrep (hi.inbox_arrived hm ht' hmem) ((htids m hmem).trans hext.tid)

/-- The hosts keep their configuration and their invariant. The network does not enter into it. -/
private theorem SystemInv.step_hosts (hi : SystemInv c s) (hm : SystemMove c s a s')
    (x : PeerName) :
    ((s'.hosts x).name = x ∧ (s'.hosts x).peers = c.peers x) ∧ HostInv (s'.hosts x) := by
  cases hm with
  | host y e h' sent hy ha hp hm =>
    by_cases hxy : x = y
    · subst hxy
      simp only [Function.update_self]
      rw [hm.config.1, hm.config.2]
      exact ⟨hi.config x, (hi.hosts x).step hm⟩
    · simp only [Function.update_of_ne hxy]
      exact ⟨hi.config x, hi.hosts x⟩
  | lose y msg hmem => exact ⟨hi.config x, hi.hosts x⟩

/-- Nothing is invented or duplicated. Messages may be lost, so the relation is not an equality. -/
private theorem SystemInv.step_wire (hi : SystemInv c s) (hm : SystemMove c s a s')
    (y : PeerName) : (s'.arrived y).Subperm (s'.sentTo y) := by
  cases hm with
  | host x e h' sent hx ha hp hm =>
    have hnodup : (s.hosts x).peers.Nodup := by
      rw [(hi.config x).2]
      exact c.nodup_peers x
    have harrived := arrived_host ha (hi.hosts x) hnodup hm y
    rw [System.sentTo, copiesTo_append]
    exact harrived.subperm.trans ((List.subperm_append_right _).mpr (hi.wire y))
  | lose x msg hmem => exact (arrived_lose x msg y).subperm.trans (hi.wire y)

/-- An author stays the author of its entry. Tasks are not removed, and they keep what they have
sent. -/
private theorem SystemInv.accounted_mono (hi : SystemInv c s) (hm : SystemMove c s a s')
    {e : Sent} (he : Accounted c s e) : Accounted c s' e := by
  obtain ⟨hname, hsub, i, t, ht, htid, hauthor⟩ := he
  obtain ⟨t', ht', hext⟩ := hm.extends.tasks ht
  refine ⟨hname, hsub, i, t', ht', hext.tid.trans htid, ?_⟩
  rcases hauthor with ⟨r, hpay, hrep, hasked, hreq, hrefused⟩ | ⟨b, hb, hpay⟩
  · have htids := ((hi.step_hosts hm e.msg.peerName).2.tasks i t' ht').tids
    have hstable := hi.request_stable hm ht ht' hext hrep htids
    refine .inl ⟨r, hpay, hext.kind.trans hrep, hext.asked hasked, hstable.1.trans hreq, ?_⟩
    intro reason hres
    exact hrefused reason (hext.refused hasked reason hres)
  · exact .inr ⟨b, hext.ballots.subset hb, hpay⟩

/-- The host of a `Replicate` call that has not asked yet has sent nothing for its id. -/
private theorem SystemInv.request_fresh (hi : SystemInv c s) {x : PeerName} {ref : Nat} {t : Task}
    (ht : s.task? x ref = some t) (hrep : t.goroutine.isReplicate = true)
    (hasked : t.goroutine.asked = false) : ∀ e ∈ s.log, messageKey e.msg ≠ (x, t.trans.tid) := by
  -- An earlier entry would be this call's own, or a vote on a request that came here.
  intro e he hkey
  obtain ⟨-, -, j, u, hu, hutid, hauthor⟩ := hi.accounted e he
  obtain ⟨hname, hetid⟩ : e.msg.peerName = x ∧ e.msg.tid = t.trans.tid := by
    simpa [messageKey] using hkey
  rw [hname] at hu
  rcases hauthor with ⟨r', -, hurep, huasked, -, -⟩ | ⟨b', hb', -⟩
  · obtain ⟨-, rfl⟩ := hi.initiators hu ht hurep hrep (hutid.trans hetid)
    obtain rfl : u = t := Option.some.inj (hu.symm.trans ht)
    simp [hasked] at huasked
  · have := hi.no_ballot_at_initiator ht hrep hu (hutid.trans hetid)
    simp [this] at hb'

/-- The host of a handler that has a request without a vote has sent nothing for its id. It has not
made the call, since a host gets no request of its own. A vote of another handler would be on the
same request, and this request is here. -/
private theorem SystemInv.vote_fresh (hi : SystemInv c s) {x : PeerName} {ref : Nat} {t : Task}
    {msg : Message} (ht : s.task? x ref = some t) (hmem : msg ∈ t.inbox)
    (hget : msg.getRequest.isSome = true)
    (hunvoted : t.ballots.length < (requestsOf t.seen).length) :
    ∀ e ∈ s.log, messageKey e.msg ≠ (x, msg.tid) := by
  intro e he hkey
  obtain ⟨-, -, j, u, hu, hutid, hauthor⟩ := hi.accounted e he
  obtain ⟨hname, hetid⟩ : e.msg.peerName = x ∧ e.msg.tid = msg.tid := by
    simpa [messageKey] using hkey
  rw [hname] at hu
  rcases hauthor with ⟨r', -, hurep, -, -, -⟩ | ⟨b', hb', -⟩
  · -- The host did not call `Replicate` for this id, since a request came here.
    have := hi.no_request hu hurep (mem_arrived_of_inbox ht hmem) (hetid.symm.trans hutid.symm)
    simp [this] at hget
  · -- The other vote is on the same request, so it is in the same task, which has no vote.
    obtain ⟨m', hm', hr', hmtid'⟩ := hi.ballot_request hu hb'
    have hij := hi.holder_unique hu ht hm' hmem (by simp [hr']) hget (by rw [hmtid', hutid, hetid])
    subst hij
    obtain rfl : u = t := Option.some.inj (hu.symm.trans ht)
    have hlen := hi.length_requestsOf ht
    have hseen : (requestsOf u.seen).length ≤ (requestsOf u.inbox).length :=
      (u.seen_prefix.sublist.filterMap _).length_le
    have hpos := List.length_pos_of_mem hb'
    omega

/-- The author of a new entry of the log, and that its host has not sent for this id before. A
`Replicate` sends its request once. A handler sends one vote, because it gets one request at most,
and another handler of the same id has not had the request. -/
private theorem SystemInv.new_entry (hi : SystemInv c s) {x : PeerName} {e : Event} {h' : Host}
    {b : Sent} (hm : HostMove (s.hosts x) e h' (some b)) :
    b.msg.peerName = x ∧ b.reached.Sublist (c.peers x) ∧
      (∃ (i : Nat) (t : Task), h'.tasks[i]? = some t ∧ t.trans.tid = b.msg.tid ∧ Authored t b) ∧
      ∀ e ∈ s.log, messageKey e.msg ≠ messageKey b.msg := by
  have hsub : b.reached.Sublist (c.peers x) := (hi.config x).2 ▸ hm.reached_sublist
  obtain ⟨ref, t, result, -, ht, hreached, hcase⟩ := hm.sent_cases
  have htask : s.task? x ref = some t := ht
  have hinv := hi.taskInv htask
  have hpoint := hinv.point
  rcases hcase with ⟨message, hg, hmsg, ht'⟩ | ⟨msg, ballot, hg, hmsg, ht'⟩
  · -- A `Replicate` call broadcasts its request.
    rw [hg] at hpoint
    obtain ⟨-, -, r, hmessage, hreq⟩ := hpoint
    have hrep : t.goroutine.isReplicate = true := by simp [hg, Goroutine.isReplicate]
    have hnone : requestsOf t.inbox = [] := by
      rw [requestsOf, List.filterMap_eq_nil_iff]
      intro m hmem
      exact hi.no_request htask hrep (mem_arrived_of_inbox htask hmem) (hinv.tids m hmem)
    have hfresh := hi.request_fresh htask hrep (by simp [hg, Goroutine.asked])
    refine ⟨by rw [hmsg, hmessage]; rfl, hsub, ⟨ref, _, ht', by rw [hmsg, hmessage]; rfl,
      .inl ⟨r, by rw [hmsg, hmessage]; rfl, rfl, asked_afterBroadcast _ _, hreq hnone, ?_⟩⟩,
      by rw [hmsg, hmessage]; exact hfresh⟩
    intro reason hres
    rcases afterBroadcast_cases (s.hosts x).peers result with
      ⟨reason', rfl, -⟩ | ⟨failed, reached, errs, -, -, hafter⟩ | ⟨expected, errs, hafter⟩
    · exact hreached
    · simp [Task.goto, hafter, Goroutine.result?] at hres
    · simp [Task.goto, hafter, Goroutine.result?] at hres
  · -- A handler broadcasts its vote.
    rw [hg] at hpoint
    obtain ⟨-, hreq, hmem, hget⟩ := hpoint
    have hunvoted : t.ballots.length < (requestsOf t.seen).length := by
      simp [hreq, HandlePc.inProgress]
    have hfresh := hi.vote_fresh htask hmem (by simp [hget]) hunvoted
    refine ⟨by rw [hmsg, (hi.config x).1]; rfl, hsub, ⟨ref, _, ht', ?_,
      .inr ⟨ballot, by simp, by rw [hmsg]; rfl⟩⟩, ?_⟩
    · rw [hmsg]
      exact (hinv.tids msg hmem).symm
    · rw [hmsg, (hi.config x).1]
      exact hfresh

/-- The log stays accounted, with distinct keys. A key is a sender and an id: a host sends one
message in a transaction, its request or its vote, and this is what makes a count of messages a
count of votes. -/
private theorem SystemInv.step_log (hi : SystemInv c s) (hm : SystemMove c s a s') :
    (∀ e ∈ s'.log, Accounted c s' e) ∧ (s'.log.map fun e => messageKey e.msg).Nodup := by
  have hmono : ∀ e ∈ s.log, Accounted c s' e := fun e he =>
    hi.accounted_mono hm (hi.accounted e he)
  cases hm with
  | host x e h' sent hx ha hp hm =>
    cases sent with
    | none => simpa using ⟨hmono, hi.keys⟩
    | some b =>
      -- One new entry, of a sender that has sent nothing with this id before.
      obtain ⟨hname, hsub, ⟨i, t, ht, htid, hauthor⟩, hfresh⟩ := hi.new_entry hm
      refine ⟨fun e he => ?_, ?_⟩
      · rcases List.mem_append.mp he with he | he
        · exact hmono e he
        · obtain rfl : e = b := by simpa using he
          refine ⟨hname ▸ hx, hname ▸ hsub, i, t, ?_, htid, hauthor⟩
          rw [hname, task?_update_self]
          exact ht
      · simp only [Option.toList_some, List.map_append, List.map_cons, List.map_nil]
        refine List.Nodup.append hi.keys (by simp) ?_
        intro k hk hk'
        obtain ⟨e, he, rfl⟩ := List.mem_map.mp hk
        exact hfresh e he (by simpa using hk')
  | lose x msg hmem => exact ⟨hmono, hi.keys⟩

/-- What a `Replicate` call asked is in the log. It is logged in the step of the broadcast, also
when the broadcast fails for some of the peers. A call that was refused by the conflict check has
not asked. -/
private theorem SystemInv.step_asked (hi : SystemInv c s) (hm : SystemMove c s a s')
    {x : PeerName} {i : Nat} {t' : Task} (ht' : s'.task? x i = some t')
    (hasked : t'.goroutine.asked = true) :
    ∃ e ∈ s'.log, messageKey e.msg = (x, t'.trans.tid) ∧ e.msg.getRequest.isSome := by
  -- A call that had asked before the step is in the log already.
  have hold : ∀ {t : Task}, s.task? x i = some t → t.trans.tid = t'.trans.tid →
      t.goroutine.asked = true →
      ∃ e ∈ s'.log, messageKey e.msg = (x, t'.trans.tid) ∧ e.msg.getRequest.isSome := by
    intro t ht htid ha
    obtain ⟨e, he, hkey, hreq⟩ := hi.asked ht ha
    exact ⟨e, hm.extends.log.subset he, htid ▸ hkey, hreq⟩
  rcases hm.change ht' with ht | ⟨e, sent, rfl, hx, ha, hlog, hchange⟩
  · exact hold ht rfl hasked
  · generalize ht : s.task? x i = old at hchange
    cases hchange with
    | same e sent t => exact hold ht rfl hasked
    | call tid request hfresh => simp [Goroutine.asked] at hasked
    | join msg t hlookup => exact hold ht (by simp) hasked
    | spawn msg hlookup => simp [Goroutine.asked] at hasked
    | notify msg t hl hr =>
      have hext : TaskExtends t (t.notified msg) := t.notified_extends hr
      refine hold ht hext.tid.symm ?_
      unfold Task.notified at hasked
      split at hasked
      · simp [Goroutine.asked] at hasked
      · exact hasked
    | move input t m hmove =>
      cases hmove with
      | broadcast message result hg =>
        have hpoint := (hi.taskInv ht).point
        rw [hg] at hpoint
        obtain ⟨-, -, r, rfl, -⟩ := hpoint
        refine ⟨⟨newRequestMessage t.trans.tid x r, result.reached (s.hosts x).peers⟩, ?_, rfl, rfl⟩
        rw [hlog]
        simp
      | giveUp expected failed e hg hlt => exact hold ht rfl (by simp [hg, Goroutine.asked])
      | sendError expected failed hg hle hf =>
        exact hold ht rfl (by simp [hg, Goroutine.asked])
      | process expected increment result hg hle hp =>
        exact hold ht rfl (by simp [hg, Goroutine.asked])
      | depart result hg =>
        exact hold ht rfl (by simpa [Task.goto, hg, Goroutine.asked] using hasked)
      | _ => simp [Task.goto, Goroutine.asked] at hasked

/-- A vote that a handler has cast is in the log. Before the broadcast it is not a ballot yet.
The id of the entry is that of the transaction, since the handler answers under the id of the
request. -/
private theorem SystemInv.step_cast (hi : SystemInv c s) (hm : SystemMove c s a s')
    {x : PeerName} {i : Nat} {t' : Task} (ht' : s'.task? x i = some t') {b : Ballot}
    (hb : b ∈ t'.ballots) :
    ∃ e ∈ s'.log, e.msg = newResponseMessage t'.trans.tid x b.response := by
  have hold : ∀ {t : Task}, s.task? x i = some t → t.trans.tid = t'.trans.tid →
      b ∈ t.ballots → ∃ e ∈ s'.log, e.msg = newResponseMessage t'.trans.tid x b.response := by
    intro t ht htid hbt
    obtain ⟨e, he, hmsg⟩ := hi.cast ht b hbt
    exact ⟨e, hm.extends.log.subset he, htid ▸ hmsg⟩
  rcases hm.change ht' with ht | ⟨e, sent, rfl, hx, ha, hlog, hchange⟩
  · exact hold ht rfl hb
  · generalize ht : s.task? x i = old at hchange
    cases hchange with
    | same e sent t => exact hold ht rfl hb
    | call tid request hfresh => simp at hb
    | join msg t hlookup => exact hold ht (by simp) hb
    | spawn msg hlookup => simp at hb
    | notify msg t hl hr =>
      have hext : TaskExtends t (t.notified msg) := t.notified_extends hr
      refine hold ht hext.tid.symm ?_
      unfold Task.notified at hb
      split at hb <;> exact hb
    | move input t m hmove =>
      cases hmove with
      | respond msg ballot result hg =>
        rcases List.mem_append.mp hb with hb | hb
        · exact hold ht rfl hb
        · -- The new ballot is broadcast in this step, under the id of the request.
          obtain rfl : b = ballot := by simpa using hb
          have hinv := hi.taskInv ht
          have hpoint := hinv.point
          rw [hg] at hpoint
          obtain ⟨-, -, hmem, -⟩ := hpoint
          refine ⟨⟨newResponseMessage t.trans.tid x b.response,
            result.reached (s.hosts x).peers⟩, ?_, rfl⟩
          rw [hlog, ← hinv.tids msg hmem]
          simp [(hi.config x).1]
      | _ => exact hold ht rfl hb

/-- The id of a new call is new. The run draws ids that no host has used, as random ids are in
practice. -/
theorem SystemInv.fresh_tid (hi : SystemInv c s) {tid : TransactionID}
    (hused : s.used c tid = false) {y : PeerName} {j : Nat} {t : Task}
    (ht : s.task? y j = some t) : t.trans.tid ≠ tid := by
  intro htid
  have hused' : s.used c tid = true := by
    simp only [System.used, List.any_eq_true, decide_eq_true_eq]
    exact ⟨y, hi.members ht, t, List.mem_of_getElem? ht, htid⟩
  simp [hused'] at hused

/-- A `Replicate` call after a step was one before it, or it has a new id. In the second case the
host itself is the initiator, and the request has metadata. -/
private theorem SystemInv.replicate_cases (hi : SystemInv c s) (hm : SystemMove c s a s')
    {x : PeerName} {i : Nat} {t' : Task} (ht' : s'.task? x i = some t')
    (hrep : t'.goroutine.isReplicate = true) :
    (∃ t, s.task? x i = some t ∧ TaskExtends t t' ∧ t.goroutine.isReplicate = true) ∨
      (s.task? x i = none ∧ (∀ y j t, s.task? y j = some t → t.trans.tid ≠ t'.trans.tid) ∧
        t'.trans.initiatorName = x ∧ ∃ r, t'.trans.request = some r ∧ r.metadata.isSome) := by
  rcases hm.change ht' with ht | ⟨e, sent, rfl, hx, ha, hlog, hchange⟩
  · exact .inl ⟨t', ht, .refl t', hrep⟩
  · generalize hold : s.task? x i = old at hchange
    cases old with
    | some t =>
      obtain ⟨t'', ht'', hext⟩ := hm.extends.tasks hold
      obtain rfl : t' = t'' := Option.some.inj (ht'.symm.trans ht'')
      exact .inl ⟨t, rfl, hext, hext.kind.symm.trans hrep⟩
    | none =>
      cases hchange with
      | call tid request hfresh =>
        simp only [System.admits, Bool.and_eq_true, Bool.not_eq_true'] at ha
        -- The guard of the system lets a call in only with an id that nobody has used.
        exact .inr ⟨rfl, fun y j t ht => hi.fresh_tid ha.1 ht, (hi.config x).1, request, rfl,
          ha.2⟩
      | spawn msg hlookup => simp [Goroutine.isReplicate] at hrep

/-- One call of `Replicate` for an id. Two calls, also of different hosts, have different ids. The
id of a new call is not used by any task, so it cannot be the one of an earlier call. -/
private theorem SystemInv.step_initiators (hi : SystemInv c s) (hm : SystemMove c s a s')
    {x y : PeerName} {i j : Nat} {t t' : Task} (ht : s'.task? x i = some t)
    (ht' : s'.task? y j = some t') (hrep : t.goroutine.isReplicate = true)
    (hrep' : t'.goroutine.isReplicate = true) (htid : t.trans.tid = t'.trans.tid) :
    x = y ∧ i = j := by
  rcases hi.replicate_cases hm ht hrep with ⟨u, hu, hext, hurep⟩ | ⟨hnone, hnew, -⟩ <;>
    rcases hi.replicate_cases hm ht' hrep' with ⟨u', hu', hext', hurep'⟩ | ⟨hnone', hnew', -⟩
  · exact hi.initiators hu hu' hurep hurep' (by rw [← hext.tid, ← hext'.tid, htid])
  · exact absurd (hext.tid.symm.trans htid) (hnew' x i u hu)
  · exact absurd (hext'.tid.symm.trans htid.symm) (hnew y j u' hu')
  · -- Only one host moves, and it adds only one task.
    cases hm with
    | host z e h' sent hz ha hp hm =>
      have hnew_at : ∀ {w : PeerName} {k : Nat} {v : Task},
          System.task? ⟨Function.update s.hosts z h', s.flightAfter z e sent,
            s.log ++ sent.toList⟩ w k = some v → s.task? w k = none →
          w = z ∧ k = (s.hosts z).tasks.length := by
        intro w k v hv hvnone
        by_cases hw : w = z
        · subst hw
          rw [task?_update_self] at hv
          have hlt := lt_length_of_getElem? hv
          have hge : (s.hosts w).tasks.length ≤ k := List.getElem?_eq_none_iff.mp hvnone
          have hle := hm.length_tasks_le
          exact ⟨rfl, by omega⟩
        · rw [task?_update_of_ne hw] at hv
          rw [hv] at hvnone
          cases hvnone
      obtain ⟨rfl, rfl⟩ := hnew_at ht hnone
      obtain ⟨rfl, rfl⟩ := hnew_at ht' hnone'
      exact ⟨rfl, rfl⟩
    | lose z msg hmem =>
      rw [show s.task? x i = some t from ht] at hnone
      cases hnone

/-- A `Replicate` call keeps its request, so the conflict checks at its host always see it. -/
private theorem SystemInv.step_requests (hi : SystemInv c s) (hm : SystemMove c s a s')
    {x : PeerName} {i : Nat} {t' : Task} (ht' : s'.task? x i = some t')
    (hrep : t'.goroutine.isReplicate = true) :
    t'.trans.initiatorName = x ∧ ∃ r, t'.trans.request = some r ∧ r.metadata.isSome := by
  rcases hi.replicate_cases hm ht' hrep with ⟨t, ht, hext, hrept⟩ | ⟨-, -, hreq⟩
  · have htids := ((hi.step_hosts hm x).2.tasks i t' ht').tids
    obtain ⟨hreq, hname⟩ := hi.request_stable hm ht ht' hext hrept htids
    rw [hreq, hname]
    exact hi.requests ht hrept
  · exact hreq

/-- The votes are verdicts of `Mirror.Consult`, or conflicts found after an `ACK`. The network
admits only verdicts as answers of the mirror. The conflict check is made after an `ACK` only, and
replaces it when it finds a conflict. -/
private theorem SystemInv.step_verdicts (hi : SystemInv c s) (hm : SystemMove c s a s')
    {x : PeerName} {i : Nat} {t' : Task} (ht' : s'.task? x i = some t') {b : Ballot}
    (hb : b ∈ t'.votes) :
    b.verdict.IsVerdict ∧ (b.conflict = true → b.verdict.type = .ack) := by
  rcases hm.change ht' with ht | ⟨e, sent, rfl, hx, ha, hlog, hchange⟩
  · exact hi.verdicts ht b hb
  · generalize ht : s.task? x i = old at hchange
    cases hchange with
    | same e sent t => exact hi.verdicts ht b hb
    | call tid request hfresh => simp [Task.votes, Goroutine.vote?] at hb
    | join msg t hlookup => exact hi.verdicts ht b hb
    | spawn msg hlookup => simp [Task.votes, Goroutine.vote?] at hb
    | notify msg t hl hr =>
      refine hi.verdicts ht b ?_
      unfold Task.notified at hb
      split at hb
      · exact List.mem_append_left _ (by simpa [Task.votes, Goroutine.vote?] using hb)
      · exact hb
    | move input t m hmove =>
      -- Only `Consult` and the conflict check bring a vote about.
      have hballots : b ∈ t.ballots →
          b.verdict.IsVerdict ∧ (b.conflict = true → b.verdict.type = .ack) :=
        fun hbt => hi.verdicts ht b (List.mem_append_left _ hbt)
      cases hmove with
      | reject msg request response hg hne =>
        rcases List.mem_append.mp hb with hb | hb
        · exact hballots hb
        · obtain rfl : b = ⟨request, response, false⟩ := by
            simpa [Task.goto, Goroutine.vote?] using hb
          exact ⟨by simpa [System.admits] using ha, by simp⟩
      | detect msg request verdict conflict hg hc =>
        rcases List.mem_append.mp hb with hb | hb
        · exact hballots hb
        · obtain rfl : b = ⟨request, verdict, conflict⟩ := by
            simpa [Task.goto, Goroutine.vote?] using hb
          have hpoint := (hi.taskInv ht).point
          rw [hg] at hpoint
          obtain ⟨-, -, -, -, hack⟩ := hpoint
          exact ⟨.inl hack, fun _ => hack⟩
      | respond msg ballot result hg =>
        refine hi.verdicts ht b ?_
        simpa [Task.votes, hg, Goroutine.vote?] using hb
      | broadcast message result hg =>
        exact hballots (by simpa [Task.votes, Task.goto] using hb)
      | _ => exact hballots (by simpa [Task.votes, Task.goto, Goroutine.vote?] using hb)

/-- `listen` creates a transaction only with a message for it, so a handler always has one. -/
private theorem SystemInv.step_gathered (hi : SystemInv c s) (hm : SystemMove c s a s')
    {x : PeerName} {i : Nat} {t' : Task} (ht' : s'.task? x i = some t')
    (hrep : t'.goroutine.isReplicate = false) : t'.inbox ≠ [] := by
  cases ht : s.task? x i with
  | some t =>
    obtain ⟨t'', ht'', hext⟩ := hm.extends.tasks ht
    obtain rfl : t' = t'' := Option.some.inj (ht'.symm.trans ht'')
    -- Messages are only ever added to an inbox.
    intro hnil
    exact hi.gathered ht (hext.kind.symm.trans hrep) (List.prefix_nil.mp (hnil ▸ hext.inbox))
  | none =>
    rcases hm.change ht' with ht' | ⟨e, sent, rfl, hx, ha, hlog, hchange⟩
    · rw [ht] at ht'
      cases ht'
    · rw [ht] at hchange
      cases hchange with
      | call tid request hfresh => simp [Goroutine.isReplicate] at hrep
      | spawn msg hlookup => simp

/-- Every step keeps the invariant of the system, field by field. The fields are about the hosts,
the messages, the log and the ids. Most of them need one or two of the others, so they are proved
together, from the state before the step. -/
theorem SystemInv.step (hi : SystemInv c s) (hs : s.step c a = some s') : SystemInv c s' := by
  have hm := System.step_move hs
  exact {
    config := fun x => (hi.step_hosts hm x).1
    hosts := fun x => (hi.step_hosts hm x).2
    members := fun {x i t'} ht' => by
      rcases hm.change ht' with ht | ⟨e, sent, rfl, hx, -⟩
      · exact hi.members ht
      · exact hx
    wire := hi.step_wire hm
    keys := (hi.step_log hm).2
    accounted := (hi.step_log hm).1
    asked := hi.step_asked hm
    cast := fun ht b hb => hi.step_cast hm ht hb
    initiators := hi.step_initiators hm
    requests := hi.step_requests hm
    verdicts := fun ht b hb => hi.step_verdicts hm ht hb
    gathered := hi.step_gathered hm }

/-- The invariant holds in every state of every run, also with losses, timeouts and failed
broadcasts. -/
theorem Reachable.inv (h : Reachable c s) : SystemInv c s := by
  obtain ⟨clocks, hs⟩ := h
  exact hs.invariant (fun _ _ _ hstep hi => hi.step hstep) (.init c clocks)

end Step

end ReplicatedFs.P2p
