import ReplicatedFs.Proofs.P2p.AtomicCommit

/-!
# `ReplicatedFs.Proofs.P2p.NilRequest`: when `Mirror.Mirror` gets a nil request

A `Replicate` call deletes its transaction when it returns. A response that comes later makes
`listen` create the transaction again, and its handler counts responses only. When all of them
go there, the handler has as many messages as it has peers, its `ourResponse` is still the zero
value `ACK`, and it calls `Mirror.Mirror` with the nil request of the transaction
(`mirror_called_with_nil`).

`no_nil_request` shows that this is the only way: it needs a call that gives up before it has
taken any response, although its request reached every peer.
-/

set_option autoImplicit false

namespace ReplicatedFs.P2p

open ReplicatedFs.Protobuf
open Library

/-- The step ends a `Replicate` call whose request reached every peer before the call has taken
a response: its context is done, or every send of its broadcast reports an error. -/
def abandons (c : Cluster) (s : System) : Action → Bool
  | .host x (.task ref (.contextDone _)) =>
    (s.task? x ref).any fun t => t.goroutine.isReplicate ∧ t.taken = 0 ∧
      s.log.any fun e => messageKey e.msg = (x, t.trans.tid) ∧ ∀ p ∈ c.peers x, p ∈ e.reached
  | .host x (.task ref (.broadcast (.sent failed reached))) =>
    (s.task? x ref).any fun t => t.goroutine.isReplicate ∧
      ∀ p ∈ c.peers x, p ∈ failed ∧ p ∈ reached
  | _ => false

/-- The steps of runs in which no call is abandoned. -/
def System.stepPatient (c : Cluster) : System → Action → Option System :=
  restrict (System.step c) fun s a => !abandons c s a

section Entry
variable {c : Cluster} {s : System} {x : PeerName} {i : Nat} {t : Task}

/-- An entry of the log under the key of a `Replicate` call is its request. So the call got past its
conflict check, and if its broadcast was refused, nobody got the message. -/
theorem SystemInv.asked_of_entry (hi : SystemInv c s) (ht : s.task? x i = some t)
    (hrep : t.goroutine.isReplicate = true) {e : Sent} (he : e ∈ s.log)
    (hkey : messageKey e.msg = (x, t.trans.tid)) :
    t.goroutine.asked = true ∧
      ∀ reason, t.goroutine.result? = some (some (.refused reason)) → e.reached = [] := by
  obtain ⟨hname, htid⟩ : e.msg.peerName = x ∧ e.msg.tid = t.trans.tid := by
    simpa [messageKey] using hkey
  obtain ⟨-, -, j, u, hu, hutid, ⟨r, -, hurep, hasked, -, hrefused⟩ | ⟨b, hb, -⟩⟩ :=
    hi.accounted e he
  · obtain ⟨-, rfl⟩ := hi.initiators hu ht hurep hrep (hutid.trans htid)
    rw [hname] at hu
    obtain rfl : u = t := Option.some.inj (hu.symm.trans ht)
    exact ⟨hasked, hrefused⟩
  · -- A vote of the host on its own transaction, which there is not.
    rw [hname] at hu
    have := hi.no_ballot_at_initiator ht hrep hu (hutid.trans htid)
    simp [this] at hb

/-- The request of a call that has asked is in the log once and for all. -/
private theorem entry_stable {s' : System} (hi : SystemInv c s) (hi' : SystemInv c s')
    (hext : s.Extends s') (ht : s.task? x i = some t) (hasked : t.goroutine.asked = true)
    {e : Sent} (he : e ∈ s'.log) (hkey : messageKey e.msg = (x, t.trans.tid)) : e ∈ s.log := by
  obtain ⟨e', he', hkey', -⟩ := hi.asked ht hasked
  rwa [hi'.entry_unique he (hext.log.subset he') (hkey.trans hkey'.symm)]

end Entry

/-- A call that ended without taking a response did not reach every peer. -/
def Unabandoned (c : Cluster) (s : System) : Prop :=
  ∀ {x i t}, s.task? x i = some t → t.goroutine.isReplicate = true →
    t.goroutine.result?.isSome → t.taken = 0 →
    ∀ e ∈ s.log, messageKey e.msg = (x, t.trans.tid) → ∃ p ∈ c.peers x, p ∉ e.reached

section Step
variable {c : Cluster} {s s' : System} {a : Action}

/-- A call that ends in this step without a response, and is not abandoned in it. Then its request
has not reached all the peers. There are three ways to end so early: a conflict, before anything is
sent, a broadcast that fails, and a context that ends. The guard excludes the last two when all the
peers were reached. -/
private theorem unabandoned_of_move (hi : SystemInv c s) (hi' : SystemInv c s')
    (hm : SystemMove c s a s') {x : PeerName} {i : Nat} {input : Input} {t : Task} {m : Move}
    {sent : Option Sent} (ha : a = .host x (.task i input)) (hpatient : abandons c s a = false)
    (hlog : s'.log = s.log ++ sent.toList) (hsent : sent = m.sent)
    (ht : s.task? x i = some t) (hmove : TaskMove (s.hosts x) t input m)
    (ht' : s'.task? x i = some m.task) (hrep : m.task.goroutine.isReplicate = true)
    (hnone : t.goroutine.result? = none) (hresult : m.task.goroutine.result?.isSome)
    (htaken : m.task.taken = 0) {e : Sent} (he : e ∈ s'.log)
    (hkey : messageKey e.msg = (x, m.task.trans.tid)) : ∃ p ∈ c.peers x, p ∉ e.reached := by
  obtain ⟨hasked, hrefused⟩ := hi'.asked_of_entry ht' hrep he hkey
  obtain ⟨p, hp⟩ := List.exists_mem_of_length_pos (c.length_peers_pos (hi.members ht))
  have hpoint := (hi.taskInv ht).point
  cases hmove with
  | conflict message hg hc => simp [Task.goto, Goroutine.asked] at hasked
  | broadcast message result hg =>
    cases result with
    | refused reason => exact ⟨p, hp, by simp [hrefused reason rfl]⟩
    | sent failed reached =>
      subst ha hsent
      -- The entry is the one of this broadcast, since the call had not asked before.
      have hnew : e.reached = (s.hosts x).peers.filter (· ∈ reached) := by
        rw [hlog] at he
        rcases List.mem_append.mp he with hold | hnew
        · have hasked' := (hi.asked_of_entry ht (by rw [hg]; rfl) hold hkey).1
          simp [hg, Goroutine.asked] at hasked'
        · obtain rfl : e = _ := by simpa using hnew
          rfl
      rw [(hi.config x).2] at hnew hresult
      have hfailed : ∀ q ∈ c.peers x, q ∈ failed := by
        rcases afterBroadcast_cases (c.peers x) (.sent failed reached) with
          ⟨_, hrefused, -⟩ | ⟨_, _, _, hsent, hall, -⟩ | ⟨_, _, hafter⟩
        · cases hrefused
        · cases hsent
          exact hall
        · simp [Task.goto, hafter, Goroutine.result?] at hresult
      have hnot : ¬ ∀ q ∈ c.peers x, q ∈ failed ∧ q ∈ reached := by
        intro hall
        simp only [abandons, ht, Option.any_some, decide_eq_false_iff_not] at hpatient
        exact hpatient ⟨by rw [hg]; rfl, hall⟩
      push Not at hnot
      obtain ⟨q, hq, hqreached⟩ := hnot
      exact ⟨q, hq, by simp [hnew, hqreached (hfailed q hq)]⟩
  | giveUp expected failed err hg hlt =>
    subst ha
    have hold : e ∈ s.log :=
      entry_stable hi hi' hm.extends ht (by simp [hg, Goroutine.asked]) he hkey
    by_contra hall
    push Not at hall
    simp only [abandons, ht, Option.any_some, decide_eq_false_iff_not] at hpatient
    exact hpatient ⟨by rw [hg]; rfl, htaken,
      List.any_eq_true.mpr ⟨e, hold, decide_eq_true ⟨hkey, hall⟩⟩⟩
  | sendError expected failed hg hle hf =>
    rw [hg] at hpoint
    have hpos := hpoint.2.2.2 hf
    simp only [Task.goto] at htaken
    omega
  | process expected increment result hg hle hp =>
    rw [hg] at hpoint
    have hexp := hpoint.2.2.1 rfl
    have hpos := c.length_peers_pos (hi.members ht)
    simp only [Task.goto] at htaken
    omega
  | depart result hg => simp [hg, Goroutine.result?] at hnone
  | pass message hg hc => simp [Task.goto, Goroutine.result?] at hresult
  | _ => simp [Task.goto, Goroutine.isReplicate] at hrep

/-- Every step that abandons no call keeps `Unabandoned`. A call that has ended before does not
change any more, and its entry of the log does not either. A call that ends in this step is covered
by the lemma above. -/
private theorem Unabandoned.step (hi : SystemInv c s) (hu : Unabandoned c s)
    (hpatient : abandons c s a = false) (hs : s.step c a = some s') : Unabandoned c s' := by
  have hi' := hi.step hs
  have hm := System.step_move hs
  intro x i t' ht' hrep hresult htaken e he hkey
  -- A call that had ended before the step is as it was.
  have hold : ∀ {t : Task}, s.task? x i = some t → t.goroutine.result?.isSome →
      ∃ p ∈ c.peers x, p ∉ e.reached := by
    intro t ht hres
    obtain ⟨t'', ht'', hext⟩ := hm.extends.tasks ht
    obtain rfl : t' = t'' := Option.some.inj (ht'.symm.trans ht'')
    have hrept := hext.kind.symm.trans hrep
    have hasked' := (hi'.asked_of_entry ht' hrep he hkey).1
    have hasked : t.goroutine.asked = true := by
      obtain ⟨r, hr⟩ := Option.isSome_iff_exists.mp hres
      rcases result?_eq_some.mp hr with hg | hg <;>
        rcases result?_eq_some.mp (hext.result r hr) with hg' | hg' <;>
        rw [hg'] at hasked' <;> rw [hg] <;> exact hasked'
    have hkey' : messageKey e.msg = (x, t.trans.tid) := hext.tid ▸ hkey
    exact hu ht hrept hres (Nat.le_zero.mp (htaken ▸ hext.taken)) e
      (entry_stable hi hi' hm.extends ht hasked he hkey') hkey'
  rcases hm.change ht' with ht | ⟨ev, sent, ha, hx, hadmits, hlog, hchange⟩
  · exact hold ht hresult
  · generalize ht : s.task? x i = old at hchange
    cases hchange with
    | same ev sent t => exact hold ht hresult
    | call tid request hfresh => simp [Goroutine.result?] at hresult
    | join msg t hlookup => exact hold ht hresult
    | spawn msg hlookup => simp [Goroutine.isReplicate] at hrep
    | notify msg t hl hr =>
      refine hold ht ?_
      unfold Task.notified at hresult
      split at hresult
      · simp [Goroutine.result?] at hresult
      · exact hresult
    | move input t m hmove =>
      cases hres : t.goroutine.result? with
      | some r => exact hold ht (by simp [hres])
      | none =>
        exact unabandoned_of_move hi hi' hm ha hpatient hlog rfl ht hmove ht' hrep hres hresult
          htaken he hkey

end Step

section Recreated
variable {c : Cluster} {s : System} {x : PeerName} {i : Nat} {t' : Task}

/-- A handler that calls `Mirror.Mirror` with a nil request runs at the initiator, and every
peer has voted. -/
theorem SystemInv.initiator_of_nil (hi : SystemInv c s) (ht' : s.task? x i = some t')
    (hg : t'.goroutine = .handle (.mirror none)) :
    t'.taken = (c.peers x).length ∧
      ∃ j t, s.task? x j = some t ∧ t.goroutine.isReplicate = true ∧
        t.trans.tid = t'.trans.tid ∧ ∀ y ∈ c.peers x, ∃ b, s.Voted t.trans.tid y b := by
  obtain ⟨htaken, -, -, ms, hseen, -, hreq⟩ :=
    hi.decided_of_mirrorCall ht' (by rw [hg]; rfl : t'.goroutine.mirrorCall? = some none)
  have hnone : ∀ m ∈ t'.seen, m.getRequest = none := by
    have hnil : requestsOf ms = [] := List.getLast?_eq_none_iff.mp hreq.symm
    rw [requestsOf, List.filterMap_eq_nil_iff] at hnil
    exact fun m hm => hnil m (hseen.subset hm)
  -- Some message is there, so some host is the initiator. It is this one.
  obtain ⟨y, hy⟩ := List.exists_mem_of_length_pos (c.length_peers_pos (hi.members ht'))
  obtain ⟨m, hm, -⟩ := hi.full ht' htaken hy
  obtain ⟨p, j, t, ht, htid, hrep⟩ :=
    hi.initiator (mem_arrived_of_inbox ht' (t'.seen_subset m hm))
  rw [(hi.taskInv ht').tids m (t'.seen_subset m hm)] at htid
  obtain rfl : p = x := by
    by_contra hne
    obtain ⟨m', hm', -, hr⟩ := hi.full_request ht' htaken ht hrep htid hne
    obtain ⟨-, r, hrequest, -⟩ := hi.requests ht hrep
    rw [hnone m' hm', hrequest] at hr
    cases hr
  refine ⟨htaken, j, t, ht, hrep, htid, fun z hz => ?_⟩
  obtain ⟨b, hb, -⟩ :=
    hi.full_votes ht' htaken ht hrep htid hz (Cluster.mem_peers.mp hz).2
  exact ⟨b, htid ▸ hb⟩

/-- The call whose transaction was re-created, with all responses going to the new one, has ended
and has taken none. The handler that would mirror nil has taken a message of each peer. None of them
is the request, so it is at the initiator, and the call itself got no response. -/
private theorem SystemInv.call_of_nil (hi : SystemInv c s) (ht' : s.task? x i = some t')
    (hg : t'.goroutine = .handle (.mirror none)) (htaken : t'.taken = (c.peers x).length)
    {j : Nat} {t : Task} (ht : s.task? x j = some t) (hrep : t.goroutine.isReplicate = true)
    (htid : t.trans.tid = t'.trans.tid) :
    t.goroutine.result?.isSome ∧ t.taken = 0 := by
  have hij : i ≠ j := by
    rintro rfl
    obtain rfl : t = t' := Option.some.inj (ht.symm.trans ht')
    simp [hg, Goroutine.isReplicate] at hrep
  constructor
  · -- The map points to the new transaction, so the old one was deleted.
    have hlookup : (s.hosts x).ts.lookup t'.trans.tid = some i :=
      ((hi.hosts x).table i t' ht').mp (by rw [hg]; rfl)
    have hdead : t.goroutine.alive ≠ true := by
      intro halive
      have := ((hi.hosts x).table j t ht).mp halive
      rw [htid, hlookup] at this
      exact hij (Option.some.inj this)
    cases hgt : t.goroutine with
    | handle pc => simp [hgt, Goroutine.isReplicate] at hrep
    | replicate pc =>
      rw [hgt] at hdead
      cases pc with
      | returned r => rfl
      | _ => exact absurd rfl hdead
  · -- A message it had taken would be one that the new handler has taken too.
    have hpending := (hi.taskInv ht).pending
    cases hbox : t.inbox with
    | nil =>
      rw [hbox] at hpending
      simp only [List.length_nil] at hpending
      omega
    | cons m ms =>
      have hm : m ∈ t.inbox := by simp [hbox]
      obtain ⟨-, -, -, -, hpeer⟩ := hi.sent_of_arrived (mem_arrived_of_inbox ht hm)
      obtain ⟨m', hm', hname⟩ := hi.full ht' htaken hpeer
      have hmem' := t'.seen_subset m' hm'
      have hkey : messageKey m' = messageKey m := by
        simp [messageKey, hname, (hi.taskInv ht').tids m' hmem', (hi.taskInv ht).tids m hm, htid]
      have hnodup := hi.nodup_arrived x
      rw [System.arrived, List.map_append] at hnodup
      exact absurd (flatMap_key_unique (List.Nodup.of_append_left hnodup) ht' ht hmem' hm hkey)
        hij

end Recreated

/-- In a run in which no call is abandoned, no handler calls `Mirror.Mirror` with a nil request. A
handler ends its loop after one message of each of its peers. When it is not at the initiator, one
of these is the request. At the initiator a handler comes up only for the responses to a call that
has ended too early. -/
theorem no_nil_request {c : Cluster} {clocks : PeerName → UInt64} {s : System}
    (hs : Reaches (System.stepPatient c) (System.init c clocks) s) {x : PeerName} {i : Nat}
    {t : Task} (ht : s.task? x i = some t) : t.goroutine ≠ .handle (.mirror none) := by
  have hinv : SystemInv c s ∧ Unabandoned c s := by
    refine hs.invariant (I := fun s => SystemInv c s ∧ Unabandoned c s) ?_
      ⟨.init c clocks, fun ht => by simp [System.task?, System.init] at ht⟩
    rintro s a s' hstep ⟨hi, hu⟩
    obtain ⟨hpatient, hstep⟩ := restrict_eq_some.mp hstep
    exact ⟨hi.step hstep, hu.step hi (by simpa using hpatient) hstep⟩
  obtain ⟨hi, hu⟩ := hinv
  intro hg
  obtain ⟨htaken, j, u, hut, hrep, htid, hvotes⟩ := hi.initiator_of_nil ht hg
  obtain ⟨hresult, hzero⟩ := hi.call_of_nil ht hg htaken hut hrep htid
  -- The request is in the log. It misses some peer, but every peer has voted on it.
  obtain ⟨y, hy⟩ := List.exists_mem_of_length_pos (c.length_peers_pos (hi.members ht))
  obtain ⟨b, hb⟩ := hvotes y hy
  obtain ⟨e, he, hkey, -⟩ := hi.asked hut (hi.call_of_voted hut hrep hb).1
  obtain ⟨p, hp, hmiss⟩ := hu hut hrep hresult hzero e he hkey
  obtain ⟨d, k, v, hv, hvtid, hd⟩ := hvotes p hp
  obtain ⟨m, hm, hr, hmtid⟩ := hi.ballot_request hv hd
  have harrived := mem_arrived_of_inbox hv hm
  obtain ⟨e', he', rfl, hreached, -⟩ := hi.sent_of_arrived harrived
  obtain ⟨l, w, hw, hwtid, hwrep, -⟩ := hi.request_source harrived hr
  have hname := (hi.initiators hw hut hwrep hrep (by rw [hwtid, hmtid, hvtid])).1
  have hkey' : messageKey e'.msg = (x, u.trans.tid) := by
    simp [messageKey, hname, hmtid, hvtid]
  rw [hi.entry_unique he' he (hkey'.trans hkey.symm)] at hreached
  exact hmiss hreached

/-- The response of `b` comes after the call at `a` gave up, and `a` mirrors nothing. -/
def lateResponseRun : List Action :=
  calls "a" 0 "t" (mkdirRequest "p" 0) ["b"] ++
    hears "b" (newRequestMessage "t" "a" (mkdirRequest "p" 0)) ++ votes "b" 0 ["a"] ++
    [.host "a" (.task 0 (.contextDone .deadlineExceeded)), .host "a" (.task 0 .run)] ++
    hears "a" (newResponseMessage "t" "b" ack) ++ [.host "a" (.task 1 .run)]

/-- A handler calls `Mirror.Mirror` with a nil request, in a transaction that a late response
re-created, and the next step of the host is a nil dereference. -/
theorem mirror_called_with_nil :
    ∃ s s', Reachable duo s ∧
      (∃ t, s.task? "a" 1 = some t ∧ t.goroutine = .handle (.mirror none)) ∧
      s.step duo (.host "a" (.task 1 .run)) = some s' ∧
      (s'.hosts "a").panicked = some .nilDereference := by
  obtain ⟨s, hs, hobs⟩ := Reachable.of_run duo (fun _ => 0) lateResponseRun
    (fun s => ((s.task? "a" 1).any fun t => t.goroutine = .handle (.mirror none)) &&
      (s.step duo (.host "a" (.task 1 .run))).any fun s' =>
        (s'.hosts "a").panicked = some .nilDereference) (by decide)
  simp only [Bool.and_eq_true, Option.any_eq_true, decide_eq_true_eq] at hobs
  obtain ⟨ht, s', hstep, hpanic⟩ := hobs
  exact ⟨s, s', hs, ht, hstep, hpanic⟩

/-- A run without an abandoned call, at its end. The responder `b` mirrors a request that is
there. -/
theorem no_nil_request_complete_run :
    ∃ s, Reaches (System.stepPatient duo) (System.init duo fun _ => 0) s ∧
      ∃ t, s.task? "b" 0 = some t ∧ t.goroutine.mirrorCall?.isSome ∧
        t.goroutine ≠ .handle (.mirror none) := by
  obtain ⟨s, hs, hobs⟩ : ∃ s,
      Reaches (System.stepPatient duo) (System.init duo fun _ => 0) s ∧
        ((s.task? "b" 0).any fun t => t.goroutine.mirrorCall?.isSome) = true := by
    exact Reaches.of_any _ (calls "a" 0 "t" (mkdirRequest "p" 0) ["b"] ++
      hears "b" (newRequestMessage "t" "a" (mkdirRequest "p" 0)) ++ votes "b" 0 ["a"] ++
      [.host "b" (.task 0 .run)]) _ (by decide)
  simp only [Option.any_eq_true] at hobs
  obtain ⟨t, ht, hcall⟩ := hobs
  exact ⟨s, hs, t, ht, hcall, no_nil_request hs ht⟩

end ReplicatedFs.P2p
