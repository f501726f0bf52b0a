import ReplicatedFs.Proofs.P2p.FaultFree

/-!
# `ReplicatedFs.Proofs.P2p.Progress`: fault-free runs settle

Without new calls of `Replicate`, a fault-free run comes to an end, and it ends only when every
reader has returned.

* `settleStep_work`: every such step lowers `System.work`, the operations that are left. A
  request in flight is worth the vote it causes, and a vote is worth one message for each peer.
* `FaultFreeInv.finished_of_quiet`: in a state without such a step, every reader has returned
  and no message is in flight.
-/

set_option autoImplicit false

namespace ReplicatedFs.P2p

open ReplicatedFs.Protobuf
open Library

/-- The fault-free steps other than new calls. -/
def System.settleStep (c : Cluster) : System → Action → Option System :=
  restrict (System.stepFF c) fun _ a => !a.isCall

/-- Every reader has returned, and no message is in flight. -/
def System.Finished (s : System) : Prop :=
  (∀ x i t, s.task? x i = some t → t.goroutine.alive = false) ∧ s.inFlight = []

section Work

/-- The work that a message in flight stands for, with at most `n` peers. -/
def flightWork (n : Nat) (m : Message) : Nat := if m.getRequest.isSome then 5 * n + 8 else 5

/-- The work that the message stands for while `listen` waits for the reader. -/
def pendingWork (n : Nat) (m : Message) : Nat := if m.getRequest.isSome then 5 * n + 4 else 1

/-- The work that is left for a reader, without the messages it waits for. -/
def Goroutine.work (n : Nat) : Goroutine → Nat
  | .replicate (.check _) => n * (5 * n + 8) + 4
  | .replicate (.broadcast _) => n * (5 * n + 8) + 3
  | .replicate (.collect _ _) => 2
  | .replicate (.leave _) => 1
  | .replicate (.returned _) => 0
  | .handle (.await _) => 3
  | .handle (.consult _ _) => 5 * n + 6
  | .handle (.detect _ _ _) => 5 * n + 5
  | .handle (.respond _ _) => 5 * n + 4
  | .handle (.mirror _) => 2
  | .handle (.leave _) => 1
  | .handle (.ended _) => 0

/-- The work of all messages of a broadcast. -/
def sentWork (n : Nat) : Option Sent → Nat
  | none => 0
  | some b => b.reached.length * flightWork n b.msg

/-- The work that is left for a host. -/
def Host.work (n : Nat) (h : Host) : Nat :=
  (h.listen.map fun p => pendingWork n p.2).getD 0 +
    (h.tasks.map fun t => t.goroutine.work n).sum

/-- The work that is left for the system. -/
def System.work (c : Cluster) (s : System) : Nat :=
  (s.inFlight.map fun p => flightWork c.names.length p.2).sum +
    (c.names.map fun x => (s.hosts x).work c.names.length).sum

/-- A message that arrives goes on to the reader with less work, so that its arrival counts as
progress. -/
theorem flightWork_eq (n : Nat) (m : Message) : flightWork n m = pendingWork n m + 4 := by
  unfold flightWork pendingWork
  split <;> rfl

/-- A request is the message with the most work: every peer that gets it sends responses in turn. -/
theorem flightWork_le (n : Nat) (m : Message) : flightWork n m ≤ 5 * n + 8 := by
  unfold flightWork
  split <;> omega

variable {n : Nat} {h h' : Host}

/-- A broadcast to at most `n` peers. The weight of what it sends is bounded before it is known whom
it reaches. -/
private theorem reached_mul_le {result : Broadcast} (hn : h.peers.length ≤ n) {w k : Nat}
    (hw : w ≤ k) : (result.reached h.peers).length * w ≤ n * k := by
  have hlen : (result.reached h.peers).length ≤ h.peers.length := by
    cases result with
    | refused reason => exact Nat.zero_le _
    | sent failed reached => exact List.length_filter_le _ _
  exact Nat.mul_le_mul (hlen.trans hn) hw

/-- Every move of a reader lowers the work, with what it sends. A broadcast adds the work of one
message for each peer, and the work of the point before it allows for that. -/
private theorem TaskMove.work_lt {t : Task} {input : Input} {m : Move}
    (hm : TaskMove h t input m) (hn : h.peers.length ≤ n) :
    m.task.goroutine.work n + sentWork n m.sent < t.goroutine.work n := by
  cases hm with
  | broadcast message result hg =>
    have hsent : (result.reached h.peers).length * flightWork n message ≤ n * (5 * n + 8) :=
      reached_mul_le hn (flightWork_le n message)
    -- However the broadcast ends, little is left for the call itself.
    have hafter : (Goroutine.replicate (afterBroadcast h.peers result)).work n ≤ 2 := by
      rcases afterBroadcast_cases h.peers result with
        ⟨_, -, hafter⟩ | ⟨_, _, _, -, -, hafter⟩ | ⟨_, _, hafter⟩ <;>
        simp [hafter, Goroutine.work]
    rw [hg]
    change _ + (result.reached h.peers).length * flightWork n message < n * (5 * n + 8) + 3
    simp only [Task.goto]
    omega
  | respond msg ballot result hg =>
    have hsent : (result.reached h.peers).length * 5 ≤ n * 5 :=
      reached_mul_le hn (Nat.le_refl 5)
    rw [hg]
    change 3 + (result.reached h.peers).length * 5 < 5 * n + 4
    omega
  | _ =>
    rename_i hg
    simp_all [Task.goto, Goroutine.work, sentWork]

/-- Every step of a host other than a call lowers its work, with what it sends and without what it
receives. A message has its own weight while it is in flight, and the weight of a request covers all
that its handler will do and send. -/
theorem HostMove.work_lt {e : Event} {sent : Option Sent} (hm : HostMove h e h' sent)
    (hn : h.peers.length ≤ n) (hcall : ∀ tid request, e ≠ .replicate tid request)
    (hpanic : h'.panicked = none) :
    h'.work n + sentWork n sent < h.work n + (e.received.map (flightWork n)).getD 0 := by
  cases hm with
  | replicate tid request hfresh => exact absurd rfl (hcall tid request)
  | join msg ref hl hlookup =>
    -- The message moves from the network to the channel. No reader changes.
    have htasks : ((h.tasks.modify ref fun t =>
        { t with trans := t.trans.put msg, inbox := t.inbox ++ [msg] }).map
          fun t => t.goroutine.work n) = h.tasks.map fun t => t.goroutine.work n := by
      refine List.ext_getElem? fun i => ?_
      simp only [List.getElem?_map, List.getElem?_modify]
      cases h.tasks[i]? with
      | none => rfl
      | some t => by_cases hi : ref = i <;> simp [hi]
    simp only [Host.work, htasks, hl, Event.received, sentWork, Option.map_some,
      Option.map_none, Option.getD_some, Option.getD_none, flightWork_eq]
    omega
  | spawn msg hl hlookup =>
    simp only [Host.work, hl, Event.received, sentWork, Option.map_some, Option.map_none,
      Option.getD_some, Option.getD_none, flightWork_eq, List.map_append, List.sum_append,
      List.map_cons, List.map_nil, List.sum_cons, List.sum_nil, Goroutine.work]
    omega
  | notify ref msg t hl ht hr =>
    have hset := sum_map_set (b := t.notified msg) (g := fun t => t.goroutine.work n) ht
    have hnotified : (t.notified msg).goroutine.work n <
        t.goroutine.work n + pendingWork n msg := by
      unfold Task.notified pendingWork
      split
      · rename_i our request hg hreq
        simp only [hg, hreq, Goroutine.work, Option.isSome_some, if_true]
        omega
      · change t.goroutine.work n < _
        split <;> omega
    simp only [Host.work, hl, Event.received, sentWork, Option.map_some, Option.map_none,
      Option.getD_some, Option.getD_none]
    omega
  | task ref input t m ht hm =>
    have hset := sum_map_set (b := m.task) (g := fun t => t.goroutine.work n) ht
    have hmove := hm.work_lt hn
    simp only [Host.work, Host.apply, Event.received, Option.map_none, Option.getD_none]
    omega
  | panic ref input t p ht hp => cases hpanic

end Work

section Settle
variable {c : Cluster} {s s' : System} {a : Action}

/-- The work in flight after a step: what was received is taken out, and what was sent is added. The
message that is received has to be in flight, and this is what `admits` says. The equation is one of
sums, so the order does not matter. -/
theorem flightAfter_work {x : PeerName} {e : Event} (ha : s.admits c x e = true)
    (sent : Option Sent) (n : Nat) :
    ((s.flightAfter x e sent).map fun p => flightWork n p.2).sum +
        (e.received.map (flightWork n)).getD 0 =
      (s.inFlight.map fun p => flightWork n p.2).sum + sentWork n sent := by
  have hnew : ((sent.toList.flatMap fun b => b.reached.map fun y => (y, b.msg)).map
      fun p => flightWork n p.2).sum = sentWork n sent := by
    cases sent with
    | none => rfl
    | some b => simp [sentWork, Function.comp_def]
  cases e with
  | receive msg =>
    have hmem : (x, msg) ∈ s.inFlight := by simpa [System.admits] using ha
    -- One copy of the message is taken out of the network.
    have hperm : (s.inFlight.map fun p => flightWork n p.2).sum = flightWork n msg +
        ((s.inFlight.erase (x, msg)).map fun p => flightWork n p.2).sum := by
      simpa using ((List.perm_cons_erase hmem).map fun p => flightWork n p.2).sum_eq
    simp only [System.flightAfter, Event.received, Option.map_some, Option.getD_some,
      List.map_append, List.sum_append, hnew, hperm]
    omega
  | _ =>
    simp only [System.flightAfter, Event.received, Option.map_none, Option.getD_none,
      List.map_append, List.sum_append, hnew, Nat.add_zero]

/-- Every fault-free step other than a call lowers the work. So a run without new calls comes to an
end. What a host receives it takes over from the network, and a handler never has more to do than
the weight of its request. -/
theorem settleStep_work (hi : SystemInv c s) (hf : FaultFreeInv c s)
    (hs : s.settleStep c a = some s') : s'.work c < s.work c := by
  obtain ⟨hcall, hff⟩ := restrict_eq_some.mp hs
  have hrunning := (hf.step hi hff).running
  obtain ⟨hfree, hstep⟩ := restrict_eq_some.mp hff
  cases System.step_move hstep with
  | host x e h' sent hx ha hp hm =>
    have hn : (s.hosts x).peers.length ≤ c.names.length := by
      rw [(hi.config x).2]
      exact List.length_filter_le _ _
    have hhost := hm.work_lt hn (fun tid request he => by simp [he, Action.isCall] at hcall)
      (by simpa using hrunning x)
    have hflight := flightAfter_work ha sent c.names.length
    -- The host takes the work of the message over, and the work of the others stays.
    have hsum := sum_map_update c.nodup hx
      (f := fun y => (s.hosts y).work c.names.length)
      (g := fun y => (Function.update s.hosts x h' y).work c.names.length)
      (fun y _ hy => by simp [Function.update_of_ne hy])
    simp only [Function.update_self] at hsum
    simp only [System.work]
    omega
  | lose x msg hmem => cases hfree

/-- A reader that has not deleted its transaction waits for a message, or it can move. The inputs
that it needs are those of a fault-free run: a broadcast that reaches everyone, and answers of the
mirror. `Mirror.Mirror` with nil would panic, and this point is not reached without faults. -/
private theorem FaultFreeInv.ready (hf : FaultFreeInv c s) (hi : SystemInv c s) {x : PeerName}
    {i : Nat} {t : Task} (ht : s.task? x i = some t) (halive : t.goroutine.alive = true)
    (hwait : t.receiving (c.peers x).length = false) :
    ∃ input m, t.step (s.hosts x) input = some (.ok m) ∧
      s.admits c x (.task i input) = true ∧
      faultFree c s (.host x (.task i input)) = true := by
  have hfault := hf.faultless ht
  have hpeers := (hi.config x).2
  have hbroadcast : faultFree c s (.host x (.task i (reaching (c.peers x)))) = true := by
    simp [reaching, faultFree]
  cases hg : t.goroutine with
  | replicate pc =>
    rw [hg] at halive hfault
    cases pc with
    | check msg =>
      obtain ⟨b, hb⟩ := hi.check_ok ht (.inl hg)
      exact ⟨.run, _, by simp only [Task.step, hg, replicateStep, hb]; rfl, rfl, rfl⟩
    | broadcast msg =>
      exact ⟨reaching (c.peers x), _, by simp only [Task.step, hg, reaching, replicateStep]; rfl,
        rfl, hbroadcast⟩
    | collect expected failed =>
      obtain rfl : failed = [] := of_decide_eq_true hfault
      obtain ⟨v, hv⟩ := hi.process_ok ht
      simp only [Task.receiving, hg, decide_eq_false_iff_not] at hwait
      exact ⟨.run, _, by simp only [Task.step, hg, replicateStep, if_neg hwait, hv]; rfl, rfl,
        rfl⟩
    | leave r => exact ⟨.run, _, by simp only [Task.step, hg, replicateStep]; rfl, rfl, rfl⟩
    | returned r => cases halive
  | handle pc =>
    rw [hg] at halive
    cases pc with
    | await our =>
      simp only [Task.receiving, hg, decide_eq_false_iff_not, ← hpeers] at hwait
      cases hp : permitted our t.trans.responses with
      | true =>
        exact ⟨.run, _, by simp only [Task.step, hg, handleStep, if_neg hwait, hp]; rfl, rfl,
          rfl⟩
      | false =>
        exact ⟨.run, _, by simp only [Task.step, hg, handleStep, if_neg hwait, hp]; rfl, rfl,
          rfl⟩
    | consult msg request =>
      exact ⟨.consulted ack, _, by simp only [Task.step, hg, handleStep]; rfl, rfl, rfl⟩
    | detect msg request verdict =>
      obtain ⟨b, hb⟩ := hi.check_ok ht (.inr ⟨request, verdict, hg⟩)
      exact ⟨.run, _, by simp only [Task.step, hg, handleStep, hb]; rfl, rfl, rfl⟩
    | respond msg ballot =>
      exact ⟨reaching (c.peers x), _, by simp only [Task.step, hg, reaching, handleStep]; rfl,
        rfl, hbroadcast⟩
    | mirror request =>
      cases request with
      | none =>
        -- The handler would be at the initiator.
        obtain ⟨-, j, u, hu, hurep, hutid, -⟩ := hi.initiator_of_nil ht hg
        exact absurd hutid (hf.apart hu ht hurep (by rw [hg]; rfl))
      | some request =>
        exact ⟨.mirrored none, _, by simp only [Task.step, hg, handleStep]; rfl, rfl, rfl⟩
    | leave r => exact ⟨.run, _, by simp only [Task.step, hg, handleStep]; rfl, rfl, rfl⟩
    | ended r => cases halive

/-- No fault-free step other than a call is possible. -/
def System.Quiet (c : Cluster) (s : System) : Prop := ∀ a, s.settleStep c a = none

/-- A step of a host that is possible contradicts quiet. The lemmas below use it to rule out a state
in which something is left to do. -/
private theorem System.Quiet.elim (hq : s.Quiet c) {x : PeerName}
    (hx : x ∈ c.names) {e : Event} (hcall : (Action.host x e).isCall = false)
    (ha : s.admits c x e = true) (hfree : faultFree c s (.host x e) = true) {h' : Host}
    {sent : Option Sent} (hstep : (s.hosts x).step e = some (h', sent)) : False := by
  have hnone := hq (.host x e)
  simp [System.settleStep, restrict, System.stepFF, System.step, hcall, hfree, hx, ha,
    hstep] at hnone

/-- In a quiet state every reader that has not returned waits for a message. -/
private theorem FaultFreeInv.receiving_of_quiet (hf : FaultFreeInv c s) (hi : SystemInv c s)
    (hq : s.Quiet c) {x : PeerName} {i : Nat} {t : Task} (ht : s.task? x i = some t)
    (halive : t.goroutine.alive = true) : t.receiving (c.peers x).length = true := by
  by_contra hwait
  obtain ⟨input, m, hstep, ha, hfree⟩ := hf.ready hi ht halive (by simpa using hwait)
  have htask : (s.hosts x).tasks[i]? = some t := ht
  have hhost : (s.hosts x).step (.task i input) = some ((s.hosts x).apply i m, m.sent) := by
    simp [Host.step, hf.running x, htask, hstep]
  exact hq.elim (hi.members ht) rfl ha hfree hhost

/-- A transaction gathers at most one message of each peer. So a reader waits for no more than it
can get. -/
private theorem SystemInv.length_inbox_le (hi : SystemInv c s) {x : PeerName} {i : Nat}
    {t : Task} (ht : s.task? x i = some t) : t.inbox.length ≤ (c.peers x).length := by
  simpa using
    (List.subperm_of_subset (hi.nodup_senders ht) (hi.sender_mem_peers ht)).length_le

/-- In a quiet state no `listen` waits for a reader, because the reader would be at its receive, and
the handover is a step. A reader that has returned had a message of every peer already, and there is
no further one for `listen` to wait with. -/
private theorem FaultFreeInv.listen_of_quiet (hf : FaultFreeInv c s) (hi : SystemInv c s)
    (hq : s.Quiet c) (x : PeerName) : (s.hosts x).listen = none := by
  cases hl : (s.hosts x).listen with
  | none => rfl
  | some p =>
    obtain ⟨ref, msg⟩ := p
    obtain ⟨t, ht, hlast⟩ := (hi.hosts x).listening ref msg hl
    have htask : s.task? x ref = some t := ht
    have hinv := hi.taskInv htask
    have hblocked : (s.hosts x).blocks ref = true := by simp [Host.blocks, hl]
    have hpending := hinv.pending
    simp only [hblocked, Bool.toNat_true] at hpending
    have hle := hi.length_inbox_le htask
    have hmem : msg ∈ t.inbox := List.mem_of_getLast? hlast
    exfalso
    cases halive : t.goroutine.alive with
    | true =>
      -- The reader waits, so it can take the message.
      have hr := hf.receiving_of_quiet hi hq htask halive
      rw [← (hi.config x).2] at hr
      have hhost : (s.hosts x).step .notify = some ({ s.hosts x with
          tasks := (s.hosts x).tasks.set ref (t.notified msg), listen := none }, none) := by
        simp [Host.step, hf.running x, hl, ht, hr]
      exact hq.elim (hi.members htask) rfl rfl rfl hhost
    | false =>
      -- The reader has returned, so it had a message of every peer before this one.
      cases hg : t.goroutine with
      | replicate pc =>
        have hrep : t.goroutine.isReplicate = true := by rw [hg]; rfl
        have hasked := hi.asked_of_arrived htask hrep (mem_arrived_of_inbox htask hmem)
          (hinv.tids msg hmem)
        rw [hg] at halive hasked
        cases pc with
        | returned r =>
          have hfull := hf.call_full hi htask (r := r) (by rw [hg]; rfl)
            (by simpa [Goroutine.asked] using hasked)
          omega
        | _ => cases halive
      | handle pc =>
        rw [hg] at halive
        cases pc with
        | ended r =>
          have hfull := hf.handler_full hi htask (r := r) (by rw [hg]; rfl)
          omega
        | _ => cases halive

/-- In a quiet state no message is in flight, because `listen` is free and could receive it. -/
private theorem FaultFreeInv.flight_of_quiet (hf : FaultFreeInv c s) (hi : SystemInv c s)
    (hq : s.Quiet c) : s.inFlight = [] := by
  rw [List.eq_nil_iff_forall_not_mem]
  rintro ⟨y, m⟩ hmem
  have harrived : m ∈ s.arrived y :=
    List.mem_append_right _ (List.mem_map.mpr ⟨(y, m), by simpa using hmem, rfl⟩)
  obtain ⟨e, he, -, hreached, -⟩ := hi.sent_of_arrived harrived
  have hy : y ∈ c.names := by
    obtain ⟨-, hsub, -⟩ := hi.accounted e he
    exact (Cluster.mem_peers.mp (hsub.subset hreached)).1
  have hhost : (s.hosts y).step (.receive m) = some ((s.hosts y).deliver m, none) := by
    simp [Host.step, hf.running y, hf.listen_of_quiet hi hq y]
  exact hq.elim hy rfl (by simpa [System.admits] using hmem) rfl hhost

/-- In a quiet state, what was sent to a host is in a transaction of the host, and its reader
has taken it. -/
private theorem FaultFreeInv.gathered_of_quiet (hf : FaultFreeInv c s) (hi : SystemInv c s)
    (hq : s.Quiet c) {e : Sent} (he : e ∈ s.log) {y : PeerName}
    (hy : y ∈ c.peers e.msg.peerName) :
    ∃ j u, s.task? y j = some u ∧ e.msg ∈ u.inbox ∧ u.trans.tid = e.msg.tid := by
  have hsent : e.msg ∈ s.sentTo y := mem_copiesTo.mpr ⟨e, he, hf.reached e he y hy, rfl⟩
  have harrived := (hf.delivered y).symm.subset hsent
  rw [System.arrived, hf.flight_of_quiet hi hq] at harrived
  obtain ⟨u, hu, hm⟩ := List.mem_flatMap.mp (by simpa using harrived)
  obtain ⟨j, hj⟩ := List.mem_iff_getElem?.mp hu
  exact ⟨j, u, hj, hm, ((hi.taskInv hj).tids _ hm).symm⟩

/-- In a quiet state a reader has taken all its messages. What is not taken is what `listen` waits
with. -/
private theorem FaultFreeInv.taken_of_quiet (hf : FaultFreeInv c s) (hi : SystemInv c s)
    (hq : s.Quiet c) {x : PeerName} {i : Nat} {t : Task} (ht : s.task? x i = some t) :
    t.inbox.length = t.taken := by
  have hpending := (hi.taskInv ht).pending
  simpa [Host.blocks, hf.listen_of_quiet hi hq x] using hpending

/-- A reader that has a message of every peer, and has taken all its messages, is full. -/
private theorem length_le_taken {x : PeerName} {t : Task} (htaken : t.inbox.length = t.taken)
    (hall : ∀ y ∈ c.peers x, ∃ m ∈ t.inbox, m.peerName = y) :
    (c.peers x).length ≤ t.taken := by
  have hsub : ∀ y ∈ c.peers x, y ∈ t.inbox.map Message.peerName := fun y hy =>
    List.mem_map.mpr (hall y hy)
  have hle := (List.subperm_of_subset (c.nodup_peers x) hsub).length_le
  rw [← htaken]
  simpa using hle

/-- In a quiet state a host that was sent a request has voted on it. The request has been put into a
transaction of the host, and taken by its handler. The handler cannot be in the middle of its vote,
as it could move there. -/
private theorem FaultFreeInv.voted_of_quiet (hf : FaultFreeInv c s) (hi : SystemInv c s)
    (hq : s.Quiet c) {x : PeerName} {i : Nat} {t : Task} (ht : s.task? x i = some t)
    (hasked : t.goroutine.asked = true) {y : PeerName} (hy : y ∈ c.peers x) :
    ∃ b, s.Voted t.trans.tid y b := by
  obtain ⟨e, he, hkey, hreq⟩ := hi.asked ht hasked
  obtain ⟨hname, htid⟩ : e.msg.peerName = x ∧ e.msg.tid = t.trans.tid := by
    simpa [messageKey] using hkey
  obtain ⟨j, u, hu, hm, hutid⟩ := hf.gathered_of_quiet hi hq he (hname.symm ▸ hy)
  obtain ⟨r, hr⟩ := Option.isSome_iff_exists.mp hreq
  -- The handler has taken the request, and it is not in the middle of its vote.
  have hseen : u.seen = u.inbox := by
    rw [Task.seen, ← hf.taken_of_quiet hi hq hu, List.take_length]
  have hpoint := (hi.taskInv hu).point
  have hwait : u.goroutine.alive = true → u.receiving (c.peers y).length = true :=
    fun halive => hf.receiving_of_quiet hi hq hu halive
  have hrmem : r ∈ requestsOf u.seen := by
    rw [hseen]
    exact mem_requestsOf.mpr ⟨e.msg, hm, hr⟩
  cases hg : u.goroutine with
  | replicate pc =>
    have := hi.no_request hu (by rw [hg]; rfl) (mem_arrived_of_inbox hu hm) hutid.symm
    simp [this] at hr
  | handle pc =>
    rw [hg] at hpoint
    have hidle : pc.inProgress = [] := by
      cases pc with
      | consult msg request | detect msg request verdict | respond msg ballot =>
        simp [Task.receiving, hg, Goroutine.alive] at hwait
      | _ => rfl
    rw [hpoint.2.1, hidle, List.append_nil] at hrmem
    obtain ⟨b, hb, -⟩ := List.mem_map.mp hrmem
    exact ⟨b, j, u, hu, hutid.trans htid, hb⟩

/-- In a quiet state the vote of a host is in a transaction of every other host. -/
private theorem FaultFreeInv.vote_gathered (hf : FaultFreeInv c s) (hi : SystemInv c s)
    (hq : s.Quiet c) {tid : TransactionID} {x y : PeerName} {b : Ballot}
    (hb : s.Voted tid y b) (hx : x ∈ c.peers y) :
    ∃ j u, s.task? x j = some u ∧ u.trans.tid = tid ∧ ∃ m ∈ u.inbox, m.peerName = y := by
  obtain ⟨k, v, hv, rfl, hmem⟩ := hb
  obtain ⟨e, he, hmsg⟩ := hi.cast hv b hmem
  obtain ⟨j, u, hu, hm, hutid⟩ := hf.gathered_of_quiet hi hq he (by rw [hmsg]; exact hx)
  rw [hmsg] at hm hutid
  exact ⟨j, u, hu, hutid, _, hm, rfl⟩

/-- In a quiet state every call has returned. If it is alive, it waits for responses. But every peer
has voted, and its vote has arrived and was taken, so there are as many as the call waits for. -/
private theorem FaultFreeInv.call_of_quiet (hf : FaultFreeInv c s) (hi : SystemInv c s)
    (hq : s.Quiet c) {x : PeerName} {i : Nat} {t : Task} (ht : s.task? x i = some t)
    (hrep : t.goroutine.isReplicate = true) : t.goroutine.alive = false := by
  by_contra halive
  have hwait := hf.receiving_of_quiet hi hq ht (by simpa using halive)
  cases hg : t.goroutine with
  | handle pc => simp [hg, Goroutine.isReplicate] at hrep
  | replicate pc =>
    cases pc with
    | collect expected failed =>
      have hpoint := (hi.taskInv ht).point
      have hfault := hf.faultless ht
      rw [hg] at hpoint hfault
      have hexp := hpoint.2.2.1 (of_decide_eq_true hfault)
      simp only [Task.receiving, hg, decide_eq_true_eq] at hwait
      -- Every peer has voted, and its vote is here.
      have hle : (c.peers x).length ≤ t.taken := by
        refine length_le_taken (hf.taken_of_quiet hi hq ht) fun y hy => ?_
        obtain ⟨b, hb⟩ := hf.voted_of_quiet hi hq ht (by rw [hg]; rfl) hy
        have hx : x ∈ c.peers y := Cluster.mem_peers.mpr
          ⟨hi.members ht, Ne.symm (Cluster.mem_peers.mp hy).2⟩
        obtain ⟨j, u, hu, hutid, hm⟩ := hf.vote_gathered hi hq hb hx
        cases hurep : u.goroutine.isReplicate with
        | false => exact absurd hutid.symm (hf.apart ht hu hrep hurep)
        | true =>
          obtain ⟨-, rfl⟩ := hi.initiators hu ht hurep hrep hutid
          obtain rfl : u = t := Option.some.inj (hu.symm.trans ht)
          exact hm
      omega
    | _ => simp [Task.receiving, hg] at hwait

/-- In a fault-free run a host has one handler for a transaction. Of two handlers the first one has
ended before the second one was made. It had taken a message of every peer then, and none is left
that could have made the second. -/
theorem FaultFreeInv.handler_unique (hf : FaultFreeInv c s) (hi : SystemInv c s) {x : PeerName}
    {i j : Nat} {t u : Task} (ht : s.task? x i = some t) (hu : s.task? x j = some u)
    (hrep : t.goroutine.isReplicate = false) (hurep : u.goroutine.isReplicate = false)
    (htid : t.trans.tid = u.trans.tid) : i = j := by
  -- Of two handlers one has returned, and it has all messages of the transaction.
  have hdead : ∀ {k l : Nat} {v w : Task}, s.task? x k = some v → s.task? x l = some w →
      v.goroutine.isReplicate = false → w.goroutine.isReplicate = false →
      v.trans.tid = w.trans.tid → v.goroutine.alive = false → k = l := by
    intro k l v w hv hw hvrep hwrep hvw hvdead
    obtain ⟨m, hm⟩ := List.exists_mem_of_ne_nil _ (hi.gathered hw hwrep)
    have hmtid := ((hi.taskInv hw).tids m hm).trans hvw.symm
    cases hg : v.goroutine with
    | replicate pc => simp [hg, Goroutine.isReplicate] at hvrep
    | handle pc =>
      rw [hg] at hvdead
      cases pc with
      | ended r =>
        have hfull := hf.handler_full hi hv (r := r) (by rw [hg]; rfl)
        exact (hi.full_excludes hv hfull hmtid).1 l w hw hm
      | _ => cases hvdead
  cases halive : t.goroutine.alive with
  | false => exact hdead ht hu hrep hurep htid halive
  | true =>
    cases halive' : u.goroutine.alive with
    | false => exact (hdead hu ht hurep hrep htid.symm halive').symm
    | true =>
      have hlookup := ((hi.hosts x).table i t ht).mp halive
      have hlookup' := ((hi.hosts x).table j u hu).mp halive'
      rw [htid, hlookup'] at hlookup
      exact (Option.some.inj hlookup).symm

/-- In a quiet state every handler has returned. It waits for the messages of all its peers: the
request of the initiator, and a vote of each of the others. They have all been sent and put into
this handler, as there is no second one. -/
private theorem FaultFreeInv.handler_of_quiet (hf : FaultFreeInv c s) (hi : SystemInv c s)
    (hq : s.Quiet c) {y : PeerName} {k : Nat} {u : Task} (hu : s.task? y k = some u)
    (hurep : u.goroutine.isReplicate = false) : u.goroutine.alive = false := by
  by_contra halive
  have hwait := hf.receiving_of_quiet hi hq hu (by simpa using halive)
  obtain ⟨m, hm⟩ := List.exists_mem_of_ne_nil _ (hi.gathered hu hurep)
  have harrived := mem_arrived_of_inbox hu hm
  have hmtid := (hi.taskInv hu).tids m hm
  obtain ⟨p, j, t, ht, htid, hrep⟩ := hi.initiator harrived
  have hasked := hi.asked_of_arrived ht hrep harrived htid.symm
  rw [hmtid] at htid
  have hpy : p ≠ y := by
    rintro rfl
    exact hf.apart ht hu hrep hurep htid
  have hle : (c.peers y).length ≤ u.taken := by
    refine length_le_taken (hf.taken_of_quiet hi hq hu) fun q hq' => ?_
    -- What `q` sent for the transaction is in the one handler of this host.
    have hmine : ∀ {l : Nat} {v : Task}, s.task? y l = some v → v.trans.tid = t.trans.tid →
        (∃ m ∈ v.inbox, m.peerName = q) → ∃ m ∈ u.inbox, m.peerName = q := by
      intro l v hv hvtid hvm
      cases hvrep : v.goroutine.isReplicate with
      | true => exact absurd (hi.initiators hv ht hvrep hrep hvtid).1.symm hpy
      | false =>
        have hlk := hf.handler_unique hi hv hu hvrep hurep (hvtid.trans htid)
        subst hlk
        obtain rfl : v = u := Option.some.inj (hv.symm.trans hu)
        exact hvm
    obtain ⟨hqmem, hqy⟩ := Cluster.mem_peers.mp hq'
    by_cases hqp : q = p
    · subst hqp
      obtain ⟨e, he, hkey, -⟩ := hi.asked ht hasked
      obtain ⟨hname, hetid⟩ : e.msg.peerName = q ∧ e.msg.tid = t.trans.tid := by
        simpa [messageKey] using hkey
      obtain ⟨l, v, hv, hvm, hvtid⟩ := hf.gathered_of_quiet hi hq he
        (hname.symm ▸ Cluster.mem_peers.mpr ⟨hi.members hu, Ne.symm hpy⟩)
      exact hmine hv (hvtid.trans hetid) ⟨e.msg, hvm, hname⟩
    · obtain ⟨b, hb⟩ := hf.voted_of_quiet hi hq ht hasked
        (Cluster.mem_peers.mpr ⟨hqmem, hqp⟩)
      obtain ⟨l, v, hv, hvtid, hvm⟩ := hf.vote_gathered hi hq hb
        (Cluster.mem_peers.mpr ⟨hi.members hu, Ne.symm hqy⟩)
      exact hmine hv hvtid hvm
  cases hg : u.goroutine with
  | replicate pc => simp [hg, Goroutine.isReplicate] at hurep
  | handle pc =>
    cases pc with
    | await our =>
      simp only [Task.receiving, hg, decide_eq_true_eq] at hwait
      omega
    | _ => simp [Task.receiving, hg] at hwait

/-- In a fault-free state in which only new calls are possible, everything is finished. -/
theorem FaultFreeInv.finished_of_quiet (hf : FaultFreeInv c s) (hi : SystemInv c s)
    (hq : s.Quiet c) : s.Finished := by
  refine ⟨fun x i t ht => ?_, hf.flight_of_quiet hi hq⟩
  cases hrep : t.goroutine.isReplicate with
  | true => exact hf.call_of_quiet hi hq ht hrep
  | false => exact hf.handler_of_quiet hi hq ht hrep

/-- A fault-free run without new calls is no longer than the work at its start, and when it
cannot go on, everything is finished. -/
theorem settles (hi : SystemInv c s) (hf : FaultFreeInv c s) {as : List Action}
    (hrun : run (System.settleStep c) s as = some s') :
    as.length ≤ s.work c ∧ (s'.Quiet c → s'.Finished) := by
  have hinv : ∀ s a s', System.settleStep c s a = some s' →
      SystemInv c s ∧ FaultFreeInv c s → SystemInv c s' ∧ FaultFreeInv c s' := by
    rintro s a s' hs ⟨hi, hf⟩
    have hff := (restrict_eq_some.mp hs).2
    exact ⟨hi.step (restrict_eq_some.mp hff).2, hf.step hi hff⟩
  obtain ⟨hi', hf'⟩ := run_invariant hinv hrun ⟨hi, hf⟩
  have hle := run_length_add_le hinv (fun s a s' hs h => settleStep_work h.1 h.2 hs) hrun ⟨hi, hf⟩
  exact ⟨by omega, hf'.finished_of_quiet hi'⟩

end Settle

end ReplicatedFs.P2p
