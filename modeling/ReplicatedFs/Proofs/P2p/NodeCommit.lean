import ReplicatedFs.Proofs.Connection.Authentication
import ReplicatedFs.Proofs.Connection.Shutdown
import ReplicatedFs.Proofs.P2p.NodeFlow

/-!
# `ReplicatedFs.Proofs.P2p.NodeCommit`: what a permission of `Replicate` rests on

A `Replicate` that returns nil has called `Broadcast` before. Here the goroutines of that call are
followed through the pool.

* `SendSound`: a `Send` that returns nil has used the QUIC connection of its peer.
* `LedgerInv`: a `Replicate` that is past its broadcast without an error has a `Broadcast` behind it
  in which no `Send` failed.
* `commit_authenticated`: when `Replicate` returns nil, a `Send` has returned nil for every peer, on
  a QUIC connection with the certificate of that peer.
-/

set_option autoImplicit false

namespace ReplicatedFs.P2p

open Protobuf
open Connection (ConnId Pool AuthInv)
open Library

/-- A `Replicate` that is past its broadcast, which had no errors, and has not failed since. -/
def Goroutine.sentAll : Goroutine → Bool
  | .replicate (.collect _ []) | .replicate (.leave none) | .replicate (.returned none) => true
  | _ => false

section Host
variable {h h' : Host} {e : Event} {i : Nat} {t' : Task}

/-- `Replicate` gets past its broadcast only if no peer is named in the errors. With some errors it
still collects the responses of the other peers, but it ends with the errors and not with nil. -/
private theorem sentAll_afterBroadcast {peers : List PeerName} {result : Broadcast}
    (hs : (Goroutine.replicate (afterBroadcast peers result)).sentAll = true) :
    ∃ failed reached, result = .sent failed reached ∧ ∀ peer ∈ peers, peer ∉ failed := by
  cases result with
  | refused reason => cases hs
  | sent failed reached =>
    refine ⟨failed, reached, rfl, ?_⟩
    unfold afterBroadcast at hs
    dsimp only at hs
    split at hs
    · cases hs
    · -- With any error at all `Replicate` is told of a failed broadcast.
      have hnil : peers.filter (· ∈ failed) = [] := by
        generalize peers.filter (· ∈ failed) = errs at hs
        cases errs with
        | nil => rfl
        | cons => cases hs
      intro peer hp hmem
      have hin : peer ∈ peers.filter (· ∈ failed) :=
        List.mem_filter.mpr ⟨hp, decide_eq_true hmem⟩
      rw [hnil] at hin
      cases hin

/-- How a `Replicate` gets past its broadcast: it was past it before, or the broadcast returns in
this step and names none of the peers in its errors. -/
theorem sentAll_of_next (hnext : h.next e = some h') (ht' : h'.tasks[i]? = some t')
    (hs : t'.goroutine.sentAll = true) :
    (∃ t, h.tasks[i]? = some t ∧ t.goroutine.sentAll = true) ∨
      ∃ failed reached, e = .task i (.broadcast (.sent failed reached)) ∧
        ∀ peer ∈ h.peers, peer ∉ failed := by
  obtain ⟨sent, hm⟩ := Host.next_move hnext
  have hchange := hm.change ht'
  generalize h.tasks[i]? = old at hchange
  cases hchange with
  | same e sent t => exact .inl ⟨t', rfl, hs⟩
  | call tid request hfresh => cases hs
  | join msg t hlookup => exact .inl ⟨t, rfl, hs⟩
  | spawn msg hlookup => cases hs
  | notify msg t hl hr =>
    unfold Task.notified at hs
    split at hs
    · cases hs
    · exact .inl ⟨t, rfl, hs⟩
  | move input t m hmove =>
    cases hmove with
    | broadcast message result hg =>
      obtain ⟨failed, reached, rfl, hnone⟩ := sentAll_afterBroadcast hs
      exact .inr ⟨failed, reached, rfl, hnone⟩
    -- The later points are reached from the collection of the responses, which is past the
    -- broadcast.
    | process expected increment result hg hle hp => exact .inl ⟨t, rfl, by rw [hg]; rfl⟩
    | depart result hg =>
      cases result with
      | none => exact .inl ⟨t, rfl, by rw [hg]; rfl⟩
      | some err => cases hs
    | _ => cases hs

end Host

/-- Where a `Send` is, and what is known of it. -/
def SendPoint (c : SendCall) : Connection.Task → Prop
  | .operate peer .check | .operate peer .load => peer = c.peer ∧ c.failed = none
  | .operate peer (.running conn) => peer = c.peer ∧ c.failed = none ∧ c.conn = some conn
  | .close (.operate _) _ _ => c.failed = some true
  | .ended => c.failed = some true ∨ c.failed = some false ∧ c.conn.isSome = true
  | .panicked => True
  | _ => False

/-- A `Send` is a goroutine of the pool, and uses a QUIC connection of its peer, as `V` says. -/
structure SendSound (V : ConnId → PeerName → Prop) (p : Pool) (c : SendCall) : Prop where
  point : ∃ t, p.tasks[c.ref]? = some t ∧ SendPoint c t
  carries : ∀ conn, c.conn = some conn → V conn c.peer

section Send
variable {V : ConnId → PeerName → Prop} {p p' : Pool} {c : SendCall} {e : Connection.Event}

/-- A goroutine stays where it is until it takes a step. The references of the goroutines do not
change. -/
theorem task_of_step {r : Nat} {t : Connection.Task} (h : p.step e = some p')
    (hother : ∀ input, e ≠ .task r input) (ht : p.tasks[r]? = some t) : p'.tasks[r]? = some t := by
  have hlt := lt_length_of_getElem? ht
  cases Connection.step_move h with
  | operate | close => exact (List.getElem?_append_left hlt).trans ht
  | drop => exact ht
  | task ref input t₀ o ht₀ hm =>
    have hne : r ≠ ref := by
      rintro rfl
      exact hother input rfl
    show (p.tasks.set ref o.task ++ o.spawned.toList)[r]? = some t
    rw [List.getElem?_append_left (by rwa [List.length_set])]
    exact getElem?_set_of_ne hne ht

/-- A goroutine that has come to its end takes no step, so a step of the pool is one of another
goroutine. -/
theorem ne_of_final {r : Nat} {t : Connection.Task} (h : p.step e = some p')
    (ht : p.tasks[r]? = some t) (hfinal : ∀ input, p.taskStep t input = none)
    (input : Connection.Input) : e ≠ .task r input := by
  rintro rfl
  obtain ⟨t', o, ht', ho, -⟩ := Connection.step_task h
  obtain rfl := Option.some.inj (ht.symm.trans ht')
  rw [hfinal input] at ho
  cases ho

/-- A goroutine that has ended takes no step. This is the case of a `Send` that has returned. -/
theorem ne_of_ended {r : Nat} (h : p.step e = some p') (ht : p.tasks[r]? = some .ended)
    (input : Connection.Input) : e ≠ .task r input :=
  ne_of_final h ht (fun input => by cases input <;> rfl) input

/-- A step of the goroutine of a `Send`. The points of its code are those of `operate`, followed by
those of `Close` when the operation has ended the connection. Whether it has failed is known after
the operation, and the steps of `Close` do not change it. -/
private theorem SendPoint.step {input : Connection.Input} {t : Connection.Task}
    {o : Connection.Outcome} (hp : SendPoint c t) (ht : p.tasks[c.ref]? = some t)
    (ho : p.taskStep t input = some o) :
    SendPoint (c.observe p (.task c.ref input)) o.task := by
  -- This is a step of the goroutine of the call, so the call is updated.
  have hmover : mover? p (.task c.ref input) = some (c.ref, t, input) :=
    mover?_eq_some.mpr ⟨rfl, ht⟩
  unfold SendCall.observe
  simp only [hmover, if_true]
  cases t with
  | operate peer pc =>
    cases pc with
    | check =>
      cases input with
      | run =>
        simp only [Connection.Pool.taskStep, Connection.Pool.operateStep, Option.some.injEq] at ho
        subst ho
        by_cases hdead : (p.pool peer).status = .dead
        · simp [hdead, SendPoint]
        · simpa [hdead, SendPoint] using hp
      | _ => cases ho
    | load =>
      cases input with
      | run =>
        simp only [Connection.Pool.taskStep, Connection.Pool.operateStep, Option.some.injEq] at ho
        subst ho
        cases hconn : (p.pool peer).conn with
        | none => trivial
        | some conn => exact ⟨hp.1, hp.2, hconn⟩
      | _ => cases ho
    | running conn =>
      cases input with
      | operated err =>
        obtain ⟨-, -, hconn⟩ := hp
        simp only [Connection.Pool.taskStep, Connection.Pool.operateStep] at ho
        split at ho
        · rename_i hclosed
          cases ho
          simp [SendPoint, hclosed]
        · cases ho
          by_cases hok : Connection.handleErrors err = .ok <;> simp [SendPoint, hok, hconn]
      | _ => cases ho
  -- The `Close` that `handleErrors` makes has no say in what `Send` returns, which is settled by
  -- then.
  | close closer peer pc =>
    cases closer with
    | operate conn =>
      cases pc with
      | lock =>
        cases input with
        | run =>
          simp only [Connection.Pool.taskStep, Connection.Pool.closeStep] at ho
          split at ho
          · cases ho
          · split at ho <;> cases ho
            · exact .inl hp
            · exact hp
        | _ => cases ho
      | finish =>
        cases input with
        | closed result =>
          simp only [Connection.Pool.taskStep, Connection.Pool.closeStep] at ho
          split at ho <;> cases ho
          · trivial
          · exact .inl hp
        | _ => cases ho
    | _ => cases hp
  | ended => cases input <;> cases ho
  | panicked => cases input <;> cases ho
  | _ => cases hp

/-- The peer and the goroutine of a `Send` do not change. Only its connection and its result are
filled in. -/
@[simp] theorem observe_peer : (c.observe p e).peer = c.peer ∧ (c.observe p e).ref = c.ref := by
  unfold SendCall.observe
  split
  · split
    · split
      · split <;> exact ⟨rfl, rfl⟩
      all_goals exact ⟨rfl, rfl⟩
    · exact ⟨rfl, rfl⟩
  · exact ⟨rfl, rfl⟩

/-- The step of another goroutine says nothing about a `Send`, so its entry stays as it is. -/
theorem observe_of_other (hother : ∀ input, e ≠ .task c.ref input) : c.observe p e = c := by
  unfold SendCall.observe
  split
  · rename_i ref t input hmover
    split
    · rename_i href
      subst href
      exact absurd (mover?_eq_some.mp hmover).1 (hother input)
    · rfl
  · rfl

/-- A `Send` gets its QUIC connection from the pool, at the time when it loads it and not later. -/
private theorem observe_conn {conn : ConnId} (hconn : (c.observe p e).conn = some conn) :
    c.conn = some conn ∨ ∃ peer input, e = .task c.ref input ∧
      p.tasks[c.ref]? = some (.operate peer .load) ∧ (p.pool peer).conn = some conn := by
  unfold SendCall.observe at hconn
  split at hconn
  · rename_i ref t input hmover
    split at hconn
    · rename_i href
      subst href
      obtain ⟨rfl, ht⟩ := mover?_eq_some.mp hmover
      split at hconn
      · split at hconn <;> exact .inl hconn
      · -- At `load` the connection is read.
        exact .inr ⟨_, _, rfl, ht, hconn⟩
      · exact .inl hconn
      · exact .inl hconn
    · exact .inl hconn
  · exact .inl hconn

/-- A step of the pool keeps what is known of a `Send`. The connection that it has loaded is
certified for its peer. -/
theorem SendSound.step (hc : SendSound V p c) (hauth : AuthInv V p) (h : p.step e = some p') :
    SendSound V p' (c.observe p e) := by
  obtain ⟨t, ht, hpoint⟩ := hc.point
  obtain ⟨hpeer, href⟩ := observe_peer (p := p) (c := c) (e := e)
  refine ⟨?_, fun conn hconn => ?_⟩
  · rw [href]
    by_cases he : ∃ input, e = .task c.ref input
    · obtain ⟨input, rfl⟩ := he
      obtain ⟨u, o, hu, ho, rfl⟩ := Connection.step_task h
      obtain rfl := Option.some.inj (ht.symm.trans hu)
      refine ⟨o.task, ?_, hpoint.step ht ho⟩
      show (p.tasks.set c.ref o.task ++ o.spawned.toList)[c.ref]? = some o.task
      rw [List.getElem?_append_left (by rw [List.length_set]; exact lt_length_of_getElem? ht)]
      exact getElem?_set_self ht
    · have hother : ∀ input, e ≠ .task c.ref input := fun input hin => he ⟨input, hin⟩
      rw [observe_of_other hother]
      exact ⟨t, task_of_step h hother ht, hpoint⟩
  · rw [hpeer]
    rcases observe_conn hconn with hold | ⟨peer, input, -, hload, hpool⟩
    · exact hc.carries conn hold
    · -- It was about to read the QUIC connection of its own peer.
      obtain rfl := Option.some.inj (ht.symm.trans hload)
      rw [← hpoint.1]
      exact hauth.conns conn peer hpool

/-- What is known of a `Send` does not depend on the other goroutines. -/
theorem SendSound.of_tasks (hc : SendSound V p c)
    (htasks : ∀ (r : Nat) t, p.tasks[r]? = some t → p'.tasks[r]? = some t) : SendSound V p' c := by
  obtain ⟨t, ht, hpoint⟩ := hc.point
  exact ⟨⟨t, htasks c.ref t ht, hpoint⟩, hc.carries⟩

end Send

/-- The broadcasts of a node, and the calls of `Replicate` that rest on them. -/
structure LedgerInv (V : ConnId → PeerName → Prop) (s : Node) : Prop where
  auth : AuthInv V s.pool
  peers : s.pool.peers = s.host.peers.dedup
  sends : ∀ b ∈ s.broadcasts, ∀ c ∈ b.sends, SendSound V s.pool c
  names : ∀ b ∈ s.broadcasts, b.sends.map SendCall.peer = s.pool.peers
  done : ∀ b ∈ s.broadcasts, b.done = true → ∀ c ∈ b.sends, s.pool.tasks[c.ref]? = some .ended
  ledger : ∀ i t, s.host.tasks[i]? = some t → t.goroutine.sentAll = true →
    ∃ b ∈ s.broadcasts, b.ref = i ∧ b.done = true ∧ ∀ c ∈ b.sends, c.failed ≠ some true

section Ledger
variable {codec : Codec} {V : ConnId → PeerName → Prop} {s s' : Node}

/-- A step of the pool. The broadcasts are updated with what the step says about their calls of
`Send`, and the invariant is about the updated ones. A broadcast that has returned is not affected,
since the goroutines of all its calls have ended. -/
private theorem LedgerInv.pool (hi : LedgerInv V s) {e : Connection.Event} {pool : Pool}
    (hV : ∀ conn, ∀ peer ∈ s.pool.peers, e.Certifies conn peer → V conn peer)
    (h : s.pool.step e = some pool) : LedgerInv V (s.afterPool e pool) where
  auth := hi.auth.step hV h
  peers := (Connection.peers_step h).trans hi.peers
  sends := by
    intro b' hb' c' hc'
    obtain ⟨b, hb, rfl⟩ := List.mem_map.mp hb'
    obtain ⟨c, hc, rfl⟩ := List.mem_map.mp hc'
    exact (hi.sends b hb c hc).step hi.auth h
  names := by
    intro b' hb'
    obtain ⟨b, hb, rfl⟩ := List.mem_map.mp hb'
    show (b.sends.map (SendCall.observe s.pool e)).map SendCall.peer = pool.peers
    rw [Connection.peers_step h, ← hi.names b hb, List.map_map]
    exact List.map_congr_left fun c _ => observe_peer.1
  -- A goroutine that has ended takes no step, so what it has left behind is final.
  done := by
    intro b' hb' hdone c' hc'
    obtain ⟨b, hb, rfl⟩ := List.mem_map.mp hb'
    obtain ⟨c, hc, rfl⟩ := List.mem_map.mp hc'
    have hended := hi.done b hb hdone c hc
    rw [observe_peer.2]
    exact task_of_step h (ne_of_ended h hended) hended
  ledger := by
    intro i t ht hs
    obtain ⟨b, hb, href, hdone, hfailed⟩ := hi.ledger i t ht hs
    refine ⟨_, List.mem_map_of_mem hb, href, hdone, fun c' hc' => ?_⟩
    obtain ⟨c, hc, rfl⟩ := List.mem_map.mp hc'
    rw [observe_of_other (ne_of_ended h (hi.done b hb hdone c hc))]
    exact hfailed c hc

/-- New goroutines in the pool, of `Recv` or of `Pool.Close`. They come behind all others, so
nothing moves. -/
private theorem LedgerInv.spawn (hi : LedgerInv V s) {e : Connection.Event} {pool : Pool}
    (he : (∃ peer, e = .operate peer) ∨ e = .close) (h : s.pool.step e = some pool)
    (hpool : s'.pool = pool) (hhost : s'.host = s.host) (hb : s'.broadcasts = s.broadcasts) :
    LedgerInv V s' := by
  -- No goroutine that was there moves.
  have hother : ∀ r input, e ≠ .task r input := by
    rintro r input rfl
    rcases he with ⟨peer, he⟩ | he <;> cases he
  have htasks : ∀ (r : Nat) t, s.pool.tasks[r]? = some t → pool.tasks[r]? = some t :=
    fun r t => task_of_step h (hother r)
  have hV : ∀ conn, ∀ peer ∈ s.pool.peers, e.Certifies conn peer → V conn peer := by
    rintro conn peer - ⟨ref, rfl⟩
    exact absurd rfl (hother ref _)
  constructor
  · rw [hpool]
    exact hi.auth.step hV h
  · rw [hpool, hhost]
    exact (Connection.peers_step h).trans hi.peers
  · rw [hpool, hb]
    exact fun b hb c hc => (hi.sends b hb c hc).of_tasks htasks
  · rw [hpool, hb, Connection.peers_step h]
    exact hi.names
  · rw [hpool, hb]
    exact fun b hb hdone c hc => htasks c.ref _ (hi.done b hb hdone c hc)
  · rw [hhost, hb]
    exact hi.ledger

/-- A step of the host that is not the end of a broadcast. It gets no `Replicate` past its
broadcast. -/
private theorem LedgerInv.host (hi : LedgerInv V s) {e : Event} {h' : Host}
    (hs : s.host.next e = some h')
    (he : ∀ i failed reached, e ≠ .task i (.broadcast (.sent failed reached))) :
    LedgerInv V { s with host := h' } where
  auth := hi.auth
  peers := by
    obtain ⟨sent, hm⟩ := Host.next_move hs
    show _ = h'.peers.dedup
    rw [hm.config.2]
    exact hi.peers
  sends := hi.sends
  names := hi.names
  done := hi.done
  ledger := by
    intro i t ht hsent
    -- Only the end of a broadcast would add an entry to the ledger.
    rcases sentAll_of_next hs ht hsent with ⟨t₀, ht₀, hsent₀⟩ | ⟨failed, reached, rfl, -⟩
    · exact hi.ledger i t₀ ht₀ hsent₀
    · exact absurd rfl (he i failed reached)

/-- `Broadcast` starts, with one `Send` for each peer of the pool. None of them has a connection
yet. The new goroutines are appended in the order of the peers, and this is how each entry of the
ledger finds its own. -/
private theorem LedgerInv.broadcast (hi : LedgerInv V s) (ref : Nat) :
    LedgerInv V { s with
      pool := { s.pool with tasks := s.pool.tasks ++ s.pool.peers.map (.operate · .check) }
      broadcasts := s.broadcasts ++
        [{ ref
           sends := (s.pool.peers.zipIdx s.pool.tasks.length).map fun c =>
             { peer := c.1, ref := c.2 } }] } where
  auth := by
    refine ⟨List.forall_mem_append.mpr ⟨hi.auth.tasks, fun t ht conn peer hc => ?_⟩, hi.auth.conns⟩
    obtain ⟨q, -, rfl⟩ := List.mem_map.mp ht
    cases hc
  peers := hi.peers
  sends := by
    refine List.forall_mem_append.mpr ⟨fun b hb c hc => ?_, List.forall_mem_singleton.mpr ?_⟩
    · refine (hi.sends b hb c hc).of_tasks fun r t ht => ?_
      exact (List.getElem?_append_left (lt_length_of_getElem? ht)).trans ht
    · intro c hc
      obtain ⟨⟨peer, k⟩, hmem, rfl⟩ := List.mem_map.mp hc
      -- The call for the peer at position `k` is the goroutine at position `k` of the new ones.
      obtain ⟨hle, hget⟩ := List.mk_mem_zipIdx_iff_le_and_getElem?_sub.mp hmem
      refine ⟨⟨.operate peer .check, ?_, rfl, rfl⟩, nofun⟩
      show (s.pool.tasks ++ s.pool.peers.map (.operate · .check))[k]? = _
      rw [List.getElem?_append_right hle, List.getElem?_map, hget]
      rfl
  names := by
    refine List.forall_mem_append.mpr ⟨hi.names, List.forall_mem_singleton.mpr ?_⟩
    rw [List.map_map]
    exact List.zipIdx_map_fst _ _
  done := by
    refine List.forall_mem_append.mpr ⟨fun b hb hdone c hc => ?_,
      List.forall_mem_singleton.mpr nofun⟩
    have hended := hi.done b hb hdone c hc
    exact (List.getElem?_append_left (lt_length_of_getElem? hended)).trans hended
  ledger := by
    intro i t ht hs
    obtain ⟨b, hb, hrest⟩ := hi.ledger i t ht hs
    exact ⟨b, List.mem_append_left _ hb, hrest⟩

/-- `Broadcast` returns, after all its calls of `Send`. The host learns which of them have failed.
If the `Replicate` goes on, no peer is among these, and so no call of this broadcast has failed. -/
private theorem LedgerInv.broadcasted (hi : LedgerInv V s) {index : Nat} {reached : List PeerName}
    {b : BroadcastCall} {h' : Host} (hb : s.broadcasts[index]? = some b) (hopen : b.done = false)
    (hended : ∀ c ∈ b.sends, s.pool.tasks[c.ref]? = some .ended)
    (hs : s.host.next (.task b.ref (.broadcast
      (.sent ((b.sends.filter fun c => c.failed = some true).map SendCall.peer) reached))) =
        some h') :
    LedgerInv V { s with
      host := h', broadcasts := s.broadcasts.set index { b with done := true } } := by
  have hmem := List.mem_of_getElem? hb
  have hset : { b with done := true } ∈ s.broadcasts.set index { b with done := true } :=
    List.mem_of_getElem? (getElem?_set_self hb)
  obtain ⟨sent, hm⟩ := Host.next_move hs
  refine ⟨hi.auth, ?_, ?_, ?_, ?_, ?_⟩
  · show _ = h'.peers.dedup
    rw [hm.config.2]
    exact hi.peers
  · intro b' hb'
    rcases List.mem_or_eq_of_mem_set hb' with hold | rfl
    · exact hi.sends b' hold
    · exact hi.sends b hmem
  · intro b' hb'
    rcases List.mem_or_eq_of_mem_set hb' with hold | rfl
    · exact hi.names b' hold
    · exact hi.names b hmem
  · intro b' hb' hdone
    rcases List.mem_or_eq_of_mem_set hb' with hold | rfl
    · exact hi.done b' hold hdone
    · exact hended
  · intro i t ht hsent
    rcases sentAll_of_next hs ht hsent with ⟨t₀, ht₀, hsent₀⟩ | ⟨failed, reached', he, hnone⟩
    · -- A broadcast that was done is not the one that returns now.
      obtain ⟨b', hb', href, hdone, hfailed⟩ := hi.ledger i t₀ ht₀ hsent₀
      obtain ⟨j, hj⟩ := List.mem_iff_getElem?.mp hb'
      have hne : j ≠ index := by
        rintro rfl
        obtain rfl := Option.some.inj (hj.symm.trans hb)
        rw [hopen] at hdone
        cases hdone
      exact ⟨b', List.mem_of_getElem? (getElem?_set_of_ne hne hj), href, hdone, hfailed⟩
    · simp only [Event.task.injEq, Input.broadcast.injEq, Broadcast.sent.injEq] at he
      obtain ⟨rfl, rfl, -⟩ := he
      refine ⟨_, hset, rfl, rfl, fun c hc hfailed => ?_⟩
      -- Its peer would be named in the errors.
      have hpeer : c.peer ∈ s.host.peers := by
        have hin := List.mem_map_of_mem (f := SendCall.peer) hc
        rw [hi.names b hmem, hi.peers, List.mem_dedup] at hin
        exact hin
      refine hnone c.peer hpeer (List.mem_map_of_mem (List.mem_filter.mpr ⟨hc, ?_⟩))
      exact decide_eq_true hfailed

/-- Every step keeps the ledger, when the certificates that are accepted in it count. The relation
`V` is what the run has accepted so far, and it grows with the steps of the pool only. -/
theorem LedgerInv.step (hi : LedgerInv V s) {e : NodeEvent} (hm : NodeMove codec s e s')
    (hV : ∀ e', e = .pool e' → ∀ conn, ∀ peer ∈ s.pool.peers, e'.Certifies conn peer →
      V conn peer) : LedgerInv V s' := by
  cases hm with
  | host e h' he hs =>
    refine hi.host hs ?_
    rintro i failed reached rfl
    cases he
  | refused e ref reason h' hc hs => exact hi.host hs (by simp)
  | broadcast ref hc hactive => exact hi.broadcast ref
  | broadcasted index reached b h' hb hopen hended hs => exact hi.broadcasted hb hopen hended hs
  -- The listener is not part of the invariant, which is why it carries over field by field.
  | receive msg h' hr hs =>
    have hhost := hi.host hs (by simp)
    exact ⟨hhost.auth, hhost.peers, hhost.sends, hhost.names, hhost.done, hhost.ledger⟩
  | pool e pool ha hs => exact hi.pool (hV e rfl) hs
  | recv peer outcome ref m pool hl hs =>
    have hpool := hi.pool (fun conn peer _ ⟨_, hcert⟩ => by cases hcert) hs
    exact ⟨hpool.auth, hpool.peers, hpool.sends, hpool.names, hpool.done, hpool.ledger⟩
  | head peer pool hl hs => exact hi.spawn (.inl ⟨peer, rfl⟩) hs rfl rfl rfl
  | opened peer pool hl hs => exact hi.spawn (.inl ⟨peer, rfl⟩) hs rfl rfl rfl
  | cancel pool hc hs => exact hi.spawn (.inr rfl) hs rfl rfl rfl
  | _ => exact ⟨hi.auth, hi.peers, hi.sends, hi.names, hi.done, hi.ledger⟩

/-- A new node has made no broadcast, so there is no `Send` to account for. -/
theorem LedgerInv.init (V : ConnId → PeerName → Prop) (name : PeerName) (peers : List PeerName)
    (size : Nat) : LedgerInv V (Node.init name peers size) where
  auth := .init V name peers
  peers := rfl
  sends := nofun
  names := nofun
  done := nofun
  ledger := by
    intro i t ht
    cases ht

/-- The invariant with a weaker relation between connections and peers, for the parts of a run in
which more handshakes were made. -/
theorem LedgerInv.mono {W : ConnId → PeerName → Prop} (hi : LedgerInv V s)
    (h : ∀ conn peer, V conn peer → W conn peer) : LedgerInv W s :=
  ⟨hi.auth.mono h, hi.peers, fun b hb c hc => ⟨(hi.sends b hb c hc).point,
    fun conn hconn => h conn c.peer ((hi.sends b hb c hc).carries conn hconn)⟩, hi.names, hi.done,
    hi.ledger⟩

end Ledger

/-- The handshake of a QUIC connection with a single certificate, which names the peer. -/
def NodeEvent.Certifies (e : NodeEvent) (conn : ConnId) (peer : PeerName) : Prop :=
  ∃ ref, e = .pool (.task ref (.handshake (.ok (conn, [peer]))))

/-- Take any run of a node, with any failures. When `Replicate` has returned nil, it has made a
`Broadcast` with a `Send` for every peer, which returned nil. Each of them used a QUIC connection
that was handshaked in the run with a single certificate, and this one names the peer. -/
theorem commit_authenticated (codec : Codec) (name : PeerName) (peers : List PeerName) (size : Nat)
    {es : List NodeEvent} {s : Node}
    (hrun : run (Node.step codec) (Node.init name peers size) es = some s) {i : Nat} {t : Task}
    (ht : s.host.tasks[i]? = some t) (hg : t.goroutine = .replicate (.returned none)) :
    ∃ b ∈ s.broadcasts, b.ref = i ∧ ∀ peer ∈ peers, ∃ c ∈ b.sends, c.peer = peer ∧
      c.failed = some false ∧ ∃ conn, c.conn = some conn ∧ ∃ e ∈ es, e.Certifies conn peer := by
  have hinv : s.host.peers = peers ∧
      LedgerInv (fun conn peer => ∃ e ∈ es, NodeEvent.Certifies e conn peer) s := by
    refine run_history (I := fun es s => s.host.peers = peers ∧
      LedgerInv (fun conn peer => ∃ e ∈ es, NodeEvent.Certifies e conn peer) s)
      (fun es s e s' h hi => ?_) hrun ⟨rfl, .init _ name peers size⟩
    have hm := Node.step_move h
    refine ⟨?_, (hi.2.mono ?_).step hm ?_⟩
    · rcases hm.host_cases with hsame | ⟨e', hnext⟩
      · rw [hsame]
        exact hi.1
      · obtain ⟨sent, hmove⟩ := Host.next_move hnext
        exact hmove.config.2.trans hi.1
    · rintro conn peer ⟨e', he', hcert⟩
      exact ⟨e', List.mem_append_left _ he', hcert⟩
    · rintro e' rfl conn peer - ⟨ref, rfl⟩
      exact ⟨_, List.mem_append_right _ (List.mem_singleton_self _), ref, rfl⟩
  obtain ⟨hpeers, hi⟩ := hinv
  obtain ⟨b, hb, href, hdone, hfailed⟩ := hi.ledger i t ht (by rw [hg]; rfl)
  refine ⟨b, hb, href, fun peer hpeer => ?_⟩
  have hin : peer ∈ b.sends.map SendCall.peer := by
    rw [hi.names b hb, hi.peers, hpeers, List.mem_dedup]
    exact hpeer
  obtain ⟨c, hc, rfl⟩ := List.mem_map.mp hin
  have hsound := hi.sends b hb c hc
  -- The goroutine of the `Send` has ended, and without an error.
  obtain ⟨u, hu, hpoint⟩ := hsound.point
  obtain rfl := Option.some.inj (hu.symm.trans (hi.done b hb hdone c hc))
  rcases hpoint with htrue | ⟨hfalse, hsome⟩
  · exact absurd htrue (hfailed c hc)
  · obtain ⟨conn, hconn⟩ := Option.isSome_iff_exists.mp hsome
    exact ⟨c, hc, rfl, hfalse, conn, hconn, hsound.carries conn hconn⟩

/-- After `answeredRun` the call has returned nil. Its `Send` used the QUIC connection of the
dial. -/
theorem commit_authenticated_answered :
    ∃ s t, run (Node.step answerCodec) (Node.init "a" ["b"] 1) answeredRun = some s ∧
      s.host.tasks[0]? = some t ∧ t.goroutine = .replicate (.returned none) ∧
      ∃ b ∈ s.broadcasts, ∃ c ∈ b.sends, c.peer = "b" ∧
        ∃ conn, c.conn = some conn ∧ ∃ e ∈ answeredRun, e.Certifies conn "b" := by
  have hrun : (run (Node.step answerCodec) (Node.init "a" ["b"] 1) answeredRun).any (fun s =>
      s.host.tasks[0]?.any fun t => t.goroutine = .replicate (.returned none)) = true := by decide
  simp only [Option.any_eq_true, decide_eq_true_eq] at hrun
  obtain ⟨s, hs, t, ht, hg⟩ := hrun
  obtain ⟨b, hb, -, hall⟩ := commit_authenticated answerCodec "a" ["b"] 1 hs ht hg
  obtain ⟨c, hc, hpeer, -, conn, hconn, hcert⟩ := hall "b" (by simp)
  exact ⟨s, t, hs, ht, hg, b, hb, c, hc, hpeer, conn, hconn, hcert⟩

end ReplicatedFs.P2p
