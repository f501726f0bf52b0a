import ReplicatedFs.P2p.Cluster
import ReplicatedFs.Proofs.Connection.Shutdown
import ReplicatedFs.Proofs.Connection.Teardown
import ReplicatedFs.Proofs.P2p.NodeStep

/-!
# `ReplicatedFs.Proofs.P2p.NodeFlow`: from `Recv` to `Host.listen`

For each peer there is a `Connection.Listen`, and all of them send to one channel, which
`Host.listen` reads. A `Connection.Listen` waits on `openNotify` while its connection is dead, and
`Establish` leaves a goroutine behind that sends on it.

* `messages_in_order`: between `Recv` and `Host.listen` no message of a peer is lost, doubled or
  overtaken by another one of the same peer. The host is a run of `Host.next` that receives, in
  order, what is a message among them, except for those that `Host.listen` drops because a handler
  has put its error in the variable they share.
* `listen_woken`: `Connection.Listen` never waits for a connection that is open.
-/

set_option autoImplicit false

namespace ReplicatedFs.P2p

open Protobuf
open Connection (ConnId Pool PoolMessage dialRun frame)
open Library

/-- What `Connection.Listen` is about to send on the channel. -/
def NodeListenPc.pending : NodeListenPc → List PoolMessage
  | .sink m => [m]
  | _ => []

/-- The messages of one peer. -/
def ofPeer (peer : PeerName) (ms : List (PeerName × PoolMessage)) : List PoolMessage :=
  (ms.filter (·.1 = peer)).map Prod.snd

/-- What `Recv` returned for a peer is on the channel, or about to go there. -/
def FlowInv (s : Node) : Prop :=
  ∀ peer, s.returned peer = ofPeer peer s.msgs.sent ++ (s.listeners peer).pending

section Flow
variable {codec : Codec} {s s' : Node}

/-- The messages of one peer, in the order of the whole sequence. -/
@[simp] theorem ofPeer_append (peer : PeerName) (ms ms' : List (PeerName × PoolMessage)) :
    ofPeer peer (ms ++ ms') = ofPeer peer ms ++ ofPeer peer ms' := by
  simp [ofPeer]

/-- A step of the pool sends nothing on the channel, so what `Connection.Listen` has to send
stays. -/
theorem observe_pending (p : Pool) (e : Connection.Event) (pc : NodeListenPc) :
    (pc.observe p e).pending = pc.pending := by
  unfold NodeListenPc.observe
  split
  · split <;> rfl
  · rfl

/-- A step of the `Connection.Listen` of one peer. Only the messages of this peer have to be
accounted for. -/
private theorem FlowInv.update (hi : FlowInv s) {peer : PeerName} {pc : NodeListenPc}
    (hl : s'.listeners = Function.update s.listeners peer pc)
    (hat : s'.returned peer = ofPeer peer s'.msgs.sent ++ pc.pending)
    (hothers : ∀ q, q ≠ peer → s'.returned q = s.returned q ∧
      ofPeer q s'.msgs.sent = ofPeer q s.msgs.sent) : FlowInv s' := by
  intro q
  rw [hl]
  by_cases hq : q = peer
  · subst hq
    rw [Function.update_self]
    exact hat
  · rw [Function.update_of_ne hq, (hothers q hq).1, (hothers q hq).2]
    exact hi q

/-- The same, when it neither gets a message nor sends one. This is so in most of its steps. -/
private theorem FlowInv.silent (hi : FlowInv s) {peer : PeerName} {pc : NodeListenPc}
    (hold : (s.listeners peer).pending = []) (hnew : pc.pending = []) (hmsgs : s'.msgs = s.msgs)
    (hreturned : s'.returned = s.returned)
    (hl : s'.listeners = Function.update s.listeners peer pc) : FlowInv s' := by
  refine hi.update hl ?_ fun q _ => ⟨by rw [hreturned], by rw [hmsgs]⟩
  rw [hreturned, hmsgs, hnew, hi peer, hold]

/-- A step of the pool keeps the flow of the messages, whatever it does to the connections. -/
private theorem FlowInv.pool (hi : FlowInv s) (e : Connection.Event) (pool : Pool) :
    FlowInv (s.afterPool e pool) := by
  intro peer
  show s.returned peer = _ ++ ((s.listeners peer).observe s.pool e).pending
  rw [observe_pending]
  exact hi peer

/-- Every step of a node keeps this. Only `Connection.Listen` adds to what was returned, and it is
the one that sends it on the channel. -/
theorem FlowInv.step {e : NodeEvent} (hi : FlowInv s) (hm : NodeMove codec s e s') :
    FlowInv s' := by
  cases hm with
  | skip m msgs hm | read m msgs hidle hm =>
    intro peer
    rw [(Channel.receive_eq_some hm).2.1]
    exact hi peer
  | pool e pool ha hs => exact hi.pool e pool
  | recv peer outcome ref m pool hl hs =>
    refine (hi.pool _ pool).silent ?_ rfl rfl rfl rfl
    show ((s.listeners peer).observe s.pool _).pending = []
    rw [observe_pending, hl]
    rfl
  | wait peer hl hd => exact hi.silent (by rw [hl]; rfl) rfl rfl rfl rfl
  | head peer pool hl hs => exact hi.silent (by rw [hl]; rfl) rfl rfl rfl rfl
  | opened peer pool hl hs => exact hi.silent (by rw [hl]; rfl) rfl rfl rfl rfl
  | unopened peer hl hc => exact hi.silent (by rw [hl]; rfl) rfl rfl rfl rfl
  -- The message has been returned, and is now the one that is about to be sent.
  | received peer ref m hl ht =>
    refine hi.update rfl ?_ fun q hq => ⟨Function.update_of_ne hq _ _, rfl⟩
    simp [hi peer, hl, NodeListenPc.pending]
  | sink peer m msgs hl hm =>
    have hsent := (Channel.send_eq_some hm).2.1
    refine hi.update rfl ?_ fun q hq => ⟨rfl, ?_⟩
    · -- From the point before the send it goes to the end of the channel.
      simp [hi peer, hl, hsent, NodeListenPc.pending, ofPeer]
    · simp [hsent, ofPeer, Ne.symm hq]
  | _ => exact hi

/-- The messages that a run of the host received, by the parts of the run. -/
private theorem received_append (es es' : List Event) :
    received (es ++ es') = received es ++ received es' := by
  simp [received]

/-- Every run of a node is one of its host. What the host has received and what it has read and not
tested is, in order, a part of what was taken from the channel and can be decoded. It is a part
only, because a test of `err` may drop a message. -/
theorem node_host_run {s₀ : Node} (hidle : s₀.unput = []) {es : List NodeEvent}
    (hrun : run (Node.step codec) s₀ es = some s) :
    ∃ hs, run Host.next s₀.host hs = some s.host ∧
      ∃ ms, s.msgs.received = s₀.msgs.received ++ ms ∧
        (received hs ++ s.unput).Sublist (ms.filterMap fun m => decoded codec m.2) := by
  refine run_invariant (I := fun s => ∃ hs, run Host.next s₀.host hs = some s.host ∧
    ∃ ms, s.msgs.received = s₀.msgs.received ++ ms ∧
      (received hs ++ s.unput).Sublist (ms.filterMap fun m => decoded codec m.2)) ?_ hrun
    ⟨[], rfl, [], (List.append_nil _).symm, by simp [received, hidle]⟩
  rintro s e s' h ⟨hs, hhost, ms, hms, hsub⟩
  obtain ⟨hs', ms', hhost', hms', hflow⟩ := (Node.step_move h).flow
  refine ⟨hs ++ hs', run_append_eq_some.mpr ⟨_, hhost, hhost'⟩, ms ++ ms', ?_, ?_⟩
  · rw [hms', hms, List.append_assoc]
  · rw [received_append, List.append_assoc, List.filterMap_append]
    -- A step that drops the message makes the part smaller.
    rcases hflow with hflow | ⟨-, rfl, rfl, hnil⟩
    · rw [hflow, ← List.append_assoc]
      exact hsub.append (.refl _)
    · rw [hnil]
      simpa [received] using (List.sublist_append_left ..).trans hsub

/-- The step does not put the error of a handler in the place of a decoded message. -/
def Node.undisturbed (s : Node) : NodeEvent → Bool
  | .assign ref => s.listener.undisturbed s.host ref
  | _ => true

/-- While no closure disturbs `listen`, `err` is nil when there is a message. -/
def Node.Clean (s : Node) : Prop :=
  ∀ r, s.listener.reading = some r → r.msg.isSome → r.failed = false

/-- An undisturbed run stays clean: a reading with a message starts without an error, and only a
closure that disturbs `listen` sets one. -/
theorem Node.Clean.step {e : NodeEvent} (hi : s.Clean)
    (h : restrict (Node.step codec) Node.undisturbed s e = some s') : s'.Clean := by
  obtain ⟨hcalm, hstep⟩ := restrict_eq_some.mp h
  cases Node.step_move hstep with
  | read m msgs hidle hm herr =>
    intro r hr hmsg
    cases hr
    cases hread : codec.readMessage m.2.data <;> simp_all [Reading.ofResult]
  | drop | receive =>
    intro r hr
    cases hr
  | assign ref l hl =>
    obtain ⟨result, hresult, -, rfl⟩ := Listener.assign_eq_some hl
    intro r hr hmsg
    obtain ⟨old, hold, rfl⟩ := Option.map_eq_some_iff.mp hr
    -- The closure assigns nil, since there is a message.
    obtain ⟨msg, hmsg⟩ := Option.isSome_iff_exists.mp hmsg
    have hold' : old.msg = some msg := hmsg
    simpa [Node.undisturbed, Listener.undisturbed, Listener.message?, hold, hold',
      hresult] using hcalm
  | _ => exact hi

/-- When no closure disturbs `listen`, no message is dropped. All that was received and can be
decoded is put or waits to be put. -/
theorem node_host_run_undisturbed {s₀ : Node} (hidle : s₀.listener.reading = none)
    {es : List NodeEvent}
    (hrun : run (restrict (Node.step codec) Node.undisturbed) s₀ es = some s) :
    ∃ hs, run Host.next s₀.host hs = some s.host ∧
      ∃ ms, s.msgs.received = s₀.msgs.received ++ ms ∧
        received hs ++ s.unput = ms.filterMap fun m => decoded codec m.2 := by
  refine (run_invariant (I := fun s => s.Clean ∧ ∃ hs, run Host.next s₀.host hs = some s.host ∧
    ∃ ms, s.msgs.received = s₀.msgs.received ++ ms ∧
      received hs ++ s.unput = ms.filterMap fun m => decoded codec m.2) ?_ hrun
    ⟨by simp [Node.Clean, hidle], [], rfl, [], (List.append_nil _).symm,
      by simp [received, Node.unput, Listener.message?, hidle]⟩).2
  rintro s e s' h ⟨hi, hs, hhost, ms, hms, heq⟩
  refine ⟨hi.step h, ?_⟩
  obtain ⟨hs', ms', hhost', hms', hflow⟩ := (Node.step_move (restrict_eq_some.mp h).2).flow
  refine ⟨hs ++ hs', run_append_eq_some.mpr ⟨_, hhost, hhost'⟩, ms ++ ms', ?_, ?_⟩
  · rw [hms', hms, List.append_assoc]
  · rw [received_append, List.append_assoc, List.filterMap_append, ← heq]
    rcases hflow with hflow | ⟨⟨r, hr, hfailed⟩, rfl, rfl, hnil⟩
    · rw [hflow, List.append_assoc]
    · -- There was no message in what the test dropped.
      have hnone : r.msg = none := by
        by_contra hsome
        have := hi r hr (Option.isSome_iff_ne_none.mpr hsome)
        simp [hfailed] at this
      have hold : s.unput = [] := by simp [Node.unput, Listener.message?, hr, hnone]
      rw [hnil, hold]
      simp [received]

end Flow

/-- In every run of a node, for each peer: what the calls of `Recv` returned so far are, in this
order, the messages of the peer that `Host.listen` has taken, those in the buffer, and at most one
that `Connection.Listen` is about to send. The host itself goes through a run of `Host.next`. What
it receives, with a message that `Host.listen` has decoded and not tested yet, is in order and
without repetition a part of what can be decoded of the messages that were taken. It is all of it
when no handler puts its error in the place of a decoded message. -/
theorem messages_in_order (codec : Codec) (name : PeerName) (peers : List PeerName) (size : Nat)
    {es : List NodeEvent} {s : Node}
    (hrun : run (Node.step codec) (Node.init name peers size) es = some s) :
    (∀ peer, s.returned peer = ofPeer peer s.msgs.received ++ ofPeer peer s.msgs.buffer ++
        (s.listeners peer).pending) ∧
      (∃ hs, run Host.next (Host.start name peers 0) hs = some s.host ∧
        (received hs ++ s.unput).Sublist
          (s.msgs.received.filterMap fun m => decoded codec m.2)) ∧
      (run (restrict (Node.step codec) Node.undisturbed) (Node.init name peers size) es = some s →
        ∃ hs, run Host.next (Host.start name peers 0) hs = some s.host ∧
          received hs ++ s.unput = s.msgs.received.filterMap fun m => decoded codec m.2) := by
  refine ⟨fun peer => ?_, ?_, fun hclean => ?_⟩
  · -- What was sent on a channel is what was received and what is in its buffer.
    have hflow : FlowInv s := run_invariant (fun _ _ _ h hi => FlowInv.step hi (Node.step_move h))
      hrun fun peer => rfl
    rw [hflow peer, s.msgs.order, ofPeer_append]
  · obtain ⟨hs, hhost, ms, hms, hsub⟩ := node_host_run rfl hrun
    obtain rfl : s.msgs.received = ms := hms
    exact ⟨hs, hhost, hsub⟩
  · obtain ⟨hs, hhost, ms, hms, heq⟩ := node_host_run_undisturbed rfl hclean
    obtain rfl : s.msgs.received = ms := hms
    exact ⟨hs, hhost, heq⟩

/-- `Connection.Listen` waits, and the peer is dialed. -/
def openRun : List NodeEvent := .head "b" :: (dialRun 7).map .pool

/-- A call of `Replicate` after that, and the vote of the peer. -/
def answeredRun : List NodeEvent :=
  openRun ++ [.opened "b", .host (.replicate "t" (mkdirRequest "p" 0)), .host (.task 0 .run),
    .broadcast 0, .pool (.task 4 .run), .pool (.task 4 .run), .pool (.task 4 (.operated none)),
    .broadcasted 0 ["b"], .pool (.task 3 .run), .pool (.task 3 .run),
    .recv "b" (.accepted (frame [1]) .eof none), .received "b", .sink "b", .receive, .test,
    .host .notify, .host (.task 0 .run), .host (.task 0 .run)]

/-- The one message of `answeredRun`. -/
def answerCodec : Codec := tableCodec [([1], newResponseMessage "t" "b" ack)]

/-- The vote of the peer reaches the host, through `Recv`, the channel and the decoder. -/
theorem messages_in_order_answered :
    ∃ s hs, run (Node.step answerCodec) (Node.init "a" ["b"] 1) answeredRun = some s ∧
      s.returned "b" = [{ data := [1] }] ∧ run Host.next (Host.start "a" ["b"] 0) hs = some s.host ∧
      received hs = [newResponseMessage "t" "b" ack] := by
  have hrun : (run (restrict (Node.step answerCodec) Node.undisturbed) (Node.init "a" ["b"] 1)
      answeredRun).any (fun s => decide (s.msgs.received = [("b", { data := [1] })] ∧
        s.msgs.buffer = [] ∧ s.listeners "b" = .head ∧ s.unput = [])) = true := by decide
  rw [Option.any_eq_true] at hrun
  obtain ⟨s, hclean, hobs⟩ := hrun
  obtain ⟨hreceived, hbuffer, hhead, hunput⟩ := of_decide_eq_true hobs
  have hs := run_of_restrict hclean
  obtain ⟨horder, -, hall⟩ := messages_in_order answerCodec "a" ["b"] 1 hs
  obtain ⟨es, hhost, hes⟩ := hall hclean
  refine ⟨s, es, hs, ?_, hhost, ?_⟩
  · rw [horder "b", hreceived, hbuffer, hhead]
    rfl
  · rw [hunput, List.append_nil, hreceived] at hes
    rw [hes]
    decide

section Wake
variable {codec : Codec} {s s' : Node}

/-- While `Connection.Listen` waits for a connection that is alive, a goroutine of `Establish` waits
for it. -/
def WakeInv (s : Node) : Prop :=
  ∀ peer, s.listeners peer = .wait → (s.pool.pool peer).status = .alive → 0 < s.opened peer

/-- A step of the pool neither starts nor ends the wait. Both are steps of `Connection.Listen`
itself. -/
theorem observe_eq_wait {p : Pool} {e : Connection.Event} {pc : NodeListenPc} :
    pc.observe p e = .wait ↔ pc = .wait := by
  unfold NodeListenPc.observe
  split
  · split <;> simp
  · rfl

/-- A connection that becomes alive is opened by an `Establish`. There is no other place where the
status is set to alive, and the goroutine that signals it is started in the same step. -/
theorem opens_of_alive {p p' : Pool} {e : Connection.Event} {peer : PeerName}
    (h : p.step e = some p') (hold : (p.pool peer).status ≠ .alive)
    (hnew : (p'.pool peer).status = .alive) : opens? p e = some peer := by
  cases Connection.step_move h with
  | operate | close | drop => exact absurd hnew hold
  | task ref input t o ht hm =>
    have hmove := hm.conn peer
    rw [show ((p.apply ref o).pool peer) = o.pool.pool peer from rfl] at hnew
    revert hnew hmove
    generalize o.pool.pool peer = c'
    intro hnew hmove
    cases hmove with
    | assign handler hestablish hp hs hl =>
      subst hestablish hp
      -- Of the moves at this point of `Establish`, only the assignment makes it alive.
      cases hm with
      | assign | late => simp [opens?, mover?, ht, hl, hs]
      | unresolved handler pc input err hpc => obtain ⟨ctr, hpc | hpc⟩ := hpc <;> cases hpc
    | mark => cases hnew
    | keep | count | reset => exact absurd hnew hold

/-- What the steps of the pool mean for the wait: a step that makes the connection alive also starts
the goroutine that sends the signal. -/
private theorem WakeInv.pool (hi : WakeInv s) {e : Connection.Event} {pool : Pool}
    (hs : s.pool.step e = some pool) : WakeInv (s.afterPool e pool) := by
  intro peer hw halive
  have hwait : s.listeners peer = .wait := observe_eq_wait.mp hw
  show 0 < s.opened peer + (if opens? s.pool e = some peer then 1 else 0)
  by_cases hold : (s.pool.pool peer).status = .alive
  · have hpos := hi peer hwait hold
    omega
  · rw [if_pos (opens_of_alive hs hold halive)]
    omega

/-- A call of `Recv` or of `Pool.Close` changes no connection. It only adds its goroutine. -/
private theorem pool_of_spawn {p p' : Pool} {e : Connection.Event} (h : p.step e = some p')
    (he : (∃ peer, e = .operate peer) ∨ e = .close) : p'.pool = p.pool := by
  cases Connection.step_move h with
  | operate | close => rfl
  | drop | task => rcases he with ⟨peer, he⟩ | he <;> cases he

/-- A step of one `Connection.Listen`, away from the wait or to it. The second hypothesis on `pc` is
the one that the code checks before it waits. -/
private theorem WakeInv.update (hi : WakeInv s) {peer : PeerName} {pc : NodeListenPc}
    (hpool : s'.pool.pool = s.pool.pool) (hopened : ∀ q, q ≠ peer → s'.opened q = s.opened q)
    (hl : s'.listeners = Function.update s.listeners peer pc)
    (hpc : pc ≠ .wait ∨ (s.pool.pool peer).status ≠ .alive) : WakeInv s' := by
  intro q hw halive
  rw [hpool] at halive
  rw [hl] at hw
  by_cases hq : q = peer
  · subst hq
    rw [Function.update_self] at hw
    rcases hpc with hpc | hdead
    · exact absurd hw hpc
    · -- It waits, but the connection is not alive.
      exact absurd halive hdead
  · rw [Function.update_of_ne hq] at hw
    rw [hopened q hq]
    exact hi q hw halive

/-- Every step of a node keeps this. A connection becomes alive by an `Establish`, which from then
on waits for `Connection.Listen`, and `Connection.Listen` starts to wait only when it finds the
connection not alive. -/
theorem WakeInv.step {e : NodeEvent} (hi : WakeInv s) (hm : NodeMove codec s e s') :
    WakeInv s' := by
  cases hm with
  | pool e pool ha hs => exact hi.pool hs
  | recv peer outcome ref m pool hl hs =>
    have hpool := hi.pool hs
    exact hpool.update rfl (fun _ _ => rfl) rfl (.inl (by simp))
  -- The only step that starts to wait has found the connection dead.
  | wait peer hl hd => exact hi.update rfl (fun _ _ => rfl) rfl (.inr (by simp [hd]))
  | head peer pool hl hs =>
    exact hi.update (pool_of_spawn hs (.inl ⟨peer, rfl⟩)) (fun _ _ => rfl) rfl (.inl (by simp))
  | opened peer pool hl hs =>
    exact hi.update (pool_of_spawn hs (.inl ⟨peer, rfl⟩))
      (fun q hq => Function.update_of_ne hq _ _) rfl (.inl (by simp))
  | unopened peer hl hc => exact hi.update rfl (fun _ _ => rfl) rfl (.inl (by simp))
  | received peer ref m hl ht => exact hi.update rfl (fun _ _ => rfl) rfl (.inl (by simp))
  | sink peer m msgs hl hm => exact hi.update rfl (fun _ _ => rfl) rfl (.inl (by simp))
  | cancel pool hc hs =>
    intro peer hw halive
    rw [show pool.pool = s.pool.pool from pool_of_spawn hs (.inr rfl)] at halive
    exact hi peer hw halive
  | _ => exact hi

end Wake

/-- In every run of a node, whenever `Connection.Listen` waits for a connection that is alive,
`WaitForOpen` can return, and `Recv` is called next. No wake-up is lost, however often the
connection was closed and established before. -/
theorem listen_woken (codec : Codec) (name : PeerName) (peers : List PeerName) (size : Nat)
    {s : Node} (hs : Reaches (Node.step codec) (Node.init name peers size) s)
    (hrunning : s.stopped = false) {peer : PeerName} (hpeer : peer ∈ peers)
    (hwait : s.listeners peer = .wait) (halive : (s.pool.pool peer).status = .alive) :
    ∃ s' ref, s.step codec (.opened peer) = some s' ∧ s'.listeners peer = .recv ref none ∧
      s'.pool.tasks[ref]? = some (.operate peer .check) := by
  have hinv : WakeInv s := hs.invariant (fun _ _ _ h hi => WakeInv.step hi (Node.step_move h))
    fun peer hw => by cases hw
  have hpeers : s.pool.peers = peers.dedup := by
    refine hs.invariant (I := fun s => s.pool.peers = peers.dedup) (fun s e s' h heq => ?_) rfl
    have hreach := Node.pool_reaches h
    exact hreach.invariant (I := fun p => p.peers = peers.dedup)
      (fun _ _ _ h heq => (Connection.peers_step h).trans heq) heq
  -- A goroutine of `Establish` waits, which is what `WaitForOpen` needs to return.
  have hpos := hinv peer hwait halive
  have htasks : .panicked ∉ s.pool.tasks := by
    simp only [Node.stopped, Bool.or_eq_false_iff, decide_eq_false_iff_not] at hrunning
    exact hrunning.2
  have hstep : s.pool.step (.operate peer) =
      some { s.pool with tasks := s.pool.tasks ++ [.operate peer .check] } := by
    simp [Pool.step, htasks, hpeers, hpeer]
  have hopened : s.step codec (.opened peer) = some { s with
      pool := { s.pool with tasks := s.pool.tasks ++ [.operate peer .check] }
      listeners := Function.update s.listeners peer (.recv s.pool.tasks.length none)
      opened := Function.update s.opened peer (s.opened peer - 1) } := by
    simp [Node.step, hrunning, hwait, hpos, Node.startRecv, hstep]
  exact ⟨_, s.pool.tasks.length, hopened, by simp, by simp⟩

/-- After `openRun` the connection is open, and `Connection.Listen` goes on. It had waited for the
signal since its start. -/
theorem listen_woken_openRun :
    ∃ s s', Reaches (Node.step answerCodec) (Node.init "a" ["b"] 1) s ∧ s.listeners "b" = .wait ∧
      (s.pool.pool "b").aliveOn 7 ∧ s.step answerCodec (.opened "b") = some s' := by
  have hrun : (run (Node.step answerCodec) (Node.init "a" ["b"] 1) openRun).any (fun s =>
      decide (s.stopped = false ∧ s.listeners "b" = .wait ∧ (s.pool.pool "b").aliveOn 7)) =
        true := by decide
  obtain ⟨s, hs, hobs⟩ := Reaches.of_any _ _ _ hrun
  obtain ⟨hrunning, hwait, halive⟩ := of_decide_eq_true hobs
  obtain ⟨s', -, hstep, -⟩ :=
    listen_woken answerCodec "a" ["b"] 1 hs hrunning (by simp) hwait halive.1
  exact ⟨s, s', hs, hwait, halive, hstep⟩

end ReplicatedFs.P2p
