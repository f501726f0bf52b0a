import ReplicatedFs.P2p.Node
import ReplicatedFs.Proofs.Connection.PoolStep
import ReplicatedFs.Proofs.P2p.HostRun

/-!
# `ReplicatedFs.Proofs.P2p.NodeStep`: the steps of a node

`NodeMove` says once what a step of a node can do, and `Node.step_move` that there are no other
steps. `NodeMove.host_cases` and `Node.pool_reaches` are what the host and the pool see of it, and
`NodeMove.flow` is what it means for the messages between them.
-/

set_option autoImplicit false

namespace ReplicatedFs.P2p

open Protobuf
open Connection (ConnId Pool PoolMessage MultiErr RecvOutcome)
open Library

/-- The goroutine that moves is the one of the label. The other events of the pool have no mover. -/
theorem mover?_eq_some {p : Pool} {e : Connection.Event} {ref : Nat} {t : Connection.Task}
    {input : Connection.Input} :
    mover? p e = some (ref, t, input) ↔ e = .task ref input ∧ p.tasks[ref]? = some t := by
  cases e with
  | task ref' input' =>
    simp only [mover?, Option.map_eq_some_iff, Prod.mk.injEq, Connection.Event.task.injEq]
    constructor
    · rintro ⟨u, hu, rfl, rfl, rfl⟩
      exact ⟨⟨rfl, rfl⟩, hu⟩
    · rintro ⟨⟨rfl, rfl⟩, ht⟩
      exact ⟨t, ht, rfl, rfl, rfl⟩
  | _ => simp [mover?]

/-- The message that `Host.listen` reads, if it is one. -/
def decoded (codec : Codec) (m : PoolMessage) : Option Message :=
  if m.err.isSome then none else (codec.readMessage m.data).toOption

/-- The steps of a node, one constructor for each thing that can happen. A constructor has what its
step has found and done as arguments, so that a proof about all steps is a case split on it and
never opens `Node.step`. `refused` and `crash` are left open in the label, since several labels end
that way and no proof needs to know which. -/
inductive NodeMove (codec : Codec) (s : Node) : NodeEvent → Node → Prop
  | host (e : Event) (h' : Host) (he : e.isBroadcast = false) (hs : s.host.next e = some h') :
      NodeMove codec s (.host e) { s with host := h' }
  | refused (e : NodeEvent) (ref : Nat) (reason : Refusal) (h' : Host) (hc : s.calls ref = true)
      (hs : s.host.next (.task ref (.broadcast (.refused reason))) = some h') :
      NodeMove codec s e { s with host := h' }
  | broadcast (ref : Nat) (hc : s.calls ref = true)
      (hactive : s.pool.activeConnections = s.pool.peers.length) :
      NodeMove codec s (.broadcast ref)
        { s with
            pool := { s.pool with tasks := s.pool.tasks ++ s.pool.peers.map (.operate · .check) }
            broadcasts := s.broadcasts ++
              [{ ref
                 sends := (s.pool.peers.zipIdx s.pool.tasks.length).map fun c =>
                   { peer := c.1, ref := c.2 } }] }
  | broadcasted (index : Nat) (reached : List PeerName) (b : BroadcastCall) (h' : Host)
      (hb : s.broadcasts[index]? = some b) (hopen : b.done = false)
      (hended : ∀ c ∈ b.sends, s.pool.tasks[c.ref]? = some .ended)
      (hs : s.host.next (.task b.ref (.broadcast
        (.sent ((b.sends.filter fun c => c.failed = some true).map SendCall.peer) reached))) =
          some h') :
      NodeMove codec s (.broadcasted index reached)
        { s with host := h', broadcasts := s.broadcasts.set index { b with done := true } }
  | skip (m : PeerName × PoolMessage) (msgs : Channel (PeerName × PoolMessage))
      (hm : s.msgs.receive = some (m, msgs)) (herr : m.2.err.isSome) :
      NodeMove codec s .receive { s with msgs }
  | read (m : PeerName × PoolMessage) (msgs : Channel (PeerName × PoolMessage))
      (hidle : s.listener.reading = none) (hm : s.msgs.receive = some (m, msgs))
      (herr : m.2.err = none) :
      NodeMove codec s .receive
        { s with msgs, listener := s.listener.read (codec.readMessage m.2.data) }
  | drop (r : Reading) (hr : s.listener.reading = some r) (hf : r.failed = true) :
      NodeMove codec s .test { s with listener := s.listener.next }
  | receive (msg : Message) (h' : Host) (hr : s.listener.reading = some ⟨some msg, false⟩)
      (hs : s.host.next (.receive msg) = some h') :
      NodeMove codec s .test { s with host := h', listener := s.listener.next }
  | assign (ref : Nat) (l : Listener) (hl : s.listener.assign s.host ref = some l) :
      NodeMove codec s (.assign ref) { s with listener := l }
  | stop : NodeMove codec s .stop { s with listening := false }
  | pool (e : Connection.Event) (pool : Pool) (ha : s.admits e = true)
      (hs : s.pool.step e = some pool) : NodeMove codec s (.pool e) (s.afterPool e pool)
  | recv (peer : PeerName) (outcome : RecvOutcome) (ref : Nat) (m : PoolMessage) (pool : Pool)
      (hl : s.listeners peer = .recv ref none)
      (hs : s.pool.step (.task ref (.operated (recvError outcome))) = some pool) :
      NodeMove codec s (.recv peer outcome)
        { s.afterPool (.task ref (.operated (recvError outcome))) pool with
            listeners := Function.update
              (s.afterPool (.task ref (.operated (recvError outcome))) pool).listeners peer
              (.recv ref (some m)) }
  | crash (e : NodeEvent) : NodeMove codec s e { s with crashed := true }
  | wait (peer : PeerName) (hl : s.listeners peer = .head)
      (hd : (s.pool.pool peer).status = .dead) :
      NodeMove codec s (.head peer)
        { s with listeners := Function.update s.listeners peer .wait }
  | head (peer : PeerName) (pool : Pool) (hl : s.listeners peer = .head)
      (hs : s.pool.step (.operate peer) = some pool) :
      NodeMove codec s (.head peer)
        { s with
            pool
            listeners := Function.update s.listeners peer (.recv s.pool.tasks.length none) }
  | opened (peer : PeerName) (pool : Pool) (hl : s.listeners peer = .wait)
      (hs : s.pool.step (.operate peer) = some pool) :
      NodeMove codec s (.opened peer)
        { s with
            pool
            listeners := Function.update s.listeners peer (.recv s.pool.tasks.length none)
            opened := Function.update s.opened peer (s.opened peer - 1) }
  | unopened (peer : PeerName) (hl : s.listeners peer = .wait) (hc : s.cancelled = true) :
      NodeMove codec s (.unopened peer)
        { s with listeners := Function.update s.listeners peer .returned }
  | received (peer : PeerName) (ref : Nat) (m : PoolMessage)
      (hl : s.listeners peer = .recv ref (some m)) (ht : s.pool.tasks[ref]? = some .ended) :
      NodeMove codec s (.received peer)
        { s with
            listeners := Function.update s.listeners peer (.sink m)
            returned := Function.update s.returned peer (s.returned peer ++ [m]) }
  | sink (peer : PeerName) (m : PoolMessage) (msgs : Channel (PeerName × PoolMessage))
      (hl : s.listeners peer = .sink m) (hm : s.msgs.send (peer, m) = some msgs) :
      NodeMove codec s (.sink peer)
        { s with msgs, listeners := Function.update s.listeners peer .head }
  | close (hc : s.close = none) : NodeMove codec s .close { s with close := some .wait }
  | drained (hc : s.close = some .wait) (hts : s.host.ts.entries.isEmpty = true) :
      NodeMove codec s .closing { s with close := some .cancel }
  | cancel (pool : Pool) (hc : s.close = some .cancel) (hs : s.pool.step .close = some pool) :
      NodeMove codec s .closing
        { s with pool, cancelled := true, close := some (.conn s.pool.tasks.length) }
  | closed (ref : Nat) (errs : MultiErr) (hc : s.close = some (.conn ref))
      (ht : s.pool.tasks[ref]? = some (.shut (.returned errs))) :
      NodeMove codec s .closing { s with close := some (.returned errs) }

section Moves
variable {codec : Codec} {s s' : Node}

/-- A step of the host leaves the rest of the node alone. So what is known of the pool and the
channel stays. -/
private theorem Node.hostStep_eq_some {e : Event} (h : s.hostStep e = some s') :
    ∃ h', s.host.next e = some h' ∧ s' = { s with host := h' } := by
  obtain ⟨h', hs, rfl⟩ := Option.map_eq_some_iff.mp h
  exact ⟨h', hs, rfl⟩

/-- `Broadcast` is refused when a connection is missing. Otherwise its goroutines start. -/
private theorem Node.broadcast_move {ref : Nat} (h : s.broadcast ref = some s') :
    NodeMove codec s (.broadcast ref) s' := by
  unfold Node.broadcast at h
  split at h
  · rename_i hc
    split at h
    · -- The pool answers at once, with `ErrPeerIsDown`.
      obtain ⟨h', hs, rfl⟩ := Node.hostStep_eq_some h
      exact .refused _ ref .peerIsDown h' hc hs
    · rename_i hactive
      cases h
      exact .broadcast ref hc (not_not.mp hactive)
  · cases h

/-- `Broadcast` returns when all its goroutines have ended. What it returns to the host is made of
what these have left behind. -/
private theorem Node.broadcasted_move {index : Nat} {reached : List PeerName}
    (h : s.broadcasted index reached = some s') :
    NodeMove codec s (.broadcasted index reached) s' := by
  unfold Node.broadcasted at h
  split at h
  · cases h
  · rename_i b hb
    split at h
    · rename_i hguard
      obtain ⟨m, hm, rfl⟩ := Option.map_eq_some_iff.mp h
      obtain ⟨h', hs, rfl⟩ := Node.hostStep_eq_some hm
      exact .broadcasted index reached b h' hb hguard.1 hguard.2.1 hs
    · cases h

/-- `Host.listen` skips an error of the pool, and reads everything else. It is at the head of its
loop then, with no message in hand. -/
private theorem Node.receive_move (h : s.receive codec = some s') :
    NodeMove codec s .receive s' := by
  unfold Node.receive at h
  split at h
  · rename_i hguard
    split at h
    · cases h
    · rename_i peer m msgs hm
      dsimp only at h
      split at h <;> cases h
      · rename_i herr
        exact .skip (peer, m) msgs hm herr
      · rename_i herr
        exact .read (peer, m) msgs hguard.2.2 hm (by simpa using herr)
  · cases h

/-- The test of `err` has three ways out. The third one is a panic, which is a crash of the node. -/
private theorem Node.test_move (h : s.test = some s') : NodeMove codec s .test s' := by
  unfold Node.test at h
  cases hr : s.listener.reading with
  | none => simp [hr] at h
  | some r =>
    obtain ⟨msg, failed⟩ := r
    cases failed with
    | true =>
      obtain rfl : { s with listener := s.listener.next } = s' := by
        simpa [hr, Reading.tested] using h
      exact .drop _ hr rfl
    | false =>
      cases msg with
      | none =>
        obtain rfl : { s with crashed := true } = s' := by simpa [hr, Reading.tested] using h
        exact .crash _
      | some msg =>
        obtain ⟨m, hm, rfl⟩ : ∃ m, s.hostStep (.receive msg) = some m ∧
            { m with listener := m.listener.next } = s' := by
          simpa [hr, Reading.tested] using h
        obtain ⟨h', hs, rfl⟩ := Node.hostStep_eq_some hm
        exact .receive msg h' hr hs

/-- The operation of `Recv` ends in a panic or in a message, with data or with an error. -/
private theorem Node.recv_move {peer : PeerName} {outcome : RecvOutcome}
    (h : s.recv peer outcome = some s') : NodeMove codec s (.recv peer outcome) s' := by
  unfold Node.recv at h
  split at h
  · rename_i ref hl
    split at h
    · -- Data and error differ in the message only, and the move is the same for any message.
      have hresult : ∀ m : PoolMessage,
          ((s.poolStep (.task ref (.operated (recvError outcome)))).map fun s =>
            { s with listeners := Function.update s.listeners peer (.recv ref (some m)) }) =
              some s' → NodeMove codec s (.recv peer outcome) s' := by
        intro m h
        obtain ⟨s₁, hs₁, rfl⟩ := Option.map_eq_some_iff.mp h
        obtain ⟨pool, hpool, rfl⟩ := Option.map_eq_some_iff.mp hs₁
        exact .recv peer outcome ref m pool hl hpool
      dsimp only at h
      split at h
      · cases h
        exact .crash _
      · exact hresult _ h
      · exact hresult _ h
    · cases h
  · cases h

/-- The steps of `Host.Close`, one for each point of its code. It waits for an empty map of
transactions first, and calls `Pool.Close` after that. -/
private theorem Node.closing_move (h : s.closing = some s') : NodeMove codec s .closing s' := by
  unfold Node.closing at h
  split at h
  · rename_i hc
    split at h <;> cases h
    rename_i hts
    exact .drained hc hts
  · rename_i hc
    obtain ⟨pool, hs, rfl⟩ := Option.map_eq_some_iff.mp h
    exact .cancel pool hc hs
  · rename_i ref hc
    split at h <;> cases h
    rename_i errs ht
    exact .closed ref errs hc ht
  · cases h

/-- A node has no other steps. The cases follow the labels, and most of them have one step only. The
invariants of nodes split on `NodeMove`, which names for each step the parts of the node that
change. -/
theorem Node.step_move {e : NodeEvent} (h : s.step codec e = some s') : NodeMove codec s e s' := by
  unfold Node.step at h
  split at h
  · cases h
  cases e with
  | host e =>
    dsimp only at h
    split at h
    · rename_i he
      obtain ⟨h', hs, rfl⟩ := Node.hostStep_eq_some h
      exact .host e h' he.1 hs
    · cases h
  | marshalFails ref =>
    dsimp only at h
    split at h
    · rename_i hc
      obtain ⟨h', hs, rfl⟩ := Node.hostStep_eq_some h
      exact .refused _ ref .marshal h' hc hs
    · cases h
  | broadcast ref => exact Node.broadcast_move h
  | broadcasted index reached => exact Node.broadcasted_move h
  | receive => exact Node.receive_move h
  | test => exact Node.test_move h
  | assign ref =>
    obtain ⟨l, hl, rfl⟩ := Option.map_eq_some_iff.mp h
    exact .assign ref l hl
  | stop =>
    dsimp only at h
    split at h <;> cases h
    exact .stop
  | pool e =>
    dsimp only at h
    split at h
    · rename_i ha
      obtain ⟨pool, hs, rfl⟩ := Option.map_eq_some_iff.mp h
      exact .pool e pool ha hs
    · cases h
  | recv peer outcome => exact Node.recv_move h
  | head peer =>
    dsimp only at h
    split at h
    · rename_i hl
      split at h
      · rename_i hd
        cases h
        exact .wait peer hl hd
      · obtain ⟨pool, hs, rfl⟩ := Option.map_eq_some_iff.mp h
        exact .head peer pool hl hs
    · cases h
  | opened peer =>
    dsimp only at h
    split at h
    · rename_i hl
      -- `startRecv` first, and then the count of the goroutines that wait on `openNotify`.
      obtain ⟨s₁, hs₁, rfl⟩ := Option.map_eq_some_iff.mp h
      obtain ⟨pool, hs, rfl⟩ := Option.map_eq_some_iff.mp hs₁
      exact .opened peer pool hl.1 hs
    · cases h
  | unopened peer =>
    dsimp only at h
    split at h <;> cases h
    rename_i hl
    exact .unopened peer hl.1 hl.2
  | received peer =>
    dsimp only at h
    split at h
    · rename_i ref m hl
      split at h <;> cases h
      rename_i ht
      exact .received peer ref m hl ht
    · cases h
  | sink peer =>
    dsimp only at h
    split at h
    · rename_i m hl
      obtain ⟨msgs, hm, rfl⟩ := Option.map_eq_some_iff.mp h
      exact .sink peer m msgs hl hm
    · cases h
  | close =>
    dsimp only at h
    split at h <;> cases h
    rename_i hc
    exact .close hc
  | closing => exact Node.closing_move h

/-- The host takes one step or none, so every invariant of a host holds in a node. -/
theorem NodeMove.host_cases {e : NodeEvent} (hm : NodeMove codec s e s') :
    s'.host = s.host ∨ ∃ e, s.host.next e = some s'.host := by
  cases hm with
  | host e h' he hs => exact .inr ⟨e, hs⟩
  | refused e ref reason h' hc hs => exact .inr ⟨_, hs⟩
  | broadcasted index reached b h' hb hopen hended hs => exact .inr ⟨_, hs⟩
  | receive msg h' hr hs => exact .inr ⟨_, hs⟩
  | _ => exact .inl rfl

/-- The message that `Host.listen` has decoded and not tested yet, as a list. -/
def Node.unput (s : Node) : List Message := s.listener.message?.toList

/-- What a step means for the messages. The host receives what it has read before. What it has
taken from the channel and can be decoded it has read. Only a test that finds `err` set loses a
message. -/
theorem NodeMove.flow {e : NodeEvent} (hm : NodeMove codec s e s') :
    ∃ hs ms, run Host.next s.host hs = some s'.host ∧
      s'.msgs.received = s.msgs.received ++ ms ∧
      (P2p.received hs ++ s'.unput = s.unput ++ ms.filterMap (fun m => decoded codec m.2) ∨
        (∃ r, s.listener.reading = some r ∧ r.failed = true) ∧ hs = [] ∧ ms = [] ∧
          s'.unput = []) := by
  cases hm with
  | host e h' he hs =>
    refine ⟨[e], [], run_cons_eq_some.mpr ⟨_, hs, rfl⟩, (List.append_nil _).symm, .inl ?_⟩
    cases e with
    | receive msg => cases he
    | _ => simp [P2p.received, Node.unput]
  | refused e ref reason h' hc hs =>
    exact ⟨[_], [], run_cons_eq_some.mpr ⟨_, hs, rfl⟩, (List.append_nil _).symm,
      .inl (by simp [P2p.received, Node.unput])⟩
  | broadcasted index reached b h' hb hopen hended hs =>
    exact ⟨[_], [], run_cons_eq_some.mpr ⟨_, hs, rfl⟩, (List.append_nil _).symm,
      .inl (by simp [P2p.received, Node.unput])⟩
  | skip m msgs hm herr =>
    exact ⟨[], [m], rfl, (Channel.receive_eq_some hm).2.2.1,
      .inl (by simp [P2p.received, Node.unput, decoded, herr])⟩
  | read m msgs hidle hm herr =>
    refine ⟨[], [m], rfl, (Channel.receive_eq_some hm).2.2.1, .inl ?_⟩
    cases hread : codec.readMessage m.2.data <;>
      simp [P2p.received, Node.unput, decoded, herr, hread, Listener.message?, Listener.read, hidle,
        Reading.ofResult, Except.toOption]
  -- The only step that takes a message away without a step of the host.
  | drop r hr hf => exact ⟨[], [], rfl, by simp, .inr ⟨⟨r, hr, hf⟩, rfl, rfl, rfl⟩⟩
  | receive msg h' hr hs =>
    refine ⟨[.receive msg], [], run_cons_eq_some.mpr ⟨_, hs, rfl⟩, (List.append_nil _).symm,
      .inl ?_⟩
    simp [P2p.received, Node.unput, Listener.message?, Listener.next, hr]
  | assign ref l hl =>
    refine ⟨[], [], rfl, by simp, .inl ?_⟩
    simp [P2p.received, Node.unput, Listener.message?_assign hl]
  | sink peer m msgs hl hm =>
    refine ⟨[], [], rfl, ?_, .inl (by simp [P2p.received, Node.unput])⟩
    rw [List.append_nil]
    exact (Channel.send_eq_some hm).2.2.1
  | _ => exact ⟨[], [], rfl, (List.append_nil _).symm, .inl (by simp [P2p.received, Node.unput,
      Node.afterPool])⟩

/-- The goroutines that `Broadcast` starts come one after the other. The node starts them in one
step, which is a run of the pool with one step for each peer. -/
private theorem reaches_operate {p : Pool} (hp : .panicked ∉ p.tasks) {peers : List PeerName}
    (hpeers : ∀ peer ∈ peers, peer ∈ p.peers) :
    Reaches Pool.step p { p with tasks := p.tasks ++ peers.map (.operate · .check) } := by
  -- The pool grows by one goroutine with each peer, so the induction is over all pools.
  induction peers generalizing p with
  | nil =>
    rw [List.map_nil, List.append_nil]
    exact .refl p
  | cons peer peers ih =>
    have hstep : p.step (.operate peer) =
        some { p with tasks := p.tasks ++ [.operate peer .check] } := by
      simp [Pool.step, hp, hpeers peer (by simp)]
    refine (Reaches.single hstep).trans ?_
    have hrest := ih (p := { p with tasks := p.tasks ++ [.operate peer .check] })
      (by simpa using hp)
      fun q hq => hpeers q (by simp [hq])
    simpa using hrest

/-- The pool takes any number of steps: one for most labels, none for the steps of the host, and one
for each peer in a `Broadcast`. -/
theorem Node.pool_reaches {e : NodeEvent} (h : s.step codec e = some s') :
    Reaches Pool.step s.pool s'.pool := by
  -- A pool in which a goroutine has panicked takes no steps, and neither does its node.
  have hrunning : .panicked ∉ s.pool.tasks := by
    unfold Node.step at h
    split at h
    · cases h
    · rename_i hstopped
      simp only [Node.stopped, Bool.or_eq_true, not_or, decide_eq_true_eq] at hstopped
      exact hstopped.2
  cases Node.step_move h with
  | broadcast ref hc hactive => exact reaches_operate hrunning fun peer hp => hp
  | pool e pool ha hs => exact .single hs
  | recv peer outcome ref m pool hl hs => exact .single hs
  | head peer pool hl hs => exact .single hs
  | opened peer pool hl hs => exact .single hs
  | cancel pool hc hs => exact .single hs
  | _ => exact .refl _

end Moves

end ReplicatedFs.P2p
