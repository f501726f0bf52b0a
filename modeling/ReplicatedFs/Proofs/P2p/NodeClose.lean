import ReplicatedFs.Proofs.P2p.NodeCommit

/-!
# `ReplicatedFs.Proofs.P2p.NodeClose`: a node after `Host.Close`

`Host.Close` waits until there are no transactions, and closes the pool after that. In between a new
call of `Replicate` may come, and nothing keeps calls from coming later either: `Host.Close` leaves
the host as it is. What stops them is the pool. All its connections are dead from then on, so
`Broadcast` finds too few of them.

* `closed_never_permits`: after `Host.Close` has returned, a call of `Replicate` that has not made
  its broadcast yet does not return nil, and no further `Send` is made.
-/

set_option autoImplicit false

namespace ReplicatedFs.P2p

open Protobuf
open Connection (Pool PoolInv MultiErr)
open Library

/-- The state of `Host.Close` is the one of the `Pool.Close` that it calls, and a broadcast belongs
to a goroutine of the host. -/
structure CloseInv (s : Node) : Prop where
  pool : PoolInv s.pool
  returned : ∀ errs, s.close = some (.returned errs) →
    ∃ ref : Nat, s.pool.tasks[ref]? = some (.shut (.returned errs))
  refs : ∀ b ∈ s.broadcasts, b.ref < s.host.tasks.length

section Close
variable {codec : Codec} {s s' : Node} {e : NodeEvent}

/-- After `Pool.Close` there is no active connection. The connections that it closed stay closed. -/
theorem inactive_of_returned {p : Pool} (hi : PoolInv p) {errs : MultiErr}
    (h : .shut (.returned errs) ∈ p.tasks) : p.activeConnections = 0 := by
  rw [hi.links.active]
  have hsum : (p.peers.map fun peer => (p.pool peer).busy.toNat).sum = 0 := by
    refine List.sum_eq_zero fun n hn => ?_
    obtain ⟨peer, hp, rfl⟩ := List.mem_map.mp hn
    rw [hi.shut.cleared _ h peer hp]
    rfl
  rw [hsum]
  rfl

/-- A goroutine of the pool that has come to its end stays there, through all steps of the node.
This is used for the call of `Pool.Close`, whose return `Host.Close` waits for and which is still to
be found afterwards. -/
private theorem task_of_nodeMove {r : Nat} {t : Connection.Task} (hm : NodeMove codec s e s')
    (ht : s.pool.tasks[r]? = some t)
    (hfinal : ∀ p input, Connection.Pool.taskStep p t input = none) :
    s'.pool.tasks[r]? = some t := by
  -- Most steps of a node are at most one step of its pool.
  have hpool : ∀ {e : Connection.Event} {pool : Pool}, s.pool.step e = some pool →
      pool.tasks[r]? = some t :=
    fun h => task_of_step h (ne_of_final h ht (hfinal _)) ht
  cases hm with
  | broadcast ref hc hactive =>
    exact (List.getElem?_append_left (lt_length_of_getElem? ht)).trans ht
  | pool e pool ha hs => exact hpool hs
  | recv peer outcome ref m pool hl hs => exact hpool hs
  | head peer pool hl hs => exact hpool hs
  | opened peer pool hl hs => exact hpool hs
  | cancel pool hc hs => exact hpool hs
  | _ => exact ht

/-- The host keeps its goroutines, also those that have returned. So none of them loses its place in
the list. -/
private theorem length_tasks_le_of_move (hm : NodeMove codec s e s') :
    s.host.tasks.length ≤ s'.host.tasks.length := by
  have hnext : ∀ {e : Event} {h' : Host}, s.host.next e = some h' →
      s.host.tasks.length ≤ h'.tasks.length := by
    intro e h' h
    obtain ⟨sent, hm⟩ := Host.next_move h
    cases hm <;> simp [Host.apply]
  rcases hm.host_cases with hsame | ⟨e', h⟩
  · rw [hsame]
  · exact hnext h

/-- The goroutines whose broadcasts there are: one more when a `Broadcast` gets past its look at
`activeConnections`, and else the same. -/
theorem NodeMove.refs (hm : NodeMove codec s e s') :
    s'.broadcasts.map BroadcastCall.ref = s.broadcasts.map BroadcastCall.ref ∨
      ∃ ref, s.calls ref = true ∧ s.pool.activeConnections = s.pool.peers.length ∧
        s'.broadcasts.map BroadcastCall.ref = s.broadcasts.map BroadcastCall.ref ++ [ref] := by
  cases hm with
  | broadcast ref hc hactive => exact .inr ⟨ref, hc, hactive, by simp⟩
  | broadcasted index reached b h' hb hopen hended hs =>
    -- The call is marked as done, in its place.
    refine .inl (List.ext_getElem? fun j => ?_)
    by_cases hj : j = index
    · subst hj
      rw [List.getElem?_map, getElem?_set_self hb, List.getElem?_map, hb]
      rfl
    · simp [List.getElem?_set_ne (Ne.symm hj)]
  | pool e pool ha hs => exact .inl (by simp [Node.afterPool])
  | recv peer outcome ref m pool hl hs => exact .inl (by simp [Node.afterPool])
  | _ => exact .inl rfl

/-- Every step of a node keeps the invariant. `Host.Close` ends in the step in which it sees its
`Pool.Close` return, with the errors of that. From then on the pool has a returned `Close`, and no
connection becomes active again. -/
theorem CloseInv.step (hi : CloseInv s) (h : s.step codec e = some s') : CloseInv s' := by
  have hm := Node.step_move h
  refine ⟨?_, fun errs hclose => ?_, fun b hb => ?_⟩
  · exact (Node.pool_reaches h).invariant (fun _ _ _ => PoolInv.step) hi.pool
  · -- `Host.Close` has returned in this step or before.
    have hcases : s.close = some (.returned errs) ∨
        ∃ ref : Nat, s.pool.tasks[ref]? = some (.shut (.returned errs)) := by
      cases hm with
      | closed ref errs' hc ht =>
        cases hclose
        exact .inr ⟨ref, ht⟩
      | close | drained | cancel => cases hclose
      | _ => exact .inl hclose
    obtain ⟨ref, ht⟩ := hcases.elim (hi.returned errs) id
    exact ⟨ref, task_of_nodeMove hm ht fun p input => by cases input <;> rfl⟩
  · refine lt_of_lt_of_le ?_ (length_tasks_le_of_move hm)
    have hmem : b.ref ∈ s'.broadcasts.map BroadcastCall.ref := List.mem_map_of_mem hb
    have hold : b.ref ∈ s.broadcasts.map BroadcastCall.ref → b.ref < s.host.tasks.length := by
      intro hmem
      obtain ⟨b', hb', heq⟩ := List.mem_map.mp hmem
      rw [← heq]
      exact hi.refs b' hb'
    rcases hm.refs with hsame | ⟨ref, hcalls, -, hnew⟩
    · rw [hsame] at hmem
      exact hold hmem
    · rw [hnew] at hmem
      rcases List.mem_append.mp hmem with hmem | hmem
      · exact hold hmem
      · -- The goroutine that calls `Broadcast` is there.
        rw [List.mem_singleton.mp hmem]
        simp only [Node.calls, Bool.and_eq_true, Option.any_eq_true] at hcalls
        obtain ⟨⟨t, ht, -⟩, -⟩ := hcalls
        exact lt_length_of_getElem? ht

/-- After `Host.Close` no `Broadcast` gets past its look at `activeConnections`. -/
private theorem refs_of_closed (hi : CloseInv s) {errs : MultiErr}
    (hclosed : s.close = some (.returned errs)) (hpeers : s.pool.peers ≠ [])
    (hm : NodeMove codec s e s') :
    s'.broadcasts.map BroadcastCall.ref = s.broadcasts.map BroadcastCall.ref := by
  rcases hm.refs with hsame | ⟨ref, -, hactive, -⟩
  · exact hsame
  · obtain ⟨r, hr⟩ := hi.returned errs hclosed
    rw [inactive_of_returned hi.pool (List.mem_of_getElem? hr)] at hactive
    have hlen : 0 < s.pool.peers.length := List.length_pos_iff.mpr hpeers
    omega

/-- `Host.Close` stays where it is after its return. It is called only once in the model. -/
private theorem close_of_closed {errs : MultiErr} (hclosed : s.close = some (.returned errs))
    (hm : NodeMove codec s e s') : s'.close = some (.returned errs) := by
  cases hm with
  | close hc => rw [hclosed] at hc; cases hc
  | drained hc hts => rw [hclosed] at hc; cases hc
  | cancel pool hc hs => rw [hclosed] at hc; cases hc
  | closed ref errs' hc ht => rw [hclosed] at hc; cases hc
  | _ => exact hclosed

/-- What the end of a node rests on. -/
structure ClosableInv (s : Node) : Prop where
  close : CloseInv s
  ledger : LedgerInv (fun _ _ => True) s
  peers : s.pool.peers ≠ []

end Close

/-- Take any run of a node in which `Host.Close` has returned, and let it go on in any way. Then no
further `Broadcast` gets as far as its calls of `Send`. A call of `Replicate` that returns nil at
the end was made before, and had made its broadcast before. -/
theorem closed_never_permits (codec : Codec) (name : PeerName) (peers : List PeerName) (size : Nat)
    (hpeers : peers ≠ []) {s s' : Node}
    (hs : Reaches (Node.step codec) (Node.init name peers size) s) {errs : MultiErr}
    (hclosed : s.close = some (.returned errs)) (hs' : Reaches (Node.step codec) s s') :
    s'.broadcasts.map BroadcastCall.ref = s.broadcasts.map BroadcastCall.ref ∧
      ∀ i t, s'.host.tasks[i]? = some t → t.goroutine = .replicate (.returned none) →
        i < s.host.tasks.length ∧ ∃ b ∈ s.broadcasts, b.ref = i := by
  have hstep : ∀ s e s', Node.step codec s e = some s' → ClosableInv s → ClosableInv s' := by
    intro s e s' h hi
    refine ⟨hi.close.step h, hi.ledger.step (Node.step_move h) fun _ _ _ _ _ _ => trivial, ?_⟩
    exact (Node.pool_reaches h).invariant (I := fun p => p.peers ≠ [])
      (fun _ _ _ h hp => by rwa [Connection.peers_step h]) hi.peers
  have hinit : ClosableInv (Node.init name peers size) := by
    refine ⟨⟨.init name peers, nofun, nofun⟩, .init _ name peers size, ?_⟩
    obtain ⟨peer, hpeer⟩ := List.exists_mem_of_ne_nil _ hpeers
    exact List.ne_nil_of_mem (List.mem_dedup.mpr hpeer)
  have hstart := hs.invariant hstep hinit
  -- From here on `Host.Close` stays returned, and the broadcasts are the same.
  obtain ⟨hend, -, hrefs⟩ := hs'.invariant (I := fun m => ClosableInv m ∧
    m.close = some (.returned errs) ∧
      m.broadcasts.map BroadcastCall.ref = s.broadcasts.map BroadcastCall.ref)
    (fun m e m' h hi => ⟨hstep m e m' h hi.1, close_of_closed hi.2.1 (Node.step_move h),
      (refs_of_closed hi.1.close hi.2.1 hi.1.peers (Node.step_move h)).trans hi.2.2⟩)
    ⟨hstart, hclosed, rfl⟩
  refine ⟨hrefs, fun i t ht hg => ?_⟩
  obtain ⟨b, hb, href, -⟩ := hend.ledger.ledger i t ht (by rw [hg]; rfl)
  have hmem : i ∈ s.broadcasts.map BroadcastCall.ref := by
    rw [← hrefs, ← href]
    exact List.mem_map_of_mem hb
  obtain ⟨b', hb', rfl⟩ := List.mem_map.mp hmem
  exact ⟨hstart.close.refs b' hb', b', hb', rfl⟩

/-- `answeredRun`, and `Host.Close` after it. -/
def closedRun : List NodeEvent :=
  answeredRun ++ [.close, .closing, .closing, .pool (.task 5 .run), .pool (.task 5 .run),
    .pool (.task 5 (.closed none)), .pool (.task 5 (.visit "b")), .pool (.task 5 .run),
    .pool (.task 5 (.closed none)), .pool (.task 5 .run), .closing]

/-- A call of `Replicate` after `closedRun`. -/
def lateRun : List NodeEvent :=
  [.host (.replicate "u" (mkdirRequest "p" 0)), .host (.task 1 .run), .broadcast 1,
    .host (.task 1 .run)]

/-- Of two calls the first one was permitted. The second one came after `Host.Close`, has returned,
and not with nil. -/
theorem closed_never_permits_lateRun :
    ∃ s s' t, Reaches (Node.step answerCodec) (Node.init "a" ["b"] 1) s ∧
      s.close = some (.returned []) ∧ s.host.tasks.length = 1 ∧
      Reaches (Node.step answerCodec) s s' ∧ s'.host.tasks[1]? = some t ∧
      t.goroutine.alive = false ∧ t.goroutine ≠ .replicate (.returned none) := by
  have hrun : (run (Node.step answerCodec) (Node.init "a" ["b"] 1) closedRun).any (fun s =>
      decide (s.close = some (.returned []) ∧ s.host.tasks.length = 1) &&
        (run (Node.step answerCodec) s lateRun).any fun s' =>
          s'.host.tasks[1]?.any fun t => !t.goroutine.alive) = true := by decide
  obtain ⟨s, hs, hobs⟩ := Reaches.of_any _ _ _ hrun
  simp only [Bool.and_eq_true, decide_eq_true_eq] at hobs
  obtain ⟨⟨hclosed, hlength⟩, hlate⟩ := hobs
  obtain ⟨s', hs', hobs'⟩ := Reaches.of_any _ _ _ hlate
  simp only [Option.any_eq_true, Bool.not_eq_true'] at hobs'
  obtain ⟨t, ht, hdead⟩ := hobs'
  refine ⟨s, s', t, hs, hclosed, hlength, hs', ht, hdead, fun hg => ?_⟩
  obtain ⟨-, hcalls⟩ := closed_never_permits answerCodec "a" ["b"] 1 (by simp) hs hclosed hs'
  -- A call that was permitted would be one of those from before the end of `Close`.
  have hlt := (hcalls 1 t ht hg).1
  omega

end ReplicatedFs.P2p
