import ReplicatedFs.Proofs.P2p.HostRun
import ReplicatedFs.Proofs.P2p.SystemStep

/-!
# `ReplicatedFs.Proofs.P2p.Listen`: whom the receive loop waits for

`listen` looks up the transaction of a message, releases the lock and then sends on its
`NotifyChan`. Nothing wakes it up but the reader of that channel. `Task.looping` says that the
reader has a receive ahead of it.

* `HostMove.stuck` and `SystemMove.stuck`: when `listen` waits for a reader without one, no step
  frees it. The host hears nothing any more.
* `listen_waits_for_reader`: this does not happen as long as no context of a reader is done and a
  transaction gets no more messages than its reader waits for (`orderly`).
* `listen_stuck`: it does happen when the timeout of `Replicate` fires between the lookup and the
  send.
-/

set_option autoImplicit false

namespace ReplicatedFs.P2p

open ReplicatedFs.Protobuf
open Library

/-- The reader has a receive of its loop ahead of it, for a host with `n` peers. -/
def Task.looping (n : Nat) (t : Task) : Bool :=
  match t.goroutine with
  | .replicate (.check _) | .replicate (.broadcast _) => true
  | .replicate (.collect expected _) => t.taken < expected
  | .handle (.await _) | .handle (.consult _ _) | .handle (.detect _ _ _)
  | .handle (.respond _ _) => t.taken < n
  | _ => false

/-- How many messages the reader takes in all. Before its broadcast, `Replicate` waits for
none. -/
def Task.awaits (n : Nat) (t : Task) : Nat :=
  match t.goroutine with
  | .replicate (.collect expected _) => expected
  | .replicate _ => 0
  | .handle _ => n

/-- No context of a reader is done. A message comes to a new transaction, or to one that has
fewer messages than its reader waits for. -/
def orderly (h : Host) : Event → Bool
  | .task _ (.contextDone _) => false
  | .receive msg =>
    match h.ts.lookup msg.tid with
    | none => 0 < h.peers.length
    | some ref => h.tasks[ref]?.any fun t => t.inbox.length < t.awaits h.peers.length
  | _ => true

section Stuck
variable {h h' : Host} {e : Event} {sent : Option Sent} {i : Nat} {msg : Message}

/-- A reader that is at a receive has one ahead of it. The converse fails while it works on a
message. -/
theorem Task.looping_of_receiving {n : Nat} {t : Task} (hr : t.receiving n = true) :
    t.looping n = true := by
  unfold Task.receiving at hr
  unfold Task.looping
  split at hr <;> simp_all

/-- No move brings a reader back to its loop. Once it has left the loop, it never receives again. -/
theorem TaskMove.looping_of {t : Task} {input : Input} {m : Move} (hm : TaskMove h t input m)
    (hl : m.task.looping h.peers.length = true) : t.looping h.peers.length = true := by
  -- Within the loop body of a handler, the count stays as it is.
  have hbody : ∀ pc, t.goroutine = .handle pc → m.task.taken < h.peers.length →
      pc.inProgress ≠ [] → t.looping h.peers.length = true := by
    intro pc hg hlt hbody
    rw [hm.data_eq.2.1] at hlt
    cases pc <;> simp_all [Task.looping, HandlePc.inProgress]
  cases hm with
  | approve msg request response hg ha =>
    exact hbody _ hg (of_decide_eq_true hl) (by simp [HandlePc.inProgress])
  | reject msg request response hg ha =>
    exact hbody _ hg (of_decide_eq_true hl) (by simp [HandlePc.inProgress])
  | detect msg request verdict b hg hc =>
    exact hbody _ hg (of_decide_eq_true hl) (by simp [HandlePc.inProgress])
  | respond msg ballot result hg =>
    exact hbody _ hg (of_decide_eq_true hl) (by simp [HandlePc.inProgress])
  | _ => simp_all [Task.looping, Task.goto]

/-- `listen` waits for the reader at `i`, which has no receive ahead of it. -/
def Host.Stuck (h : Host) (i : Nat) (msg : Message) : Prop :=
  h.listen = some (i, msg) ∧ ∃ t, h.tasks[i]? = some t ∧ t.looping h.peers.length = false

/-- No step of the host frees `listen`. The reader has left its loop, and nobody else receives from
the channel. -/
theorem HostMove.stuck (hm : HostMove h e h' sent) (hs : h.Stuck i msg) : h'.Stuck i msg := by
  obtain ⟨hl, t, ht, hloop⟩ := hs
  cases hm with
  | replicate tid request hfresh => exact ⟨hl, t, getElem?_concat_eq_some.mpr (.inl ht), hloop⟩
  | join _ _ hfree => rw [hfree] at hl; cases hl
  | spawn _ hfree => rw [hfree] at hl; cases hl
  | notify ref msg' t' hl' ht' hr =>
    -- The reader would have to be at a receive.
    rw [hl] at hl'
    cases hl'
    obtain rfl : t = t' := Option.some.inj (ht.symm.trans ht')
    rw [t.looping_of_receiving hr] at hloop
    cases hloop
  | task ref input t' m ht' hmove =>
    refine ⟨hl, ?_⟩
    by_cases hir : i = ref
    · subst hir
      obtain rfl : t = t' := Option.some.inj (ht.symm.trans ht')
      refine ⟨m.task, getElem?_set_self ht, ?_⟩
      cases hnew : m.task.looping h.peers.length with
      | false => exact hnew
      | true =>
        rw [hmove.looping_of hnew] at hloop
        cases hloop
    · exact ⟨t, getElem?_set_of_ne hir ht, hloop⟩
  | panic ref input t' p ht' hp => exact ⟨hl, t, ht, hloop⟩

/-- Also in the network, a host that is stuck stays so, whatever the other hosts send to it. -/
theorem SystemMove.stuck {c : Cluster} {s s' : System} {a : Action} {x : PeerName}
    (hm : SystemMove c s a s') (hs : (s.hosts x).Stuck i msg) : (s'.hosts x).Stuck i msg := by
  cases hm with
  | host y e h' sent hy ha hp hm =>
    by_cases hxy : x = y
    · subst hxy
      simpa using hm.stuck hs
    · simpa [Function.update_of_ne hxy] using hs
  | lose y msg' hmem => exact hs

end Stuck

/-- The invariant of orderly runs: a reader that `listen` waits for has taken fewer messages than
it waits for, and no handler has given up. -/
structure OrderlyInv (h : Host) : Prop where
  inv : HostInv h
  blocked : ∀ i t, h.tasks[i]? = some t → h.blocks i = true →
    t.taken < t.awaits h.peers.length
  unexpired : ∀ (i : Nat) (t : Task), h.tasks[i]? = some t →
    ∀ e, t.goroutine.outcome? ≠ some (.context e)

section Orderly
variable {h h' : Host} {e : Event} {sent : Option Sent} {i : Nat}

/-- A host that has done nothing. No handler has given up, and no message waits. -/
theorem OrderlyInv.init (name : PeerName) (peers : List PeerName) (clock : UInt64) :
    OrderlyInv (Host.start name peers clock) where
  inv := HostInv.init name peers clock
  blocked := by simp [Host.start]
  unexpired := by simp [Host.start]

/-- While `listen` waits for its reader, `Replicate` cannot leave its loop, and a handler cannot
lower what it waits for. To leave the loop it needs all its messages, and one of them is still with
`listen`. Only the end of its context would get it out. -/
private theorem TaskMove.awaits_of_blocked {t : Task} {input : Input} {m : Move}
    (hm : TaskMove h t input m) (hdone : ∀ e, input ≠ .contextDone e)
    (hlt : t.taken < t.awaits h.peers.length) :
    m.task.taken < m.task.awaits h.peers.length := by
  rw [hm.data_eq.2.1]
  cases hm with
  | giveUp expected failed e hg hlt' => exact absurd rfl (hdone e)
  | expire our e hg hlt' => exact absurd rfl (hdone e)
  -- These two leave the loop, which needs all messages. One of them is still with `listen`.
  | sendError expected failed hg hle hf =>
    simp only [Task.awaits, hg] at hlt
    omega
  | process expected increment result hg hle hp =>
    simp only [Task.awaits, hg] at hlt
    omega
  | _ => simp_all [Task.awaits, Task.goto]

/-- Without a finished context, no handler gives up. Its other ways to end come after its loop. -/
private theorem TaskMove.unexpired {t : Task} {input : Input} {m : Move}
    (hm : TaskMove h t input m) (hdone : ∀ e, input ≠ .contextDone e)
    (hold : ∀ e, t.goroutine.outcome? ≠ some (.context e)) (e : ContextError) :
    m.task.goroutine.outcome? ≠ some (.context e) := by
  cases hm with
  | giveUp expected failed err hg hlt' => exact absurd rfl (hdone err)
  | expire our err hg hlt' => exact absurd rfl (hdone err)
  | finish result hg =>
    have := hold e
    simpa [Task.goto, hg, Goroutine.outcome?] using this
  | _ => simp [Task.goto, Goroutine.outcome?]

/-- A message for a transaction leaves its reader one short of what it waits for, at most. `listen`
was free before, so the reader has taken all earlier messages, and the guard says that they are
fewer than it waits for. -/
private theorem OrderlyInv.blocked_receive (ho : OrderlyInv h) {msg : Message}
    (hguard : orderly h (.receive msg) = true) (hm : HostMove h (.receive msg) h' sent)
    {t' : Task} (ht' : h'.tasks[i]? = some t') (hb : h'.blocks i = true) :
    t'.taken < t'.awaits h'.peers.length := by
  cases hm with
  | join _ ref hl hlookup =>
    obtain rfl : ref = i := by simpa [Host.blocks] using hb
    rcases getElem?_modify_eq_some.mp ht' with ⟨-, t, ht, rfl⟩ | ⟨hne, -⟩
    · simp only [orderly, hlookup, ht, Option.any_some, decide_eq_true_eq] at hguard
      -- `listen` was free, so the reader has taken all earlier messages.
      have hpending := (ho.inv.tasks ref t ht).pending
      have hfree : h.blocks ref = false := by simp [Host.blocks, hl]
      rw [hfree, Bool.toNat_false, Nat.add_zero] at hpending
      show t.taken < t.awaits h.peers.length
      omega
    · exact absurd rfl hne
  | spawn _ hl hlookup =>
    obtain rfl : h.tasks.length = i := by simpa [Host.blocks] using hb
    rcases getElem?_concat_eq_some.mp ht' with ht | ⟨-, rfl⟩
    · have := lt_length_of_getElem? ht
      omega
    · simpa [orderly, hlookup, Task.awaits] using hguard

/-- The new task of a call or of `listen` has not given up, and an old one only does so when its
context ends. -/
private theorem OrderlyInv.unexpired_step (ho : OrderlyInv h) (hguard : orderly h e = true)
    (hm : HostMove h e h' sent) {t' : Task} (ht' : h'.tasks[i]? = some t') (err : ContextError) :
    t'.goroutine.outcome? ≠ some (.context err) := by
  have hchange := hm.change ht'
  generalize hprev : h.tasks[i]? = old at hchange
  cases hchange with
  | same e sent t => exact ho.unexpired i t' hprev err
  | call tid request hfresh => simp [Goroutine.outcome?]
  | join msg t hlookup => exact ho.unexpired i t hprev err
  | spawn msg hlookup => simp [Goroutine.outcome?]
  | notify msg t hl hr =>
    have hold := ho.unexpired i t hprev err
    unfold Task.notified
    split
    · simp [Goroutine.outcome?]
    · exact hold
  | move input t m hmove =>
    -- The guard excludes the input that ends a context.
    refine hmove.unexpired ?_ (ho.unexpired i t hprev) err
    intro e hinput
    rw [hinput] at hguard
    cases hguard

/-- Every orderly step keeps the invariant. The guard excludes the steps that leave a reader without
its messages. -/
theorem OrderlyInv.step (ho : OrderlyInv h) (hguard : orderly h e = true)
    (hm : HostMove h e h' sent) : OrderlyInv h' where
  inv := ho.inv.step hm
  unexpired i t ht err := ho.unexpired_step hguard hm ht err
  blocked i t' ht' hb := by
    cases hm with
    | replicate tid request hfresh =>
      rcases getElem?_concat_eq_some.mp ht' with ht | ⟨rfl, rfl⟩
      · exact ho.blocked i t' ht hb
      · -- `listen` does not wait for a task that did not exist.
        have hl : h.listen.any (fun p => p.1 = h.tasks.length) = true := hb
        simp only [Option.any_eq_true, decide_eq_true_eq] at hl
        obtain ⟨⟨ref, m⟩, hl, hrefl⟩ := hl
        obtain ⟨t, ht, -⟩ := ho.inv.listening ref m hl
        have := lt_length_of_getElem? ht
        simp only at hrefl
        omega
    | join msg ref hl hlookup => exact ho.blocked_receive hguard (.join msg ref hl hlookup) ht' hb
    | spawn msg hl hlookup => exact ho.blocked_receive hguard (.spawn msg hl hlookup) ht' hb
    | notify ref msg t hl ht hr => simp [Host.blocks] at hb
    | task ref input t m ht hmove =>
      rcases getElem?_set_eq_some.mp ht' with ⟨rfl, -, rfl⟩ | ⟨hne, ht'⟩
      · refine hmove.awaits_of_blocked ?_ (ho.blocked i t ht hb)
        intro e hinput
        rw [hinput] at hguard
        cases hguard
      · exact ho.blocked i t' ht' hb
    | panic ref input t p ht hp => exact ho.blocked i t' ht' hb

/-- In an orderly run, the reader that `listen` waits for has a receive ahead of it. -/
theorem OrderlyInv.looping (ho : OrderlyInv h) {msg : Message} (hl : h.listen = some (i, msg)) :
    ∃ t, h.tasks[i]? = some t ∧ t.looping h.peers.length = true := by
  obtain ⟨t, ht, -⟩ := ho.inv.listening i msg hl
  refine ⟨t, ht, ?_⟩
  have hlt := ho.blocked i t ht (by simp [Host.blocks, hl])
  have hpoint := (ho.inv.tasks i t ht).point
  have hexp := ho.unexpired i t ht
  cases hg : t.goroutine with
  | replicate pc =>
    simp only [Task.awaits, hg] at hlt
    cases pc with
    | collect expected failed => simpa [Task.looping, hg] using hlt
    | _ => exact absurd hlt (Nat.not_lt_zero _)
  | handle pc =>
    simp only [Task.awaits, hg] at hlt
    rw [hg] at hpoint
    obtain ⟨-, -, hp⟩ := hpoint
    -- A handler past its loop has taken a message of every peer, unless it gave up.
    have hresult : ∀ r, t.goroutine.outcome? = some r → ¬ HandleOutcome h.peers.length t r := by
      intro r hr hout
      cases r with
      | context err => exact hexp err hr
      | notPermitted => exact absurd hout.1 (by omega)
      | mirrored request err => exact absurd hout.1 (by omega)
    cases pc with
    | await | consult | detect | respond => simpa [Task.looping, hg] using hlt
    | mirror request => exact absurd hp.1 (by omega)
    | leave r => exact absurd hp (hresult r (by rw [hg]; rfl))
    | ended r => exact absurd hp (hresult r (by rw [hg]; rfl))

end Orderly

/-- In every orderly run of a host, with any messages, `listen` only waits for a reader that has
a receive of its loop ahead of it. -/
theorem listen_waits_for_reader (name : PeerName) (peers : List PeerName) (clock : UInt64)
    (es : List Event) (h : Host) (i : Nat) (msg : Message)
    (hrun : run (restrict Host.next orderly) (Host.start name peers clock) es = some h)
    (hl : h.listen = some (i, msg)) :
    ∃ t, h.tasks[i]? = some t ∧ t.looping h.peers.length = true := by
  have ho : OrderlyInv h := by
    refine run_invariant (I := OrderlyInv) ?_ hrun (OrderlyInv.init name peers clock)
    intro u e u' hstep hu
    obtain ⟨hguard, hnext⟩ := restrict_eq_some.mp hstep
    obtain ⟨sent, hm⟩ := Host.next_move hnext
    exact hu.step hguard hm
  exact ho.looping hl

/-- The vote of `b` on the request of `a`. -/
def voteOfB : Message := newResponseMessage "t" "b" ack

/-- The host `a` asks its peer `b`, and `listen` has the vote in hand. -/
def votePendingRun : List Event :=
  [.replicate "t" (mkdirRequest "p" 0), .task 0 .run, .task 0 (reaching ["b"]),
    .receive voteOfB]

/-- The vote is sent to a `Replicate` that waits for it, so `listen` will be freed by its next
receive. -/
theorem vote_pending_reader :
    ∃ h, run (restrict Host.next orderly) (Host.start "a" ["b"] 0) votePendingRun = some h ∧
      h.listen = some (0, voteOfB) ∧
      ∃ t, h.tasks[0]? = some t ∧ t.looping h.peers.length = true := by
  have hobs : (run (restrict Host.next orderly) (Host.start "a" ["b"] 0) votePendingRun).any
      (fun h => h.listen = some (0, voteOfB)) = true := by decide
  simp only [Option.any_eq_true, decide_eq_true_eq] at hobs
  obtain ⟨h, hrun, hl⟩ := hobs
  exact ⟨h, hrun, hl, listen_waits_for_reader "a" ["b"] 0 votePendingRun h 0 voteOfB hrun hl⟩

/-- The host `b` votes. At `a` the timeout fires after `listen` has looked up the transaction, and
before it has sent the vote. -/
def lateTimeoutRun : List Action :=
  calls "a" 0 "t" (mkdirRequest "p" 0) ["b"] ++
    hears "b" (newRequestMessage "t" "a" (mkdirRequest "p" 0)) ++ votes "b" 0 ["a"] ++
    [.host "a" (.receive voteOfB), .host "a" (.task 0 (.contextDone .deadlineExceeded)),
      .host "a" (.task 0 .run)]

/-- The host `a` after the timeout: `listen` waits for a call that has returned. -/
private def waitsInVain (s : System) : Bool :=
  (s.hosts "a").listen = some (0, voteOfB) && (s.task? "a" 0).any fun t =>
    t.goroutine = .replicate (.returned (some (.context .deadlineExceeded)))

/-- After the timeout, `listen` waits for a call that has returned, and it never stops. The vote of
`b` was put before the transaction was deleted, and its channel has no reader any more. -/
theorem listen_stuck :
    ∃ s t, Reachable duo s ∧ (s.hosts "a").listen = some (0, voteOfB) ∧
      s.task? "a" 0 = some t ∧
      t.goroutine = .replicate (.returned (some (.context .deadlineExceeded))) ∧
      ∀ s', Reaches (System.step duo) s s' → (s'.hosts "a").listen = some (0, voteOfB) := by
  obtain ⟨s, hs, hobs⟩ := Reachable.of_run duo (fun _ => 0) lateTimeoutRun waitsInVain (by decide)
  simp only [waitsInVain, Bool.and_eq_true, Option.any_eq_true, decide_eq_true_eq] at hobs
  obtain ⟨hl, t, ht, hg⟩ := hobs
  have hstuck : (s.hosts "a").Stuck 0 voteOfB := by
    refine ⟨hl, t, ht, ?_⟩
    simp [Task.looping, hg]
  refine ⟨s, t, hs, hl, ht, hg, ?_⟩
  intro s' hreach
  -- No step of either host takes the message, so it waits in every later state.
  have hstuck' : (s'.hosts "a").Stuck 0 voteOfB := by
    refine hreach.invariant (I := fun u => (u.hosts "a").Stuck 0 voteOfB) ?_ hstuck
    intro u a u' hstep hu
    exact (System.step_move hstep).stuck hu
  exact hstuck'.1

end ReplicatedFs.P2p
