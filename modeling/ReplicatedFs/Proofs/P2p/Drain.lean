import ReplicatedFs.Proofs.P2p.HostRun
import ReplicatedFs.Proofs.P2p.Listen
import ReplicatedFs.Proofs.P2p.Progress

/-!
# `ReplicatedFs.Proofs.P2p.Drain`: the wait loop of `Close`

`Close` looks at `len(h.transactions.ts)` again and again until it is 0. While it waits, the
transactions go on, new calls of `Replicate` may come, and so may messages. Broadcasts may fail in
any way and contexts may end at any time.

* `HostMove.load_lt`: every step lowers `Host.load`, up to what a new call or a message costs.
* `System.load_lt`: the same for the network, where what a host sends is left for others.
* `Task.ready`: a goroutine that has not returned has a next step. It waits for nobody longer than
  its context lasts, and not for `listen`, which may be stuck.

So the loop ends once nothing new comes in (`transactions_drain`).
-/

set_option autoImplicit false

namespace ReplicatedFs.P2p

open ReplicatedFs.Protobuf
open Library

/-- `len(h.transactions.ts) == 0`, the test in the loop of `Close`. -/
def Host.drained (h : Host) : Bool := h.ts.entries.isEmpty

/-- The label is a new call, or the receipt of a message. -/
def Event.arrives : Event → Bool
  | .replicate _ _ | .receive _ => true
  | _ => false

/-- The steps that are left for a host, with at most `n` peers. A panic is the last one. -/
def Host.load (n : Nat) (h : Host) : Nat :=
  h.work n + (if h.panicked.isNone then 1 else 0)

/-- The steps that a call of `Replicate` can cause, with its own. -/
def callCost (n : Nat) : Nat := n * (5 * n + 8) + 5

/-- What a label can add to the steps that are left, with its own step. -/
def Event.cost (n : Nat) : Event → Nat
  | .replicate _ _ => callCost n
  | .receive msg => flightWork n msg
  | _ => 0

section Load
variable {n : Nat} {h h' : Host} {e : Event} {sent : Option Sent}

/-- Every step lowers what is left, up to the cost of its label, with what it sends. The cost of a
call covers the work of its task and the messages to all the peers. A step that panics uses up the
one step that is kept for it. -/
theorem HostMove.load_lt (hm : HostMove h e h' sent) (hrunning : h.panicked = none)
    (hn : h.peers.length ≤ n) : h'.load n + sentWork n sent < h.load n + e.cost n := by
  -- A step other than a call that does not panic lowers the work.
  have hwork : (∀ tid request, e ≠ .replicate tid request) → h'.panicked = none →
      h'.load n + sentWork n sent < h.load n + e.cost n := by
    intro hcall hpanic
    have hlt := hm.work_lt hn hcall hpanic
    have hcost : (e.received.map (flightWork n)).getD 0 ≤ e.cost n := by
      cases e with
      | receive msg => exact Nat.le_refl _
      | _ => exact Nat.zero_le _
    simp only [Host.load, hrunning, hpanic]
    omega
  cases hm with
  | replicate tid request hfresh =>
    simp only [Host.load, Host.work, Event.cost, callCost, List.map_append, List.sum_append,
      List.map_cons, List.map_nil, List.sum_cons, List.sum_nil, Goroutine.work, sentWork]
    omega
  | panic ref input t p ht hp =>
    simp only [Host.load, Host.work, hrunning, Option.isNone_none, Option.isNone_some, if_true,
      Bool.false_eq_true, if_false, sentWork]
    omega
  | join | spawn | notify | task => exact hwork (fun _ _ heq => by cases heq) hrunning

/-- The steps that are left for the system. A loss takes a message away. -/
def System.load (c : Cluster) (s : System) : Nat :=
  (s.inFlight.map fun p => flightWork c.names.length p.2).sum +
    (c.names.map fun x => (s.hosts x).load c.names.length).sum

/-- What an action can add to the steps that are left. -/
def Action.cost (c : Cluster) (a : Action) : Nat :=
  if a.isCall then callCost c.names.length else 0

/-- Every step of the network lowers what is left, up to the cost of a new call. A lost message and
a context that ends count as well, so the bound holds for all runs and not only for those without
faults. A panic is a step, too, the last one of its host. -/
theorem System.load_lt {c : Cluster} {s s' : System} {a : Action} (hi : SystemInv c s)
    (hs : s.step c a = some s') : s'.load c < s.load c + a.cost c := by
  cases System.step_move hs with
  | host x e h' sent hx ha hp hm =>
    have hn : (s.hosts x).peers.length ≤ c.names.length := by
      rw [(hi.config x).2]
      exact List.length_filter_le _ _
    have hhost := hm.load_lt hp hn
    have hflight := flightAfter_work ha sent c.names.length
    have hsum := sum_map_update c.nodup hx
      (f := fun y => (s.hosts y).load c.names.length)
      (g := fun y => (Function.update s.hosts x h' y).load c.names.length)
      (fun y _ hy => by simp [Function.update_of_ne hy])
    simp only [Function.update_self] at hsum
    -- A message that is received is no longer in flight.
    have hcost : e.cost c.names.length =
        (e.received.map (flightWork c.names.length)).getD 0 + (Action.host x e).cost c := by
      cases e with
      | replicate tid request => simp [Event.cost, Event.received, Action.cost, Action.isCall]
      | _ => simp [Event.cost, Event.received, Action.cost, Action.isCall]
    simp only [System.load]
    omega
  | lose x msg hmem =>
    have hperm : (s.inFlight.map fun p => flightWork c.names.length p.2).sum =
        flightWork c.names.length msg +
          ((s.inFlight.erase (x, msg)).map fun p => flightWork c.names.length p.2).sum := by
      simpa using ((List.perm_cons_erase hmem).map fun p => flightWork c.names.length p.2).sum_eq
    have hpos := flightWork_eq c.names.length msg
    simp only [System.load]
    omega

end Load

section Ready
variable {h : Host} {t : Task} {ref : Nat}

/-- The input is what a method of `Mirror` returned. -/
def Input.ofMirror : Input → Bool
  | .consulted _ | .mirrored _ => true
  | _ => false

/-- A goroutine that has not returned calls a method of `Mirror`, or has a next step of its own. The
wait for messages is left by the context at the latest. -/
theorem Task.ready (h : Host) (halive : t.goroutine.alive = true) :
    (∃ msg request, t.goroutine = .handle (.consult msg request)) ∨
      (∃ request, t.goroutine = .handle (.mirror (some request))) ∨
      ∃ input, input.ofMirror = false ∧ (t.step h input).isSome = true := by
  unfold Task.step
  cases hg : t.goroutine with
  | replicate pc =>
    refine .inr (.inr ?_)
    cases pc with
    | check message | leave result => exact ⟨.run, rfl, rfl⟩
    | broadcast message => exact ⟨.broadcast (.refused .peerIsDown), rfl, rfl⟩
    | collect expected failed =>
      by_cases hlt : t.taken < expected
      · -- It waits for responses, until the context ends.
        exact ⟨.contextDone .deadlineExceeded, rfl, by simp [replicateStep, hlt]⟩
      · refine ⟨.run, rfl, ?_⟩
        by_cases hfailed : failed = [] <;> simp [replicateStep, hlt, hfailed]
    | returned result => simp [hg, Goroutine.alive] at halive
  | handle pc =>
    cases pc with
    | await our =>
      refine .inr (.inr ?_)
      by_cases hlt : t.taken < h.peers.length
      · -- It waits for the request or for votes, and its context ends in the same way.
        exact ⟨.contextDone .deadlineExceeded, rfl, by simp [handleStep, hlt]⟩
      · refine ⟨.run, rfl, ?_⟩
        cases hp : permitted our t.trans.responses <;> simp [handleStep, hlt, hp]
    | consult msg request => exact .inl ⟨msg, request, rfl⟩
    | detect msg request verdict => exact .inr (.inr ⟨.run, rfl, rfl⟩)
    | respond msg ballot => exact .inr (.inr ⟨.broadcast (.refused .peerIsDown), rfl, rfl⟩)
    | mirror request =>
      cases request with
      | none => exact .inr (.inr ⟨.run, rfl, rfl⟩)
      | some request => exact .inr (.inl ⟨request, rfl⟩)
    | leave result => exact .inr (.inr ⟨.run, rfl, rfl⟩)
    | ended result => simp [hg, Goroutine.alive] at halive

/-- A goroutine that has returned has none, whatever the input. The statement is for all inputs, so
it covers a context that ends late. -/
theorem Task.step_of_returned (h : Host) (hdead : t.goroutine.alive = false) (input : Input) :
    t.step h input = none := by
  unfold Task.step
  cases hg : t.goroutine with
  | replicate pc =>
    rw [hg] at hdead
    cases pc with
    | returned result => rfl
    | _ => cases hdead
  | handle pc =>
    rw [hg] at hdead
    cases pc with
    | ended result => rfl
    | _ => cases hdead

/-- A step of a goroutine is a step of its host. A host that has panicked makes none. -/
private theorem Host.next_isSome (hrunning : h.panicked = none) (ht : h.tasks[ref]? = some t)
    {input : Input} (hs : (t.step h input).isSome = true) :
    (h.next (.task ref input)).isSome = true := by
  obtain ⟨r, hr⟩ := Option.isSome_iff_exists.mp hs
  simp only [Host.next, Host.step, hrunning, ht, hr]
  cases r <;> rfl

/-- A host whose goroutines have all returned has no transaction left. -/
theorem HostInv.drained_of_dead (hi : HostInv h)
    (hdead : ∀ (i : Nat) t, h.tasks[i]? = some t → t.goroutine.alive = false) :
    h.drained = true := by
  rw [Host.drained, List.isEmpty_iff, List.eq_nil_iff_forall_not_mem]
  rintro ⟨tid, i⟩ hmem
  -- An entry of the map belongs to a goroutine that has not returned.
  have hlookup : h.ts.lookup tid = some i := AList.mem_lookup_iff.mpr hmem
  obtain ⟨t, ht, rfl⟩ := hi.listed tid i hlookup
  have halive := (hi.table i t ht).mpr hlookup
  rw [hdead i t ht] at halive
  cases halive

/-- In a host that can only wait for something new, no transaction is left. -/
theorem HostInv.drained_of_quiet (hi : HostInv h) (hrunning : h.panicked = none)
    (hquiet : ∀ e, e.arrives = false → h.next e = none) : h.drained = true := by
  refine hi.drained_of_dead fun i t ht => Bool.eq_false_iff.mpr fun halive => ?_
  have hready : ∃ input, (t.step h input).isSome = true := by
    rcases Task.ready h halive with ⟨msg, request, hg⟩ | ⟨request, hg⟩ | ⟨input, -, hinput⟩
    · exact ⟨.consulted ack, by simp [Task.step, hg, handleStep]⟩
    · exact ⟨.mirrored none, by simp [Task.step, hg, handleStep]⟩
    · exact ⟨input, hinput⟩
  obtain ⟨input, hinput⟩ := hready
  have hnext := Host.next_isSome hrunning ht hinput
  rw [hquiet (.task i input) rfl] at hnext
  cases hnext

end Ready

/-- Whatever has happened to a host before, with any failures: from there a run of `a` new calls and
`b` messages is no longer than a bound that depends on the host, `a` and `b` only. When nothing but
calls and messages can follow and no goroutine has panicked, the transactions map is empty, so
`Close` leaves its wait loop. This is so even when `listen` is stuck. -/
theorem transactions_drain (name : PeerName) (peers : List PeerName) (clock : UInt64)
    {before es : List Event} {h h' : Host}
    (hbefore : run Host.next (Host.start name peers clock) before = some h)
    (hrun : run Host.next h es = some h') :
    es.length ≤ h.load peers.length + (es.map (Event.cost peers.length)).sum ∧
      ((∀ e, e.arrives = false → h'.next e = none) →
        h'.panicked.isSome = true ∨ h'.drained = true) := by
  have hpeers : h.peers = peers := (run_config hbefore).2
  constructor
  · have hle := run_length_add_le_cost (I := fun u : Host => u.peers = peers)
      (μ := Host.load peers.length) (Event.cost peers.length) (fun u e v hs hu => ?_)
      (fun u e v hs hu => ?_) hrun hpeers
    · omega
    · obtain ⟨sent, hm⟩ := Host.next_move hs
      exact hm.config.2.trans hu
    · obtain ⟨⟨v, sent⟩, hstep, rfl⟩ := Option.map_eq_some_iff.mp hs
      obtain ⟨hrunning, hm⟩ := Host.step_move hstep
      -- What a step sends is not counted for a host alone.
      exact Nat.lt_of_le_of_lt (Nat.le_add_right _ _) (hm.load_lt hrunning (by rw [hu]))
  · intro hquiet
    cases hp : h'.panicked with
    | some p => exact .inl rfl
    | none =>
      have hi : HostInv h' := ((HostInv.init name peers clock).run hbefore).run hrun
      exact .inr (hi.drained_of_quiet hp hquiet)

/-- A handler whose context ends before it takes its message. `listen` is stuck after that. -/
def abandonedRun : List Event :=
  [.receive voteOfB, .task 0 (.contextDone .deadlineExceeded), .task 0 .run]

/-- `listen` is stuck for good after `abandonedRun`, and the transactions map is empty. So the map
can be drained even if no message comes through any more. -/
theorem transactions_drain_abandoned :
    ∃ h, run Host.next (Host.start "a" ["b"] 0) abandonedRun = some h ∧ h.Stuck 0 voteOfB ∧
      h.drained = true := by
  have hrun : (run Host.next (Host.start "a" ["b"] 0) abandonedRun).any (fun h =>
      (h.panicked.isNone && decide (h.listen = some (0, voteOfB))) &&
        ((h.next .notify).isNone && (h.tasks.all fun t => !t.goroutine.alive) &&
          h.tasks[0]?.any fun t => !t.looping h.peers.length)) = true := by decide
  rw [Option.any_eq_true] at hrun
  obtain ⟨h, hrun, hobs⟩ := hrun
  simp only [Bool.and_eq_true, List.all_eq_true, Bool.not_eq_true', Option.isNone_iff_eq_none,
    decide_eq_true_eq] at hobs
  obtain ⟨⟨hrunning, hlisten⟩, ⟨hnotify, hdead⟩, hloop⟩ := hobs
  -- All goroutines have returned, and `listen` waits for one of them.
  have hquiet : ∀ e, e.arrives = false → h.next e = none := by
    intro e he
    cases e with
    | replicate tid request => cases he
    | receive msg => cases he
    | notify => exact hnotify
    | task ref input =>
      cases ht : h.tasks[ref]? with
      | none => simp [Host.next, Host.step, hrunning, ht]
      | some t =>
        have hstep := Task.step_of_returned h (hdead t (List.mem_of_getElem? ht)) input
        simp [Host.next, Host.step, hrunning, ht, hstep]
  have hdrained := (transactions_drain "a" ["b"] 0 hrun (run_nil h)).2 hquiet
  refine ⟨h, hrun, ⟨hlisten, ?_⟩, hdrained.resolve_left (by simp [hrunning])⟩
  rw [Option.any_eq_true] at hloop
  obtain ⟨t, ht, hl⟩ := hloop
  exact ⟨t, ht, by simpa using hl⟩

end ReplicatedFs.P2p
