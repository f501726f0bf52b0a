import Mathlib.Data.List.Perm.Subperm
import ReplicatedFs.P2p.Cluster
import ReplicatedFs.Proofs.P2p.HostInvariant

/-!
# `ReplicatedFs.Proofs.P2p.SystemStep`: what one step of the system can do

* `SystemMove`: the steps of the system, with `System.step_move`.
* `System.Extends`: how the system grows. Tasks and log entries stay, and every task grows.
  `Reaches.extends` states it for whole runs.
* `arrived_host`, `arrived_lose`: a step neither invents nor duplicates a message. What has
  arrived at a host, or is in flight to it, grows only by what is sent to it in this step.
-/

set_option autoImplicit false

namespace ReplicatedFs.P2p

open ReplicatedFs.Protobuf
open Library

/-- The steps of the system. -/
inductive SystemMove (c : Cluster) (s : System) : Action → System → Prop
  | host (x : PeerName) (e : Event) (h' : Host) (sent : Option Sent) (hx : x ∈ c.names)
      (ha : s.admits c x e = true) (hp : (s.hosts x).panicked = none)
      (hm : HostMove (s.hosts x) e h' sent) :
      SystemMove c s (.host x e)
        { hosts := Function.update s.hosts x h'
          inFlight := s.flightAfter x e sent
          log := s.log ++ sent.toList }
  | lose (x : PeerName) (msg : Message) (hmem : (x, msg) ∈ s.inFlight) :
      SystemMove c s (.lose x msg) { s with inFlight := s.inFlight.erase (x, msg) }

/-- The system makes one of the steps: a host moves, or a message in flight is lost. The move of a
host comes with what the network admits: an unused id for a call, a message that is in flight, and
an answer of the mirror that is a verdict. -/
theorem System.step_move {c : Cluster} {s s' : System} {a : Action}
    (hs : s.step c a = some s') : SystemMove c s a s' := by
  cases a with
  | host x e =>
    simp only [System.step] at hs
    split at hs
    · rename_i hguard
      simp only [Option.map_eq_some_iff] at hs
      obtain ⟨⟨h', sent⟩, hstep, rfl⟩ := hs
      -- A host that has panicked takes no steps.
      obtain ⟨hp, hm⟩ := Host.step_move hstep
      exact .host x e h' sent hguard.1 hguard.2 hp hm
    · cases hs
  | lose x msg =>
    simp only [System.step] at hs
    split at hs
    · cases hs
      exact .lose x msg ‹_›
    · cases hs

/-- `s'` is `s` some steps later. -/
structure System.Extends (s s' : System) : Prop where
  tasks : ∀ {x i t}, s.task? x i = some t → ∃ t', s'.task? x i = some t' ∧ TaskExtends t t'
  log : s.log <+: s'.log

/-- In no steps nothing is lost. The base case for the runs below. -/
theorem System.Extends.refl (s : System) : s.Extends s :=
  ⟨fun {_ _ t} ht => ⟨t, ht, .refl t⟩, List.prefix_refl _⟩

/-- The growth of two runs, one after the other. Tasks keep their places, so they can be
compared. -/
theorem System.Extends.trans {s s' s'' : System} (h : s.Extends s') (h' : s'.Extends s'') :
    s.Extends s'' where
  tasks ht := by
    obtain ⟨t', ht', hext⟩ := h.tasks ht
    obtain ⟨t'', ht'', hext'⟩ := h'.tasks ht'
    exact ⟨t'', ht'', hext.trans hext'⟩
  log := h.log.trans h'.log

section Hosts
variable {s : System} {x y : PeerName} {h' : Host}

/-- The tasks of the host that moves are those of its new state. -/
theorem task?_update_self {i : Nat} {fl : List (PeerName × Message)} {log : List Sent} :
    System.task? ⟨Function.update s.hosts x h', fl, log⟩ x i = h'.tasks[i]? := by
  simp [System.task?]

/-- The tasks of the other hosts are as before. A step moves one host at most. -/
theorem task?_update_of_ne (hne : y ≠ x) {i : Nat} {fl : List (PeerName × Message)}
    {log : List Sent} :
    System.task? ⟨Function.update s.hosts x h', fl, log⟩ y i = s.task? y i := by
  simp [System.task?, Function.update_of_ne hne]

end Hosts

section Move
variable {c : Cluster} {s s' : System} {a : Action}

/-- Every step lets the system grow: tasks and entries of the log are added and never removed. -/
theorem SystemMove.extends (hm : SystemMove c s a s') : s.Extends s' := by
  cases hm with
  | host x e h' sent hx ha hp hm =>
    refine ⟨fun {y i t} ht => ?_, List.prefix_append _ _⟩
    by_cases hy : y = x
    · subst hy
      obtain ⟨t', ht', hext⟩ := hm.extends ht
      exact ⟨t', by rw [task?_update_self]; exact ht', hext⟩
    · exact ⟨t, by rw [task?_update_of_ne hy]; exact ht, .refl t⟩
  | lose x msg hmem => exact ⟨fun {_ _ t} ht => ⟨t, ht, .refl t⟩, List.prefix_refl _⟩

/-- Every run lets the system grow, so what was decided in a state holds in all later ones. -/
theorem Reaches.extends (h : Reaches (System.step c) s s') : s.Extends s' := by
  obtain ⟨as, has⟩ := h
  exact run_relation (I := fun _ => True) System.Extends.refl (fun _ _ _ => .trans)
    (fun _ _ _ _ _ => trivial) (fun _ _ _ hs _ => (System.step_move hs).extends) has trivial

/-- How a task comes about in a step of the system. It is as before, or its host moved. -/
theorem SystemMove.change (hm : SystemMove c s a s') {x : PeerName} {i : Nat} {t' : Task}
    (ht' : s'.task? x i = some t') :
    s.task? x i = some t' ∨
      ∃ e sent, a = .host x e ∧ x ∈ c.names ∧ s.admits c x e = true ∧
        s'.log = s.log ++ sent.toList ∧ TaskChange (s.hosts x) i e sent (s.task? x i) t' := by
  cases hm with
  | host y e h' sent hy ha hp hm =>
    by_cases hxy : x = y
    · subst hxy
      rw [task?_update_self] at ht'
      exact .inr ⟨e, sent, rfl, hy, ha, rfl, hm.change ht'⟩
    · rw [task?_update_of_ne hxy] at ht'
      exact .inl ht'
  | lose y msg hmem => exact .inl ht'

end Move

/-- The message that `listen` receives in a step. -/
def Event.received : Event → Option Message
  | .receive msg => some msg
  | _ => none

/-- What a step hands over to the host `y`. -/
def copiesTo (y : PeerName) (sent : List Sent) : List Message :=
  (sent.filter fun b => y ∈ b.reached).map Sent.msg

/-- All that was ever handed over to the host `y`. -/
def System.sentTo (s : System) (y : PeerName) : List Message := copiesTo y s.log

/-- The copies that a peer is sent, by the parts of the log. A step adds its broadcast at the
end. -/
theorem copiesTo_append (y : PeerName) (l l' : List Sent) :
    copiesTo y (l ++ l') = copiesTo y l ++ copiesTo y l' := by
  simp [copiesTo]

/-- A copy for a peer comes from a broadcast that reached it. A failed `Send` makes no copy. -/
theorem mem_copiesTo {y : PeerName} {l : List Sent} {m : Message} :
    m ∈ copiesTo y l ↔ ∃ b ∈ l, y ∈ b.reached ∧ b.msg = m := by
  simp [copiesTo, and_assoc]

section Arrived
variable {h h' : Host} {e : Event} {sent : Option Sent}

/-- A step puts at most the received message into a transaction. As a permutation, since the message
may go to the inbox of any task. -/
theorem HostMove.inboxes (hi : HostInv h) (hm : HostMove h e h' sent) :
    (h'.tasks.flatMap Task.inbox).Perm (e.received.toList ++ h.tasks.flatMap Task.inbox) := by
  cases hm with
  | replicate tid request hfresh => simp [Event.received]
  | join msg ref hl hlookup =>
    -- The map leads to a task, so the message is not put nowhere.
    obtain ⟨t, ht, -⟩ := hi.listed _ _ hlookup
    exact flatMap_modify_perm ht fun _ => rfl
  | spawn msg hl hlookup =>
    simp only [List.flatMap_append, List.flatMap_cons, List.flatMap_nil, List.append_nil]
    exact List.perm_append_comm
  | notify ref msg t hl ht hr =>
    have hbox : (t.notified msg).inbox = t.inbox := by
      unfold Task.notified
      split <;> rfl
    simp [Event.received, flatMap_set_of_eq ht hbox]
  | task ref input t m ht hm =>
    simp [Event.received, Host.apply, flatMap_set_of_eq ht hm.data_eq.2.2]
  | panic ref input t₀ p ht₀ hp => exact List.Perm.refl _

/-- A broadcast hands over one copy to each peer it reaches. The peers are distinct, so nobody gets
two. -/
private theorem filter_copies {reached : List PeerName} (hnodup : reached.Nodup) (y : PeerName)
    (m : Message) :
    ((reached.map fun z => (z, m)).filter (·.1 = y)).map Prod.snd =
      if y ∈ reached then [m] else [] := by
  induction reached with
  | nil => rfl
  | cons z zs ih =>
    obtain ⟨hz, hzs⟩ := List.nodup_cons.mp hnodup
    have ih' := ih hzs
    by_cases hzy : z = y
    · subst hzy
      simp only [if_neg hz] at ih'
      simp [ih']
    · simp [hzy, ih', Ne.symm hzy]

/-- The peers that a broadcast reaches are among the peers of the host. -/
theorem HostMove.reached_sublist {b : Sent} (hm : HostMove h e h' (some b)) :
    b.reached.Sublist h.peers := by
  obtain ⟨ref, t, result, -, -, hreached, -⟩ := hm.sent_cases
  rw [hreached]
  cases result with
  | refused reason => exact List.nil_sublist _
  | sent failed reached => exact List.filter_sublist

end Arrived

section Wire
variable {c : Cluster} {s s' : System} {a : Action}

/-- The messages in flight to `y`. -/
private def flightTo (y : PeerName) (fl : List (PeerName × Message)) : List Message :=
  (fl.filter (·.1 = y)).map Prod.snd

/-- Taking a message out of flight. The order of the messages in flight does not matter. -/
private theorem flightTo_erase {x : PeerName} {msg : Message} {fl : List (PeerName × Message)}
    (hmem : (x, msg) ∈ fl) (y : PeerName) :
    (flightTo y fl).Perm
      ((if x = y then [msg] else []) ++ flightTo y (fl.erase (x, msg))) := by
  have hperm := ((List.perm_cons_erase hmem).filter (·.1 = y)).map Prod.snd
  by_cases hxy : x = y
  · simpa [flightTo, hxy] using hperm
  · simpa [flightTo, hxy] using hperm

/-- The messages that a step sends to `y`. A peer is listed once, so it gets one copy. -/
private theorem flightTo_sent {x : PeerName} {e : Event} {h' : Host} {sent : Option Sent}
    (hm : HostMove (s.hosts x) e h' sent) (hnodup : (s.hosts x).peers.Nodup) (y : PeerName) :
    flightTo y (sent.toList.flatMap fun b => b.reached.map fun z => (z, b.msg)) =
      copiesTo y sent.toList := by
  cases sent with
  | none => rfl
  | some b =>
    have hb : b.reached.Nodup := hnodup.sublist hm.reached_sublist
    have hcopies := filter_copies hb y b.msg
    by_cases hy : y ∈ b.reached <;> simp_all [flightTo, copiesTo]

/-- A step of a host moves a message from the flight into a transaction, and adds what it sends. So
of what arrives at any host nothing is lost or added, up to the order. `hnodup` is needed for the
copies: a peer that is listed twice would get two. -/
theorem arrived_host {x : PeerName} {e : Event} {h' : Host} {sent : Option Sent}
    (ha : s.admits c x e = true) (hi : HostInv (s.hosts x))
    (hnodup : (s.hosts x).peers.Nodup) (hm : HostMove (s.hosts x) e h' sent) (y : PeerName) :
    (System.arrived ⟨Function.update s.hosts x h', s.flightAfter x e sent,
        s.log ++ sent.toList⟩ y).Perm (s.arrived y ++ copiesTo y sent.toList) := by
  -- The message that is received leaves the flight and enters a transaction of `x`.
  obtain ⟨left, hleft, hflight⟩ : ∃ left,
      s.flightAfter x e sent =
        left ++ sent.toList.flatMap (fun b => b.reached.map fun z => (z, b.msg)) ∧
      (flightTo y s.inFlight).Perm
        ((if x = y then e.received.toList else []) ++ flightTo y left) := by
    cases e with
    | receive msg => exact ⟨_, rfl, flightTo_erase (by simpa [System.admits] using ha) y⟩
    | _ => exact ⟨_, rfl, by simp [Event.received]⟩
  have hboxes : ((Function.update s.hosts x h' y).tasks.flatMap Task.inbox).Perm
      ((if x = y then e.received.toList else []) ++ (s.hosts y).tasks.flatMap Task.inbox) := by
    by_cases hxy : x = y
    · subst hxy
      simpa using hm.inboxes hi
    · simp [hxy, Function.update_of_ne (Ne.symm hxy)]
  have happend : flightTo y (s.flightAfter x e sent) =
      flightTo y left ++ copiesTo y sent.toList := by
    rw [hleft, ← flightTo_sent hm hnodup y]
    simp [flightTo]
  change ((Function.update s.hosts x h' y).tasks.flatMap Task.inbox ++
    flightTo y (s.flightAfter x e sent)).Perm _
  rw [happend, ← List.append_assoc]
  refine List.Perm.append_right _ ?_
  calc ((Function.update s.hosts x h' y).tasks.flatMap Task.inbox ++ flightTo y left).Perm
        ((if x = y then e.received.toList else []) ++ (s.hosts y).tasks.flatMap Task.inbox ++
          flightTo y left) := hboxes.append_right _
    List.Perm _ ((s.hosts y).tasks.flatMap Task.inbox ++
        (if x = y then e.received.toList else []) ++ flightTo y left) :=
      List.perm_append_comm.append_right _
    _ = (s.hosts y).tasks.flatMap Task.inbox ++
        ((if x = y then e.received.toList else []) ++ flightTo y left) :=
      List.append_assoc _ _ _
    List.Perm _ ((s.hosts y).tasks.flatMap Task.inbox ++ flightTo y s.inFlight) :=
      hflight.symm.append_left _

/-- A loss takes a message out of flight. It can never arrive afterwards. -/
theorem arrived_lose (x : PeerName) (msg : Message) (y : PeerName) :
    (System.arrived { s with inFlight := s.inFlight.erase (x, msg) } y).Sublist
      (s.arrived y) := by
  refine List.Sublist.append_left (List.Sublist.map _ (List.Sublist.filter _ ?_)) _
  exact List.erase_sublist

end Wire

end ReplicatedFs.P2p
