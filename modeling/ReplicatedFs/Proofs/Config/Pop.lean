import ReplicatedFs.Main
import ReplicatedFs.P2p.Cluster

/-!
# `ReplicatedFs.Proofs.Config.Pop`: the host among the peers

`Pop` returns the peer at an index and the slice without it, which it builds in the array of its
receiver (`pop_eq_some`). Two things follow for `run`.

* `main_of_mem`: under a name that the configuration lists, the host of this name runs with all the
  others as its peers. These are the hosts that `System.init` starts from.
* `pop_splits_iff`: the receiver is as before only when the last peer is taken. Without a peer of
  the name the first one is taken, so the check of `run` stops it only when this one has no name.
-/

set_option autoImplicit false

namespace ReplicatedFs.Config

open Protobuf
open Library

section Lists
variable {α β : Type} [DecidableEq β] {f : α → β} {b : β} {l : List α}

/-- With distinct keys, the first element with a key is the only one. -/
theorem eraseP_eq_filter (hnodup : (l.map f).Nodup) :
    l.eraseP (f · = b) = l.filter (f · ≠ b) := by
  induction l with
  | nil => rfl
  | cons a l ih =>
    rw [List.map_cons, List.nodup_cons] at hnodup
    by_cases ha : f a = b
    · -- The first element has the key, so no other one has it.
      have hrest : ∀ c ∈ l, f c ≠ b := by
        intro c hc hcb
        exact hnodup.1 (List.mem_map.mpr ⟨c, hc, hcb.trans ha.symm⟩)
      have hself : l.filter (f · ≠ b) = l := List.filter_eq_self.mpr (by simpa using hrest)
      rw [List.eraseP_cons_of_pos (by simpa using ha), List.filter_cons_of_neg (by simpa using ha),
        hself]
    · simp [ha, ih hnodup.2]

/-- The list without one element and then its last one is the list only if the element is the last
one. This is what the receiver shows after `Pop`: the elements behind the removed one have moved up,
and the last cell is as it was. -/
theorem eraseIdx_append_last {i : Nat} (hnodup : l.Nodup) (hi : i < l.length) :
    l.eraseIdx i ++ l.drop (l.length - 1) = l ↔ i + 1 = l.length := by
  constructor
  · intro heq
    by_contra hlast
    have hlen : i < (l.eraseIdx i).length := by
      rw [List.length_eraseIdx_of_lt hi]
      omega
    -- The element after the one that was erased takes its place.
    have hnext : l[i + 1]? = l[i]? := by
      rw [← List.getElem?_eraseIdx_of_ge (le_refl i), ← List.getElem?_append_left hlen, heq]
    have hsame : i + 1 = i := (List.getElem?_inj (by omega) hnodup).mp hnext
    omega
  · intro hlast
    have hpred : l.length - 1 = i := by omega
    rw [List.eraseIdx_eq_take_drop_succ, hlast, List.drop_length, List.append_nil, hpred,
      List.take_append_drop]

end Lists

variable {p : Peers} {h : Heap Peer} {name : PeerName}

/-- `Pop` shifts the peers after the one that it takes, so its receiver shows the last one twice.
`append` writes into the array that both slices share, since there is room. -/
theorem pop_eq_some {i : Nat} {peer : Peer} (hp : p.In h)
    (hi : ((p.read h).findIdx? (·.name = name)).getD 0 = i) (hpeer : (p.read h)[i]? = some peer) :
    ∃ sliced h', p.pop h name = some (peer, sliced, h') ∧
      sliced.read h' = (p.read h).eraseIdx i ∧
      p.read h' = (p.read h).eraseIdx i ++ (p.read h).drop ((p.read h).length - 1) := by
  have hlen := Slice.length_read hp
  have hcap := p.len_le
  have hlt : i < p.len := hlen ▸ (List.getElem?_eq_some_iff.mp hpeer).1
  -- The two parts around the peer. The capacity of the first one reaches over the second.
  obtain ⟨before, hbefore⟩ : ∃ before, p.upTo i = some before := ⟨_, dif_pos (by omega)⟩
  obtain ⟨after, hafter⟩ : ∃ after, p.since (i + 1) = some after := ⟨_, if_pos hlt⟩
  have hrest : after.read h = (p.read h).drop (i + 1) := Slice.read_since hafter
  obtain ⟨harray, hoffset, hbcap, hblen⟩ := Slice.upTo_eq_some hbefore
  have hbin : before.In h := by rwa [Slice.In, harray, hoffset, hbcap]
  have hrestlen : (after.read h).length = p.len - (i + 1) := by rw [hrest, List.length_drop, hlen]
  -- There is room for the second part, so `append` does not allocate.
  have hfits : before.len + (after.read h).length ≤ before.cap := by omega
  have hpop : p.pop h name =
      some (peer, (append h before (after.read h)).2, (append h before (after.read h)).1) := by
    simp [Peers.pop, hi, hpeer, hbefore, hafter]
  refine ⟨_, _, hpop, ?_, ?_⟩
  · rw [Slice.read_append hbin hfits, Slice.read_upTo hbefore hlt.le, hrest,
      List.eraseIdx_eq_take_drop_succ]
  · -- The receiver still has its length, and its last element is left where it was.
    have hlast : i + (p.len - (i + 1)) = (p.read h).length - 1 := by omega
    rw [Slice.read_append_of_le hp harray.symm hoffset.symm hfits (by omega), splice, hrestlen,
      hblen, hrest, hlast, List.eraseIdx_eq_take_drop_succ]

/-- A peer that has the name is taken, and the others stay in order. The receiver is as before iff
the peer is the last one, because then there is nothing to shift. -/
theorem pop_of_mem {peer : Peer} (hp : p.In h) (hnames : ((p.read h).map Peer.name).Nodup)
    (hmem : peer ∈ p.read h) (hname : peer.name = name) :
    ∃ others h', p.pop h name = some (peer, others, h') ∧
      others.read h' = (p.read h).filter (·.name ≠ name) ∧
      (p.read h' = p.read h ↔ (p.read h).getLast? = some peer) := by
  have hfind : (p.read h).findIdx? (·.name = name) = some ((p.read h).findIdx (·.name = name)) :=
    List.findIdx?_eq_some_of_exists ⟨peer, hmem, by simpa using hname⟩
  generalize (p.read h).findIdx (·.name = name) = i at hfind
  obtain ⟨hlt, hi, -⟩ := List.findIdx?_eq_some_iff_getElem.mp hfind
  -- With distinct names the first peer of this name is the only one.
  have hpeer : (p.read h)[i]? = some peer := by
    have hsame : (p.read h)[i].name = peer.name := (of_decide_eq_true hi).trans hname.symm
    rw [List.getElem?_eq_getElem hlt,
      List.inj_on_of_nodup_map hnames (List.getElem_mem hlt) hmem hsame]
  obtain ⟨others, h', hpop, hothers, hread⟩ :=
    pop_eq_some hp (by rw [hfind, Option.getD_some]) hpeer
  refine ⟨others, h', hpop, ?_, ?_⟩
  · rw [hothers, ← eraseP_eq_filter hnames, List.eraseP_eq_eraseIdx, hfind]
  · rw [hread, eraseIdx_append_last (hnames.of_map _) hlt, List.getLast?_eq_getElem?, ← hpeer,
      List.getElem?_inj (by omega) (hnames.of_map _)]
    omega

/-- A name that no peer has is as good as the name of the first one. -/
theorem pop_eq_pop_first {first : Peer} (hname : ∀ peer ∈ p.read h, peer.name ≠ name)
    (hfirst : (p.read h).head? = some first) : p.pop h name = p.pop h first.name := by
  have hnone : (p.read h).findIdx? (·.name = name) = none :=
    List.findIdx?_eq_none_iff.mpr (by simpa using hname)
  have hzero : (p.read h).findIdx? (·.name = first.name) = some 0 := by
    obtain ⟨rest, hrest⟩ := List.head?_eq_some_iff.mp hfirst
    simp [hrest, List.findIdx?_cons]
  rw [Peers.pop, Peers.pop, hnone, hzero, Option.getD_none, Option.getD_some]

/-- Without any peer there is none to take. `Pop` indexes the empty slice then, which panics. -/
theorem pop_eq_none (hempty : p.read h = []) : p.pop h name = none := by
  simp [Peers.pop, hempty]

end ReplicatedFs.Config

namespace ReplicatedFs.Main

open Config
open Connection
open P2p
open Protobuf
open Library

variable {conf : Config} {h : Heap Peer} {name : PeerName}

/-- `run` after `Pop`: the name of the peer that was taken is tested, and the host starts with the
others as its peers. -/
theorem run_of_pop {host : Peer} {others : Peers} {h' : Heap Peer}
    (hpop : conf.peers.pop h name = some (host, others, h')) (hname : host.name ≠ "") :
    run conf h name =
      .running { name := host.name, peers := (others.read h').map Peer.name }
        ((newPool host.name ((others.read h').map Peer.name)).run.paced conf.dialBackoff) := by
  simp [run, hpop, hname]

/-- `run` stops at its check iff `Pop` gave a peer without a name. -/
theorem run_fatal_iff {host : Peer} {others : Peers} {h' : Heap Peer}
    (hpop : conf.peers.pop h name = some (host, others, h')) :
    (∃ msg, run conf h name = .fatal msg) ↔ host.name = "" := by
  by_cases hname : host.name = ""
  · simp [run, hpop, hname]
  · simp [run_of_pop hpop hname, hname]

/-- Without a peer that has the name, the check sees the first one. -/
theorem run_fatal_iff_of_not_mem (hp : conf.peers.In h)
    (hnames : ((conf.peers.read h).map Peer.name).Nodup)
    (hnone : ∀ peer ∈ conf.peers.read h, peer.name ≠ name) :
    (∃ msg, run conf h name = .fatal msg) ↔
      ∃ first, (conf.peers.read h).head? = some first ∧ first.name = "" := by
  cases hfirst : (conf.peers.read h).head? with
  | none =>
    -- `Pop` panics before the check.
    simp [run, pop_eq_none (List.head?_eq_none_iff.mp hfirst)]
  | some first =>
    obtain ⟨others, h', hpop, -⟩ := pop_of_mem hp hnames (List.mem_of_head? hfirst) rfl
    rw [← pop_eq_pop_first hnone hfirst] at hpop
    simp [run_fatal_iff hpop]

/-- For peers with distinct names and any name: `Pop` splits off the peer of this name and leaves
its receiver as it was, and without such a peer the check of `run` stops the program, iff the last
peer has the name, or none has it and the first one has the empty name. -/
theorem pop_splits_iff (hp : conf.peers.In h)
    (hnames : ((conf.peers.read h).map Peer.name).Nodup) (name : PeerName) :
    ((∀ peer ∈ conf.peers.read h, peer.name = name →
        ∃ others h', conf.peers.pop h name = some (peer, others, h') ∧
          others.read h' = (conf.peers.read h).filter (·.name ≠ name) ∧
          conf.peers.read h' = conf.peers.read h) ∧
      ((∀ peer ∈ conf.peers.read h, peer.name ≠ name) → ∃ msg, run conf h name = .fatal msg)) ↔
    (∃ peer, (conf.peers.read h).getLast? = some peer ∧ peer.name = name) ∨
      ((∀ peer ∈ conf.peers.read h, peer.name ≠ name) ∧
        ∃ peer, (conf.peers.read h).head? = some peer ∧ peer.name = "") := by
  -- With such a peer the question is what happens to the receiver, and without one whether the
  -- program stops.
  by_cases hlisted : ∃ peer ∈ conf.peers.read h, peer.name = name
  · obtain ⟨peer, hmem, hname⟩ := hlisted
    have hnot : ¬ ∀ peer ∈ conf.peers.read h, peer.name ≠ name := fun hall => hall peer hmem hname
    have hunique : ∀ other ∈ conf.peers.read h, other.name = name → other = peer := by
      intro other hother heq
      exact List.inj_on_of_nodup_map hnames hother hmem (heq.trans hname.symm)
    obtain ⟨others, h', hpop, hothers, hread⟩ := pop_of_mem hp hnames hmem hname
    constructor
    · rintro ⟨hsplits, -⟩
      obtain ⟨others', h'', hpop', -, hsame⟩ := hsplits peer hmem hname
      cases hpop.symm.trans hpop'
      exact .inl ⟨peer, hread.mp hsame, hname⟩
    · intro hcond
      obtain ⟨last, hlast, hlastname⟩ := hcond.resolve_right fun hnone => hnot hnone.1
      rw [hunique last (List.mem_of_getLast? hlast) hlastname] at hlast
      refine ⟨fun other hother heq => ?_, fun hall => absurd hall hnot⟩
      rw [hunique other hother heq]
      exact ⟨others, h', hpop, hothers, hread.mpr hlast⟩
  · have hnone : ∀ peer ∈ conf.peers.read h, peer.name ≠ name :=
      fun peer hmem heq => hlisted ⟨peer, hmem, heq⟩
    have hlast : ¬ ∃ peer, (conf.peers.read h).getLast? = some peer ∧ peer.name = name := by
      rintro ⟨peer, hlast, hname⟩
      exact hnone peer (List.mem_of_getLast? hlast) hname
    rw [run_fatal_iff_of_not_mem hp hnames hnone]
    constructor
    · rintro ⟨-, hfatal⟩
      exact .inr ⟨hnone, hfatal hnone⟩
    · intro hcond
      obtain ⟨-, hfirst⟩ := hcond.resolve_left hlast
      exact ⟨fun peer hmem hname => absurd hname (hnone peer hmem), fun _ => hfirst⟩

/-- The hypothesis holds of the last peer of the default configuration, and all are there after the
call. -/
theorem pop_splits_last :
    (∀ peer ∈ Config.default.peers.read [defaultPeers], peer.name = "Gimli" →
      ∃ others h', Config.default.peers.pop [defaultPeers] "Gimli" = some (peer, others, h') ∧
        others.read h' =
          (Config.default.peers.read [defaultPeers]).filter (·.name ≠ "Gimli") ∧
        Config.default.peers.read h' = Config.default.peers.read [defaultPeers]) ∧
    ((∀ peer ∈ Config.default.peers.read [defaultPeers], peer.name ≠ "Gimli") →
      ∃ msg, run Config.default [defaultPeers] "Gimli" = .fatal msg) :=
  (pop_splits_iff (by decide) (by decide) "Gimli").mpr
    (.inl ⟨⟨"Gimli", "localhost:9005"⟩, by decide, rfl⟩)

/-- With the peers of `config.json`: when `Legolas` is taken the receiver shows the last peer twice
and `Legolas` no more. Under a name that is not listed the host runs as `Aragorn`. -/
theorem pop_shifts_and_takes_first :
    (∃ others h', Config.default.peers.pop [defaultPeers] "Legolas" =
        some (⟨"Legolas", "localhost:9002"⟩, others, h') ∧
      (Config.default.peers.read h').map Peer.name =
        ["Aragorn", "Frodo", "Gandalf", "Gimli", "Gimli"]) ∧
    ∃ host pool, run Config.default [defaultPeers] "Sauron" = .running host pool ∧
      host.name = "Aragorn" := by
  exact ⟨⟨_, _, rfl, by decide⟩, _, _, rfl, rfl⟩

/-- The host is taken by the flag alone, once the configuration is accepted. -/
theorem main_eq_run (hconf : conf.accepted h) : main conf h name = run conf h name := by
  by_cases hname : name = ""
  · simp [main, setup, hname, hconf]
  · have hconf' : Config.accepted { conf with hostName := name } h := by
      simp_all [Config.accepted]
    simp [main, setup, hname, hconf', run]

/-- Under a name that is listed, the host of this name runs, with the others as its peers. These are
the hosts that a system starts with. -/
theorem main_of_mem {c : Cluster} (hc : c.names = (conf.peers.read h).map Peer.name)
    (hp : conf.peers.In h) (hconf : conf.accepted h) (hname : name ∈ c.names) (hne : name ≠ "") :
    main conf h name =
      .running ((System.init c fun _ => 0).hosts name)
        ((newPool name (c.peers name)).run.paced conf.dialBackoff) := by
  rw [hc] at hname
  obtain ⟨peer, hmem, rfl⟩ := List.mem_map.mp hname
  obtain ⟨others, h', hpop, hothers, -⟩ := pop_of_mem hp (hc ▸ c.nodup) hmem rfl
  have hpeers : (others.read h').map Peer.name = c.peers peer.name := by
    rw [hothers, Cluster.peers, hc, List.filter_map]
    rfl
  rw [main_eq_run hconf, run_of_pop hpop hne, hpeers]
  rfl

/-- Under a name that is not listed, the program runs as it does under the name of the first
peer. -/
theorem main_of_not_mem {first : Peer} (hconf : conf.accepted h)
    (hname : ∀ peer ∈ conf.peers.read h, peer.name ≠ name)
    (hfirst : (conf.peers.read h).head? = some first) :
    main conf h name = main conf h first.name := by
  rw [main_eq_run hconf, main_eq_run hconf, run, run, pop_eq_pop_first hname hfirst]

end ReplicatedFs.Main
