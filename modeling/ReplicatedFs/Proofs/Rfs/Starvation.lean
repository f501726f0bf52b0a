import ReplicatedFs.Proofs.P2p.StampedRounds
import ReplicatedFs.Rfs.Request

/-!
# `ReplicatedFs.Proofs.Rfs.Starvation`: the conflicts clock never reaches the file system

The operations of `root` and `rootFile` build their requests without a clock, and nothing
behind them puts one in. So all their requests carry 0, and in every conflict between two
hosts the greater name wins.

* `FuseRound.lesser_loses`, `FuseRound.greater_nil`: the outcome of one round.
* `fuse_rounds_starve`: as soon as there are two rounds, a host loses two in a row.
-/

set_option autoImplicit false

namespace ReplicatedFs.Rfs

open ReplicatedFs.Protobuf
open P2p Library

/-- Some operation on some mount hands the request to `Replicator.Replicate`. -/
def Issued (r : Request) : Prop :=
  ∃ (m : Mirror) (proc : Library.Posix.Process) (s : Mount) (call : Call),
    s.asks m proc call = some r

/-- The requests of operations carry no clock. `rfs` leaves the field at its default. -/
theorem Issued.clock {r : Request} (h : Issued r) : r.clock = 0 := by
  obtain ⟨m, proc, s, call, hasks⟩ := h
  exact Mount.request?_clock (Mount.request?_of_asks hasks)

/-- A round from `s` to `s'` between the hosts `x` and `y`. Each of them has one operation, on
the same paths, and no other host has any. The conflict check refuses one of the requests, and
nothing else does. -/
structure FuseRound (c : Cluster) (x y : PeerName) (s : System) (as : List Action)
    (s' : System) : Prop where
  start : s.Finished
  steps : ∃ path newPath, run (contendStep c [x, y] path newPath s) s as = some s'
  finish : s'.Finished
  issued : ∀ z tid r, Action.host z (.replicate tid r) ∈ as → Issued r
  called : s.called s' x = true ∧ s.called s' y = true
  conflict : ∃ z i t, s'.task? z i = some t ∧ s.task? z i = none ∧ t.refused = true

/-- The host `x` loses the round from `s` to `s'`: `Replicate` returns an error. -/
def LosesRound (x : PeerName) (s s' : System) : Prop := ∃ e, s.Returned s' x (some e)

section Round
variable {c : Cluster} {x y : PeerName} {s s' : System} {as : List Action}

/-- The roles of the two hosts are the same, so a statement about one of them holds for both. -/
theorem FuseRound.swap (h : FuseRound c x y s as s') : FuseRound c y x s as s' := by
  obtain ⟨path, newPath, hrun⟩ := h.steps
  refine ⟨h.start, ⟨path, newPath, ?_⟩, h.finish, h.issued, h.called.symm, h.conflict⟩
  have hguard : contendGuard [y, x] path newPath s = contendGuard [x, y] path newPath s := by
    funext m a
    unfold contendGuard
    split
    · simp [or_comm]
    · rfl
    · rfl
  unfold contendStep
  rw [hguard]
  exact hrun

/-- A round of operations is one in which every request is stamped with 0. -/
theorem FuseRound.stamped (h : FuseRound c x y s as s') :
    ∃ path newPath, run (restrict (contendStep c [x, y] path newPath s)
      (P2p.stamped fun _ => 0)) s as = some s' := by
  obtain ⟨path, newPath, hrun⟩ := h.steps
  refine ⟨path, newPath, run_restrict ?_ hrun⟩
  intro m a ha
  unfold P2p.stamped
  split
  · rename_i z tid r
    exact decide_eq_true (h.issued z tid r ha).clock
  · rfl

/-- The state after a round is one of a fault-free run, so the next round can start from it. -/
theorem FuseRound.reachableFF (h : FuseRound c x y s as s') (hs : ReachableFF c s) :
    ReachableFF c s' := by
  obtain ⟨path, newPath, hrun⟩ := h.steps
  exact hs.trans (Reaches.of_restrict ⟨as, hrun⟩)

/-- With equal stamps the names decide. All stamps of `rfs` are 0. -/
private theorem priority_zero_lt {p q : PeerName} (h : priority 0 p < priority 0 q) : p < q := by
  rw [priority_lt_iff] at h
  simpa using h

/-- The operation of the greater name gets through, in every round. It outranks the other one at
both hosts. -/
theorem FuseRound.greater_nil (h : FuseRound c x y s as s') (hs : ReachableFF c s) (hxy : x < y)
    {res : Option ReplicateError} (hres : s.Returned s' y res) : res = none := by
  obtain ⟨path, newPath, hrun⟩ := h.stamped
  refine stamped_nil hs h.start hrun (fun q hq hlt => ?_) hres
  have hyq := priority_zero_lt hlt
  rcases List.mem_pair.mp hq with rfl | rfl
  · exact lt_asymm hxy hyq
  · exact lt_irrefl _ hyq

/-- The operation of the lesser name fails, in every round and not only in the first one. -/
theorem FuseRound.lesser_loses (h : FuseRound c x y s as s') (hs : ReachableFF c s)
    (hxy : x < y) : LosesRound x s s' := by
  obtain ⟨path, newPath, hrun⟩ := h.stamped
  obtain ⟨z, k, v, hv, hvnew, href⟩ := h.conflict
  obtain ⟨p, hp, q, hq, hlt, hnot⟩ := stamped_fails hs h.start hrun hv hvnew href
  have hpq := priority_zero_lt hlt
  -- Of the two contenders, only the lesser name is outranked.
  obtain rfl : p = x := by
    rcases List.mem_pair.mp hp with rfl | rfl
    · rfl
    · rcases List.mem_pair.mp hq with rfl | rfl
      · exact absurd hpq (lt_asymm hxy)
      · exact absurd hpq (lt_irrefl _)
  obtain ⟨res, hres⟩ := System.returned_of_called h.finish h.called.1
  cases res with
  | none => exact absurd hres hnot
  | some e => exact ⟨e, hres⟩

end Round

/-- Neither host loses two rounds in a row. The list has the states between the rounds. -/
def NeverTwice (x y : PeerName) (states : List System) : Prop :=
  ∀ z, z = x ∨ z = y → ∀ (k : Nat) u v w, states[k]? = some u → states[k + 1]? = some v →
    states[k + 2]? = some w → ¬ (LosesRound z u v ∧ LosesRound z v w)

/-- Some host loses the first two rounds. It is the one with the lesser name, which never
changes. -/
theorem loses_twice {c : Cluster} {x y : PeerName} (hne : x ≠ y) {s u v : System}
    (hs : ReachableFF c s) {as bs : List Action} (h₁ : FuseRound c x y s as u)
    (h₂ : FuseRound c x y u bs v) :
    ∃ z, (z = x ∨ z = y) ∧ LosesRound z s u ∧ LosesRound z u v := by
  have hu := h₁.reachableFF hs
  rcases lt_or_gt_of_ne hne with hlt | hgt
  · exact ⟨x, .inl rfl, h₁.lesser_loses hs hlt, h₂.lesser_loses hu hlt⟩
  · exact ⟨y, .inr rfl, h₁.swap.lesser_loses hs hgt, h₂.swap.lesser_loses hu hgt⟩

/-- In any sequence of rounds between two hosts, from any clocks, no host loses two rounds in a row
exactly when there are fewer than two rounds. The requests of rfs carry the stamp 0, so the clocks
that the losers increment have no effect, and the same name loses each time. -/
theorem fuse_rounds_starve (c : Cluster) (x y : PeerName) (hne : x ≠ y) (s : System)
    (ss : List System) (hs : ReachableFF c s)
    (hrounds : List.IsChain (fun s s' => ∃ as, FuseRound c x y s as s') (s :: ss)) :
    NeverTwice x y (s :: ss) ↔ ss.length < 2 := by
  constructor
  · intro hnever
    by_contra hlen
    -- The first two rounds are enough: the smaller name loses both.
    match ss with
    | [] | [_] => simp at hlen
    | u :: v :: rest =>
      simp only [List.isChain_cons_cons] at hrounds
      obtain ⟨⟨as, h₁⟩, ⟨bs, h₂⟩, -⟩ := hrounds
      obtain ⟨z, hz, hloses⟩ := loses_twice hne hs h₁ h₂
      exact hnever z hz 0 s u v rfl rfl rfl hloses
  · intro hlen z hz k u v w _ _ hw
    have hlt := (List.getElem?_eq_some_iff.mp hw).1
    rw [List.length_cons] at hlt
    omega

/-- The request of `rootFile.Write` on a file `p`. -/
def fileWrite : Request := writeRequest ⟨"p", 0⟩ [1] 0

/-- The request is one that `rfsFile` makes, so the starvation is that of a real call. -/
theorem fileWrite_issued : Issued fileWrite :=
  ⟨someMirror, someProcess, { disk := { tree := someTree }, handles := [some ⟨"p", 0⟩] },
    .file 0 (.write [1] 0), rfl⟩

/-- Both hosts write to the file before they hear of each other. The host `b` refuses the request
of `a`, which votes for the one of `b`. -/
def writeRound (ref : Nat) (aTid bTid : TransactionID) : List Action :=
  calls "b" ref bTid fileWrite ["a"] ++ calls "a" ref aTid fileWrite ["b"] ++
    hears "b" (newRequestMessage aTid "a" fileWrite) ++ votes "b" (ref + 1) ["a"] ++
    hears "a" (newRequestMessage bTid "b" fileWrite) ++ votes "a" (ref + 1) ["b"] ++
    hears "b" (newResponseMessage bTid "a" ack) ++
    hears "a" (newResponseMessage aTid "b" (nack .transactionConflict errTransactionConflict)) ++
    [.host "b" (.task ref .run), .host "b" (.task ref .run),
      .host "a" (.task ref .run), .host "a" (.task ref .run),
      .host "b" (.task (ref + 1) .run), .host "b" (.task (ref + 1) .run),
      .host "a" (.task (ref + 1) .run), .host "a" (.task (ref + 1) (.mirrored none)),
      .host "a" (.task (ref + 1) .run)]

/-- The state after the round. -/
def playWrites (ref : Nat) (aTid bTid : TransactionID) (s : System) : Option System :=
  (run (contendStep duo ["a", "b"] "p" "" s) s (writeRound ref aTid bTid)).bind fun s' =>
    if Duel.finished s' ∧ s.called s' "a" ∧ s.called s' "b" ∧
      (s'.task? "b" (ref + 1)).any Task.refused ∧ (s.task? "b" (ref + 1)).isNone
    then some s' else none

/-- The requests of the round are the ones of `rootFile.Write`, so the round is one of FUSE
operations. -/
private theorem writeRound_requests {ref : Nat} {aTid bTid : TransactionID} {z : PeerName}
    {tid : TransactionID} {r : Request}
    (h : Action.host z (.replicate tid r) ∈ writeRound ref aTid bTid) : r = fileWrite := by
  simp only [writeRound, calls, hears, votes, List.mem_append, List.mem_cons,
    Action.host.injEq, Event.replicate.injEq, List.not_mem_nil, reduceCtorEq, and_false,
    or_false] at h
  rcases h with ⟨-, -, h⟩ | ⟨-, -, h⟩ <;> exact h

/-- What was played is a round of operations. All its conditions are computed from the states. -/
private theorem fuseRound_of_play {ref : Nat} {aTid bTid : TransactionID} {s s' : System}
    (hs : ReachableFF duo s) (hstart : s.Finished) (hplay : playWrites ref aTid bTid s = some s') :
    FuseRound duo "a" "b" s (writeRound ref aTid bTid) s' := by
  obtain ⟨m, hrun, hplay⟩ := Option.bind_eq_some_iff.mp hplay
  split at hplay
  · rename_i hend
    cases hplay
    obtain ⟨hfinished, hca, hcb, href, hnew⟩ := hend
    rw [Option.any_eq_true] at href
    obtain ⟨t, ht, href⟩ := href
    -- The played run is fault-free, so its end is a state that rounds may start from.
    have hs' : ReachableFF duo s' := hs.trans (Reaches.of_restrict ⟨_, hrun⟩)
    refine ⟨hstart, ⟨_, _, hrun⟩, finished_of_check hs' hfinished, ?_, ⟨hca, hcb⟩, ?_⟩
    · intro z tid r hmem
      rw [writeRound_requests hmem]
      exact fileWrite_issued
    · exact ⟨"b", ref + 1, t, ht, Option.isNone_iff_eq_none.mp hnew, href⟩
  · cases hplay

/-- Two rounds in which both hosts write to one file. The run is evaluated once, and used in what
follows. -/
private theorem exists_writes :
    ∃ u v, FuseRound duo "a" "b" (System.init duo fun _ => 0) (writeRound 0 "a0" "b0") u ∧
      FuseRound duo "a" "b" u (writeRound 2 "a1" "b1") v ∧ ReachableFF duo u := by
  have hobs : ((playWrites 0 "a0" "b0" (System.init duo fun _ => 0)).bind
      (playWrites 2 "a1" "b1")).isSome = true := by decide
  obtain ⟨v, hv⟩ := Option.isSome_iff_exists.mp hobs
  obtain ⟨u, hu, hv⟩ := Option.bind_eq_some_iff.mp hv
  have hinit : ReachableFF duo (System.init duo fun _ => 0) := ⟨_, Reaches.refl _⟩
  have hround := fuseRound_of_play hinit (finished_init _ _) hu
  have hsu := hround.reachableFF hinit
  exact ⟨u, v, hround, fuseRound_of_play hsu hround.finish hv, hsu⟩

/-- The clocks are equal at the start, and `a` loses both rounds. All requests carry the stamp 0, so
only the names are compared. -/
theorem write_rounds_starve :
    ∃ u v as bs, FuseRound duo "a" "b" (System.init duo fun _ => 0) as u ∧
      FuseRound duo "a" "b" u bs v ∧ LosesRound "a" (System.init duo fun _ => 0) u ∧
      LosesRound "a" u v := by
  obtain ⟨u, v, h₁, h₂, hu⟩ := exists_writes
  have hlt : ("a" : PeerName) < "b" := by decide
  exact ⟨u, v, _, _, h₁, h₂, h₁.lesser_loses ⟨_, Reaches.refl _⟩ hlt, h₂.lesser_loses hu hlt⟩

/-- The two rounds are a sequence as in the theorem, and the host `a` loses both. -/
theorem write_rounds_chain :
    ∃ u v, List.IsChain (fun s s' => ∃ as, FuseRound duo "a" "b" s as s')
        [System.init duo fun _ => 0, u, v] ∧
      ¬ NeverTwice "a" "b" [System.init duo fun _ => 0, u, v] := by
  obtain ⟨u, v, h₁, h₂, -⟩ := exists_writes
  have hchain : List.IsChain (fun s s' => ∃ as, FuseRound duo "a" "b" s as s')
      [System.init duo fun _ => 0, u, v] := by
    exact .cons_cons ⟨_, h₁⟩ (.cons_cons ⟨_, h₂⟩ (.singleton v))
  refine ⟨u, v, hchain, ?_⟩
  rw [fuse_rounds_starve duo "a" "b" (by decide) _ [u, v] ⟨_, Reaches.refl _⟩ hchain]
  exact Nat.lt_irrefl 2

end ReplicatedFs.Rfs
