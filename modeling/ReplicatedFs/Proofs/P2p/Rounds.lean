import ReplicatedFs.Library.Contest
import ReplicatedFs.Proofs.P2p.RoundInvariant

/-!
# `ReplicatedFs.Proofs.P2p.Rounds`: the conflicts clock bounds how long a host loses

A `Round` is a contest between hosts. It is won by the contender with the greatest clock, and
by the greatest name among those, when every other contender is checked against a request of
greater rank.

* `Round.result`: the call of the winner returns nil, and the calls of the others fail.
* `Round.clock_eq`: the clock of the others grows by one, and no other clock changes.
* `Rounds.play`: so a sequence of rounds is a sequence of contests on the clocks.
* `starvation_bound`: the rounds that a host loses in a row are bounded by the clocks at their
  start. The clocks at the start of the whole sequence do not bound them: see
  `loses_after_winning`.
-/

set_option autoImplicit false

namespace ReplicatedFs.P2p

open ReplicatedFs.Protobuf
open Library

/-- The conflicts clocks of all hosts. -/
def System.clocks (s : System) (x : PeerName) : Nat := (s.hosts x).clock.toNat

/-- In the run, the contender `x` is checked against a request of greater rank. Its own check
finds one of another contender, or the host of the winner handles its request while the
transaction of the winner is in the map there. -/
def LosesCheck (c : Cluster) (r : Contest PeerName) (s : System) (as : List Action)
    (x : PeerName) : Prop :=
  ∃ before after y i m t msg, as = before ++ .host y (.task i .run) :: after ∧
    run (System.step c) s before = some m ∧ m.task? y i = some t ∧ msg.peerName = x ∧
    ((y = x ∧ t.goroutine = .replicate (.check msg) ∧
        ∃ tr ∈ (m.hosts x).table, tr.initiatorName ∈ r.contenders ∧
          ∃ req, msg.getRequest = some req ∧ Beats tr x req) ∨
      (y = r.winner ∧ (∃ request verdict, t.goroutine = .handle (.detect msg request verdict)) ∧
        ∃ tr ∈ (m.hosts r.winner).table, tr.initiatorName = r.winner ∧ tr.request.isSome))

/-- A round from `s` to `s'`. Every contender calls `Replicate` once on the paths, with its own
clock. The winner is the one with the greatest clock and name, and the others lose a check. -/
structure Round (c : Cluster) (r : Contest PeerName) (path newPath : String) (s : System)
    (as : List Action) (s' : System) : Prop where
  start : s.Finished
  steps : run (roundStep c r.contenders path newPath s) s as = some s'
  finish : s'.Finished
  called : ∀ x ∈ r.contenders, s.called s' x = true
  winner : r.Wins s.clocks
  losers : ∀ x, r.Loses x → LosesCheck c r s as x

section Round
variable {c : Cluster} {r : Contest PeerName} {path newPath : String} {s s' : System}
variable {as : List Action}

/-- The state after a round is one of a fault-free run, so the invariants hold in it and another
round can follow. -/
theorem Round.reachableFF (hround : Round c r path newPath s as s') (hs : ReachableFF c s) :
    ReachableFF c s' :=
  hs.trans (Reaches.of_restrict ⟨as, hround.steps⟩)

/-- The winner has the greatest rank. This is how the winner of a round is defined, by the clocks at
its start. -/
private theorem Round.not_outranked (hround : Round c r path newPath s as s') {q : PeerName}
    (hq : q ∈ r.contenders) :
    ¬ priority (s.hosts r.winner).clock r.winner < priority (s.hosts q).clock q := by
  intro hlt
  by_cases hqw : q = r.winner
  · rw [hqw] at hlt
    exact lt_irrefl _ hlt
  · exact lt_asymm hlt (hround.winner.2 q hq hqw)

/-- No task refuses the call of the winner, because no call of the round outranks it. -/
private theorem Round.winner_not_refused (hround : Round c r path newPath s as s')
    (hs : ReachableFF c s) {i : Nat} {t : Task} (ht : s'.task? r.winner i = some t)
    (hnew : s.task? r.winner i = none) (hrep : t.goroutine.isReplicate = true) {y : PeerName}
    {k : Nat} {v : Task} (hv : s'.task? y k = some v) (htid : v.trans.tid = t.trans.tid) :
    v.refused = false := by
  obtain ⟨hr, hi, -⟩ := RoundInv.run hs hround.start hround.steps
  cases href : v.refused with
  | false => rfl
  | true =>
    obtain ⟨p, j, u, q, hu, hurep, hutid, hq, hlt⟩ :=
      hr.refused hv (hr.new_of_tid ht hnew hv htid) href
    obtain ⟨rfl, -⟩ := hi.initiators hu ht hurep hrep (hutid.trans htid)
    exact absurd hlt (hround.not_outranked hq)

/-- When a host votes against a transaction of the round, it is for a conflict. The verdicts of the
mirrors are all `ACK` in a round. -/
private theorem RoundInv.refused_of_vetoed {contenders : List PeerName} {s₀ : System}
    (hr : RoundInv contenders path newPath s₀ s) (hi : SystemInv c s) {x : PeerName} {i : Nat}
    {t : Task} (ht : s.task? x i = some t) (hnew : s₀.task? x i = none)
    (hveto : (s.election t.trans.tid).Vetoed (c.peers x)) :
    ∃ y k v, s.task? y k = some v ∧ v.trans.tid = t.trans.tid ∧ v.refused = true := by
  obtain ⟨y, -, hvote⟩ := hveto
  obtain ⟨b, ⟨k, v, hv, hvtid, hb⟩, happroves⟩ := hi.vote?_eq_some.mp hvote
  have hack := hr.acked hv (hr.new_of_tid ht hnew hv hvtid) b (v.ballots_subset_votes hb)
  have hconflict : b.conflict = true := by simpa [Ballot.approves, hack] using happroves
  refine ⟨y, k, v, hv, hvtid, ?_⟩
  simp only [Task.refused, Bool.or_eq_true, List.any_eq_true]
  exact .inr ⟨b, v.ballots_subset_votes hb, hconflict⟩

/-- A call that no task refuses does not fail. There are no faults in a round, and all the mirrors
approve. So each way to fail leads back to a refusal: a conflict found at its own host, or a vote
against it. -/
theorem RoundInv.nil_of_not_refused {contenders : List PeerName} {s₀ : System}
    (hr : RoundInv contenders path newPath s₀ s) (hi : SystemInv c s) (hf : FaultFreeInv c s)
    {x : PeerName} {i : Nat} {t : Task} (ht : s.task? x i = some t)
    (hnew : s₀.task? x i = none) {res : Option ReplicateError}
    (hg : t.goroutine = .replicate (.returned res))
    (hnone : ∀ y k v, s.task? y k = some v → v.trans.tid = t.trans.tid → v.refused = false) :
    res = none := by
  have hrep : t.goroutine.isReplicate = true := by rw [hg]; rfl
  have hfault := hf.faultless ht
  rw [hg] at hfault
  rcases of_decide_eq_true hfault with rfl | rfl | rfl
  · rfl
  · have := hnone x i t ht rfl
    simp [Task.refused, hg, Goroutine.result?] at this
  · -- A veto of the call needs a vote against it.
    have hdecision : (s.election t.trans.tid).decisions (x, i) = some .veto := by
      rw [election_decisions ht, hg]
      rfl
    obtain ⟨y, k, v, hv, hvtid, href⟩ :=
      hr.refused_of_vetoed hi ht hnew (hi.election_sound ht hrep (x, i) .veto hdecision)
    rw [hnone y k v hv hvtid] at href
    cases href

/-- A host that called has a call with a result at the end of the round. The round ends when every
reader has returned, and `called` finds the task of the call behind the tasks from the start of the
round. -/
theorem exists_returned (hfinish : s'.Finished) {x : PeerName}
    (hcalled : s.called s' x = true) :
    ∃ i t res, s'.task? x i = some t ∧ s.task? x i = none ∧
      t.goroutine = .replicate (.returned res) := by
  obtain ⟨t, hmem, hrep⟩ := List.any_eq_true.mp hcalled
  obtain ⟨k, hk⟩ := List.mem_iff_getElem?.mp hmem
  rw [List.getElem?_drop] at hk
  -- The tasks of the round are the ones behind those at its start.
  have ht : s'.task? x ((s.hosts x).tasks.length + k) = some t := hk
  have hnew : s.task? x ((s.hosts x).tasks.length + k) = none :=
    List.getElem?_eq_none_iff.mpr (Nat.le_add_right _ _)
  -- At the end of the round every task is finished.
  have hdead := hfinish.1 x _ t ht
  cases hg : t.goroutine with
  | handle pc =>
    rw [hg] at hrep
    cases hrep
  | replicate pc =>
    rw [hg] at hdead
    cases pc with
    | returned res => exact ⟨_, t, res, ht, hnew, hg⟩
    | _ => cases hdead

/-- A task at its conflict check is alive, so it is one of the round. -/
private theorem Task.Checks.alive {t : Task} {msg : Message} (h : t.Checks msg) :
    t.goroutine.alive = true := by
  rcases h with hg | ⟨request, verdict, hg⟩ <;> rw [hg] <;> rfl

/-- The check that a contender loses is against a request of greater rank. -/
private theorem Round.beaten (hround : Round c r path newPath s as s') (hs : ReachableFF c s)
    {x : PeerName} (hx : r.Loses x) :
    ∃ before after y i m t msg req tr, as = before ++ .host y (.task i .run) :: after ∧
      run (roundStep c r.contenders path newPath s) s before = some m ∧
      m.task? y i = some t ∧ t.Checks msg ∧ msg.peerName = x ∧ msg.getRequest = some req ∧
      tr ∈ (m.hosts y).table ∧ Beats tr x req := by
  obtain ⟨before, after, y, i, m, t, msg, rfl, hbefore, ht, hname, hcase⟩ := hround.losers x hx
  obtain ⟨m', hm', hafter⟩ := run_append_eq_some.mp hround.steps
  obtain rfl : m' = m :=
    Option.some.inj ((run_of_restrict (run_of_restrict hm')).symm.trans hbefore)
  obtain ⟨hr, hi, -⟩ := RoundInv.run hs hround.start hm'
  rcases hcase with ⟨rfl, hg, tr, htr, -, req, hreq, hbeats⟩ | ⟨rfl, hg, tr, htr, hinit, hsome⟩
  · exact ⟨before, after, y, i, m', t, msg, req, tr, rfl, hm', ht, .inl hg, hname, hreq, htr,
      hbeats⟩
  · -- The request in the map is the one of the winner, which outranks every other.
    obtain ⟨r', hr'⟩ := Option.isSome_iff_exists.mp hsome
    obtain ⟨-, hon', hclock'⟩ := hr.table_call hi hround.start htr hr'
    have hchecks : t.Checks msg := .inr hg
    obtain ⟨p, j, u, req, hu, hurep, hutid, hureq, rfl⟩ := hi.checked_request ht hchecks
    obtain rfl : p = x := hname
    have hunew := hr.new_of_tid ht (hr.new_of_alive hround.start ht hchecks.alive) hu hutid
    obtain ⟨-, req', hreq', hon, hclock⟩ := hr.calls hu hunew hurep
    obtain rfl : req = req' := Option.some.inj (hureq.symm.trans hreq')
    refine ⟨before, after, r.winner, i, m', t, _, req, tr, rfl, hm', ht, hchecks, rfl, rfl,
      htr, r', hr', ?_, onPaths_samePaths hon' hon, ?_⟩
    · rw [hinit]
      exact Ne.symm hx.2
    · rw [hclock, hclock', hinit]
      exact hround.winner.2 p hx.1 hx.2

/-- The call of another contender fails. In some conflict check it meets a call that outranks it,
and it is refused there. -/
private theorem Round.loser_fails (hround : Round c r path newPath s as s')
    (hs : ReachableFF c s) {x : PeerName} (hx : r.Loses x) {i : Nat} {t : Task}
    (ht : s'.task? x i = some t) (hnew : s.task? x i = none)
    (hrep : t.goroutine.isReplicate = true) : t.goroutine.result? ≠ some none := by
  obtain ⟨before, after, y, k, m, v, msg, req, tr, rfl, hbefore, hv, hchecks, hname, hreq, htr,
    hbeats⟩ := hround.beaten hs hx
  obtain ⟨m₁, hm₁, hafter⟩ := run_append_eq_some.mp hround.steps
  obtain rfl : m₁ = m := Option.some.inj (hm₁.symm.trans hbefore)
  obtain ⟨m₂, hstep, hafter⟩ := run_cons_eq_some.mp hafter
  have hff := (restrict_eq_some.mp hstep).2
  obtain ⟨hr, hi, -⟩ := RoundInv.run hs hround.start hbefore
  obtain ⟨hr', hi', -⟩ := RoundInv.run hs hround.start hround.steps
  obtain ⟨v', hv', hvtid, href⟩ :=
    hi.refused_of_beats hv hchecks hreq htr (hname ▸ hbeats) (restrict_eq_some.mp hff).2
  have hlater : Reaches (System.step c) m₂ s' :=
    ⟨after, run_of_restrict (run_of_restrict hafter)⟩
  obtain ⟨v'', hv'', hext⟩ := (Reaches.extends hlater).tasks hv'
  refine hi'.result_of_refused hv'' (hext.refused_mono href) ht hrep ?_
  -- The checked request is the one of the only call of the contender.
  obtain ⟨p, j, u, req', hu, hurep, hutid, -, rfl⟩ := hi.checked_request hv hchecks
  obtain rfl : p = x := hname
  have hunew := hr.new_of_tid hv (hr.new_of_alive hround.start hv hchecks.alive) hu hutid
  have hcheck : Reaches (System.step c) m₁ s' :=
    (Reaches.single (restrict_eq_some.mp hff).2).trans hlater
  obtain ⟨u', hu', hext'⟩ := (Reaches.extends hcheck).tasks hu
  obtain rfl := hr'.once ht hnew hrep hu' hunew (hext'.kind.trans hurep)
  obtain rfl : t = u' := Option.some.inj (ht.symm.trans hu')
  rw [hext'.tid, hutid, hext.tid, hvtid]

/-- The one call of a contender. It has returned nil exactly at the winner. The others have met a
request of greater rank in some map, and the winner is refused nowhere. -/
theorem Round.result (hround : Round c r path newPath s as s') (hs : ReachableFF c s)
    {x : PeerName} (hx : x ∈ r.contenders) :
    ∃ i t res, s'.task? x i = some t ∧ s.task? x i = none ∧
      t.goroutine = .replicate (.returned res) ∧ (res = none ↔ x = r.winner) ∧
      ∀ j u, s'.task? x j = some u → s.task? x j = none →
        u.goroutine.isReplicate = true → j = i := by
  obtain ⟨hr, hi, hf⟩ := RoundInv.run hs hround.start hround.steps
  obtain ⟨i, t, res, ht, hnew, hg⟩ := exists_returned hround.finish (hround.called x hx)
  have hrep : t.goroutine.isReplicate = true := by rw [hg]; rfl
  refine ⟨i, t, res, ht, hnew, hg, ⟨fun hnil => ?_, ?_⟩, fun j u hu hunew hurep =>
    hr.once hu hunew hurep ht hnew hrep⟩
  · -- A contender that is not the winner was refused.
    by_contra hne
    refine hround.loser_fails hs ⟨hx, hne⟩ ht hnew hrep ?_
    rw [hg, hnil]
    rfl
  · rintro rfl
    exact hr.nil_of_not_refused hi hf ht hnew hg fun y k v hv htid =>
      hround.winner_not_refused hs ht hnew hrep hv htid

/-- The clocks after a round: those of the losers have grown by one. -/
theorem Round.clock_eq (hround : Round c r path newPath s as s') (hs : ReachableFF c s)
    (x : PeerName) :
    (s'.hosts x).clock = if r.Loses x then (s.hosts x).clock + 1 else (s.hosts x).clock := by
  obtain ⟨hr, -, -⟩ := RoundInv.run hs hround.start hround.steps
  split
  · rename_i hx
    obtain ⟨i, t, res, ht, hnew, hg, hiff, -⟩ := hround.result hs hx.1
    refine hr.clock_failed ht hnew (Task.failed_iff.mpr ?_)
    cases res with
    | none => exact absurd (hiff.mp rfl) hx.2
    | some e => exact ⟨e, by rw [hg]; rfl⟩
  · rename_i hx
    refine hr.clock_kept fun i t ht hnew => ?_
    cases hfailed : t.failed with
    | false => rfl
    | true =>
      -- A failed call is the one of a contender, and not of the winner.
      exfalso
      have hrep := Task.isReplicate_of_failed hfailed
      have hmem := (hr.calls ht hnew hrep).1
      obtain rfl : x = r.winner := by
        by_contra hne
        exact hx ⟨hmem, hne⟩
      obtain ⟨j, u, res, hu, hunew, hg, hiff, honly⟩ := hround.result hs hmem
      obtain rfl := honly i t ht hnew hrep
      obtain rfl : t = u := Option.some.inj (ht.symm.trans hu)
      rw [hiff.mpr rfl] at hg
      simp [Task.failed, hg, Goroutine.result?] at hfailed

end Round

/-- Rounds one after the other. No clock is at its greatest value when a round starts. -/
inductive Rounds (c : Cluster) : System → List (Contest PeerName) → System → Prop
  | nil (s : System) : Rounds c s [] s
  | cons {s m s' : System} {r : Contest PeerName} {rs : List (Contest PeerName)}
      {path newPath : String} {as : List Action} (hround : Round c r path newPath s as m)
      (hroom : ∀ x ∈ c.names, s.clocks x < 2 ^ 64 - 1) (hrest : Rounds c m rs s') :
      Rounds c s (r :: rs) s'

section Rounds
variable {c : Cluster} {s s' : System} {rs : List (Contest PeerName)}

/-- The state after some rounds is one of a fault-free run, by induction on the rounds. -/
theorem Rounds.reachableFF (h : Rounds c s rs s') (hs : ReachableFF c s) :
    ReachableFF c s' := by
  induction h with
  | nil s => exact hs
  | cons hround hroom hrest ih => exact ih (hround.reachableFF hs)

/-- The contenders are hosts of the cluster, since they have made a call. -/
theorem Round.contender_mem {r : Contest PeerName} {path newPath : String} {as : List Action}
    (hround : Round c r path newPath s as s') (hs : ReachableFF c s) {x : PeerName}
    (hx : x ∈ r.contenders) : x ∈ c.names := by
  obtain ⟨i, t, res, ht, -⟩ := hround.result hs hx
  exact (hround.reachableFF hs).inv.1.members ht

/-- A round is a contest on the clocks. The clocks need some room, as they would start again from 0
otherwise. -/
theorem Round.play {r : Contest PeerName} {path newPath : String} {as : List Action}
    (hround : Round c r path newPath s as s') (hs : ReachableFF c s)
    (hroom : ∀ x ∈ c.names, s.clocks x < 2 ^ 64 - 1) : r.play s.clocks = some s'.clocks := by
  rw [Contest.play, if_pos hround.winner, Option.some.injEq]
  funext x
  simp only [Contest.counted, System.clocks, hround.clock_eq hs x]
  split
  · rename_i hx
    have hlt := hroom x (hround.contender_mem hs hx.1)
    simp only [System.clocks] at hlt
    rw [UInt64.toNat_add, UInt64.toNat_one, Nat.mod_eq_of_lt (by omega)]
  · rfl

/-- Rounds are contests on the clocks, one after the other. The rest is proved about contests. -/
theorem Rounds.play (h : Rounds c s rs s') (hs : ReachableFF c s) :
    run Contest.play s.clocks rs = some s'.clocks := by
  induction h with
  | nil s => rfl
  | cons hround hroom hrest ih =>
    exact run_cons_eq_some.mpr ⟨_, hround.play hs hroom, ih (hround.reachableFF hs)⟩

/-- The winners are hosts of the cluster, as they are contenders. -/
theorem Rounds.winner_mem (h : Rounds c s rs s') (hs : ReachableFF c s) :
    ∀ r ∈ rs, r.winner ∈ c.names := by
  induction h with
  | nil s => simp
  | cons hround hroom hrest ih =>
    intro r hr
    rcases List.mem_cons.mp hr with rfl | hr
    · exact hround.contender_mem hs hround.winner.1
    · exact ih (hround.reachableFF hs) r hr

/-- The rounds that `h` loses in a row are bounded by how far the others are ahead of it. -/
theorem Rounds.length_le (hrounds : Rounds c s rs s') (hs : ReachableFF c s) {h : PeerName}
    (hloses : ∀ r ∈ rs, r.Loses h) : rs.length ≤ advantage (c.peers h) h s.clocks := by
  have hrun : run (losing (c.peers h) h) s.clocks rs = some s'.clocks := by
    refine run_restrict (fun _ r hr => decide_eq_true ⟨hloses r hr, ?_⟩) (hrounds.play hs)
    exact Cluster.mem_peers.mpr ⟨hrounds.winner_mem hs r hr, Ne.symm (hloses r hr).2⟩
  exact losing_streak_le hrun

end Rounds

/-- Two hosts that call `Replicate` for the path `p`, before they hear of each other. -/
structure Duel where
  winner : PeerName
  loser : PeerName
  /-- The index of both calls among the tasks of their hosts. -/
  ref : Nat
  winnerTid : TransactionID
  loserTid : TransactionID
  winnerClock : UInt64
  loserClock : UInt64

namespace Duel

def contest (d : Duel) : Contest PeerName := ⟨["a", "b"], d.winner⟩

def winnerRequest (d : Duel) : Message :=
  newRequestMessage d.winnerTid d.winner (mkdirRequest "p" d.winnerClock)

def loserRequest (d : Duel) : Message :=
  newRequestMessage d.loserTid d.loser (mkdirRequest "p" d.loserClock)

/-- Both call, and the winner is about to check the request of the loser. -/
def before (d : Duel) : List Action :=
  calls d.winner d.ref d.winnerTid (mkdirRequest "p" d.winnerClock) [d.loser] ++
    calls d.loser d.ref d.loserTid (mkdirRequest "p" d.loserClock) [d.winner] ++
    hears d.winner d.loserRequest ++ [.host d.winner (.task (d.ref + 1) (.consulted ack))]

/-- The winner refuses the request, the loser votes for the other one, and all return. -/
def after (d : Duel) : List Action :=
  [.host d.winner (.task (d.ref + 1) (reaching [d.loser]))] ++
    hears d.loser d.winnerRequest ++ votes d.loser (d.ref + 1) [d.winner] ++
    hears d.winner (newResponseMessage d.winnerTid d.loser ack) ++
    hears d.loser (newResponseMessage d.loserTid d.winner
      (nack .transactionConflict errTransactionConflict)) ++
    [.host d.winner (.task d.ref .run), .host d.winner (.task d.ref .run),
      .host d.loser (.task d.ref .run), .host d.loser (.task d.ref .run),
      .host d.winner (.task (d.ref + 1) .run), .host d.winner (.task (d.ref + 1) .run),
      .host d.loser (.task (d.ref + 1) .run), .host d.loser (.task (d.ref + 1) (.mirrored none)),
      .host d.loser (.task (d.ref + 1) .run)]

def check (d : Duel) : Action := .host d.winner (.task (d.ref + 1) .run)

/-- Every reader has returned, and no message is in flight. -/
def finished (s : System) : Bool :=
  s.inFlight = [] && duo.names.all fun x => (s.hosts x).tasks.all fun t => !t.goroutine.alive

/-- The state after the duel, when it is a round. -/
def play (d : Duel) (s : System) : Option System :=
  let step := roundStep duo d.contest.contenders "p" "" s
  (run step s d.before).bind fun m =>
    if (m.task? d.winner (d.ref + 1)).any (fun t => t.goroutine = .handle
          (.detect d.loserRequest (mkdirRequest "p" d.loserClock) ack)) ∧
        (m.hosts d.winner).table.any (fun tr => tr.initiatorName = d.winner ∧
          tr.request.isSome) then
      (run step m (d.check :: d.after)).bind fun s' =>
        if finished s' ∧ d.contest.contenders.all (fun x => s.called s' x) ∧
          d.contest.Wins s.clocks ∧ (∀ x ∈ d.contest.contenders, x ≠ d.winner → x = d.loser) ∧
          duo.names.all (fun x => s.clocks x < 2 ^ 64 - 1)
        then some s' else none
    else none

end Duel

/-- Reading `System.Finished` off the tasks of the cluster. Other names have no tasks, so the check
is enough. -/
theorem finished_of_check {s : System} (hs : ReachableFF duo s)
    (h : Duel.finished s = true) : s.Finished := by
  simp only [Duel.finished, Bool.and_eq_true, decide_eq_true_eq, List.all_eq_true,
    Bool.not_eq_true'] at h
  refine ⟨fun x i t ht => ?_, h.1⟩
  exact h.2 x (hs.inv.1.members ht) t (List.mem_of_getElem? ht)

/-- The initial system is finished. It has no tasks, and nothing is in flight. -/
theorem finished_init (c : Cluster) (clocks : PeerName → UInt64) :
    (System.init c clocks).Finished :=
  ⟨fun x i t ht => by simp [System.task?, System.init] at ht, rfl⟩

end ReplicatedFs.P2p
