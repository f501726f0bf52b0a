import ReplicatedFs.Library.Run
import ReplicatedFs.Proofs.Connection.PoolStep
import ReplicatedFs.Proofs.Connection.Verdict

/-!
# `ReplicatedFs.Proofs.Connection.MutualDial`: two hosts that dial each other

Each of the two hosts runs `Establish` on both QUIC connections: on the one that it dialed and on
the one that it accepted. The counters are there to tell the first from the second. When both hosts
count them in the same order, the counters are equal on both connections. Then both hosts accept
both, and each of them keeps the one whose `Establish` takes the mutex first. `hosts_apart` is such
a run. The comment on the fallback in `Establish` says that both peers must not arrive at different
conclusions.

When the hosts count in opposite orders, the counters differ on both connections, and the fallback
accepts one of them. `Duo.crossed` admits these runs: the connection that one host counts second is
not the one that the other counts second. `one_connection` says that the hosts agree there.

The invariant is one of each side (`SideInv`). It needs from the other side only what its counter
gave out.
-/

set_option autoImplicit false

namespace ReplicatedFs.Connection

open Protobuf
open Library

/-! ## The two hosts -/

/-- One of the two hosts. -/
inductive Side
  | a
  | b
  deriving DecidableEq, Repr

def Side.other : Side → Side
  | .a => .b
  | .b => .a

/-- The two QUIC connections. -/
def c1 : ConnId := 1

def c2 : ConnId := 2

/-- The QUIC connection that a host dials. -/
def Side.dials : Side → ConnId
  | .a => c1
  | .b => c2

/-- The perspective of a host on a QUIC connection. -/
def Side.role (side : Side) (conn : ConnId) : Perspective :=
  if conn = side.dials then .client else .server

/-- The pools of the two hosts. -/
abbrev Duo := Side → Pool

/-- The call of `Establish` on a QUIC connection. -/
def Side.handler (name : Side → PeerName) (side : Side) (caller : Caller) (conn : ConnId) :
    Handler :=
  ⟨caller, name side.other, side.role conn, conn⟩

/-- The connections are dead and the counters at 0. Each host has a handler for what it dialed and
one for what it accepted. -/
def Duo.init (name : Side → PeerName) : Duo := fun side =>
  { newPool (name side) [name side.other] with
      activeConnectionHandlers := 2
      tasks :=
        [.establish (side.handler name (.dial (name side.other)) side.dials) .check,
          .establish (side.handler name .handler side.other.dials) .check] }

/-- A step of one of the four calls of `Establish`. -/
structure Call where
  side : Side
  ref : Nat
  input : Input
  deriving DecidableEq, Repr

/-- What a host receives on a QUIC connection was sent by the other one. -/
def Duo.carries (d : Duo) (side : Side) (conn : ConnId) : Input → Bool
  | .received (.ok data) =>
    (d side.other).sent.any fun m => m.1 = conn && m.2.encode = data
  | _ => true

/-- One step of `Establish` of one of the hosts. -/
def Duo.step (d : Duo) (e : Call) : Option Duo :=
  match (d e.side).tasks[e.ref]? with
  | some (.establish _ (.returned _)) => none
  | some (.establish h _) =>
    if d.carries e.side h.conn e.input then
      ((d e.side).step (.task e.ref e.input)).map (Function.update d e.side)
    else none
  | _ => none

/-- The hosts do not count the same QUIC connection second. -/
def Duo.crossed (d : Duo) (e : Call) : Bool :=
  match (d e.side).tasks[e.ref]? with
  | some (.establish h .count) =>
    !(((d e.side).pool h.peer).counter = 1 && (d e.side.other).counted.contains (h.conn, 2))
  | _ => true

/-! ## One side -/

section Invariant
variable (name : Side → PeerName) (side : Side)

/-- A host accepts a QUIC connection, for counters that the two hosts gave out. -/
def Agreed (own other : List (ConnId × UInt32)) (conn : ConnId) : Prop :=
  ∃ k l, (conn, k) ∈ own ∧ (conn, l) ∈ other ∧
    verdict (side.role conn) (name side) (name side.other) k
      (Resolvent.encode ⟨side.other.role conn, l⟩) = .ok ()

/-- What a call of `Establish` has done so far. -/
def EstablishPc.Fits (own other : List (ConnId × UInt32)) (conn : ConnId) : EstablishPc → Prop
  | .send ctr => (conn, ctr) ∈ own
  | .receive ctr => (conn, ctr) ∈ own
  | .lock => Agreed name side own other conn
  | _ => True

def Task.Fits (own other : List (ConnId × UInt32)) : Task → Prop
  | .establish h pc =>
    h.peer = name side.other ∧ h.perspective = side.role h.conn ∧
      pc.Fits name side own other h.conn
  | _ => True

/-- The call of `Establish` has not taken a value from the counter. -/
def Task.early : Task → Bool
  | .establish _ .check | .establish _ .count => true
  | _ => false

/-- The state of one host, for what the counter of the other one gave out. -/
structure StateInv (p : Pool) (other : List (ConnId × UInt32)) : Prop where
  host : p.host = name side
  values : ∀ m ∈ p.counted, 1 ≤ m.2.toNat ∧ m.2.toNat ≤ (p.pool (name side.other)).counter.toNat
  distinct : ∀ m ∈ p.counted, ∀ m' ∈ p.counted, m.2 = m'.2 → m = m'
  sent : ∀ m ∈ p.sent, m.2.perspective = side.role m.1 ∧ (m.1, m.2.ctr) ∈ p.counted
  alive : ∀ conn, (p.pool (name side.other)).aliveOn conn → Agreed name side p.counted other conn

/-- The state of one host and its goroutines. There are two calls of `Establish`, so the counter
gives out at most two values. -/
structure SideInv (p : Pool) (other : List (ConnId × UInt32)) : Prop
    extends StateInv name side p other where
  bound : (p.pool (name side.other)).counter.toNat + p.tasks.countP Task.early ≤ 2
  fits : ∀ t ∈ p.tasks, t.Fits name side p.counted other

end Invariant

section Step
variable {name : Side → PeerName} {side : Side} {p : Pool} {other : List (ConnId × UInt32)}

/-- What was agreed on stays so when the counters give out more values. -/
theorem Agreed.mono {own own' other' : List (ConnId × UInt32)} {conn : ConnId}
    (h : Agreed name side own other conn) (hown : own ⊆ own') (hother : other ⊆ other') :
    Agreed name side own' other' conn := by
  obtain ⟨k, l, hk, hl, hv⟩ := h
  exact ⟨k, l, hown hk, hother hl, hv⟩

/-- The same for the point of the code: a value that was given out is never taken back. -/
theorem Task.Fits.mono {t : Task} {own own' other' : List (ConnId × UInt32)}
    (h : t.Fits name side own other) (hown : own ⊆ own') (hother : other ⊆ other') :
    t.Fits name side own' other' := by
  cases t with
  | establish handler pc =>
    obtain ⟨hpeer, hrole, hpc⟩ := h
    refine ⟨hpeer, hrole, ?_⟩
    cases pc with
    | send ctr => exact hown hpc
    | receive ctr => exact hown hpc
    | lock => exact Agreed.mono hpc hown hother
    | _ => trivial
  | _ => trivial

/-- The other host goes on. It may have given out more values by now, and none is taken back. -/
theorem SideInv.mono {other' : List (ConnId × UInt32)} (hi : SideInv name side p other)
    (hother : other ⊆ other') : SideInv name side p other' where
  host := hi.host
  values := hi.values
  distinct := hi.distinct
  sent := hi.sent
  alive conn ha := (hi.alive conn ha).mono (List.Subset.refl _) hother
  bound := hi.bound
  fits t ht := (hi.fits t ht).mono (List.Subset.refl _) hother

variable {ref : Nat} {t : Task} {input : Input} {o : Outcome}

/-- What a step of `Establish` has to show. The new state is given by its pool, by the goroutine
that moved, and by the watcher that it may have started. -/
theorem SideInv.apply (hi : SideInv name side p other) (ht : p.tasks[ref]? = some t)
    (hstate : StateInv name side o.pool other) (hcounted : p.counted ⊆ o.pool.counted)
    (hspawned : ∀ t', o.spawned = some t' → ∃ peer conn, t' = .watch peer conn)
    (hbound : (o.pool.pool (name side.other)).counter.toNat + o.task.early.toNat ≤
      (p.pool (name side.other)).counter.toNat + t.early.toNat)
    (hfits : o.task.Fits name side o.pool.counted other) :
    SideInv name side (p.apply ref o) other := by
  refine ⟨⟨hstate.host, hstate.values, hstate.distinct, hstate.sent, hstate.alive⟩, ?_, ?_⟩
  · -- A watcher does not count.
    have hcount := countP_apply (o := o) ht Task.early
    have hnone : o.spawned.any Task.early = false := by
      cases hs : o.spawned with
      | none => rfl
      | some t' =>
        obtain ⟨peer, conn, rfl⟩ := hspawned t' hs
        rfl
    have hbefore := hi.bound
    show (o.pool.pool (name side.other)).counter.toNat + _ ≤ 2
    simp only [hnone, Bool.toNat_false] at hcount
    omega
  · intro t' ht'
    rcases mem_apply ht' with (rfl | hs) | hold
    · exact hfits
    · obtain ⟨peer, conn, rfl⟩ := hspawned t' hs
      trivial
    · exact (hi.fits t' hold).mono hcounted (List.Subset.refl _)

/-- A step that changes nothing that the goroutines share, such as a receive. Only the point of the
code moves. -/
theorem SideInv.stay (hi : SideInv name side p other) {h : Handler} {pc pc' : EstablishPc}
    (ht : p.tasks[ref]? = some (.establish h pc))
    (hbound : (Task.establish h pc').early = true → (Task.establish h pc).early = true)
    (hfits : pc'.Fits name side p.counted other h.conn) :
    SideInv name side (p.apply ref ⟨p, .establish h pc', none⟩) other := by
  obtain ⟨hpeer, hrole, -⟩ := hi.fits _ (List.mem_of_getElem? ht)
  refine hi.apply ht hi.toStateInv (List.Subset.refl _) (by simp) ?_ ⟨hpeer, hrole, hfits⟩
  exact Nat.add_le_add_left (Bool.toNat_le_toNat hbound) _

/-- A host takes a value from its counter. It is greater than all it took before. A host has two
calls of `Establish` here, and each of them counts once, so the values are 1 and 2. The bound on the
counter in the invariant is what says this. -/
theorem SideInv.count (hi : SideInv name side p other) {h : Handler}
    (ht : p.tasks[ref]? = some (.establish h .count)) :
    SideInv name side (p.apply ref
      ⟨{ p.update h.peer { p.pool h.peer with counter := (p.pool h.peer).counter + 1 } with
          counted := (h.conn, (p.pool h.peer).counter + 1) :: p.counted },
        .establish h (.send ((p.pool h.peer).counter + 1)), none⟩) other := by
  obtain ⟨hpeer, hrole, -⟩ := hi.fits _ (List.mem_of_getElem? ht)
  -- This call has not counted, so at most one value was given out.
  have hearly : 0 < p.tasks.countP Task.early :=
    List.countP_pos_iff.mpr ⟨_, List.mem_of_getElem? ht, rfl⟩
  have hbound := hi.bound
  rw [← hpeer] at hbound
  have hnext : ((p.pool h.peer).counter + 1).toNat = (p.pool h.peer).counter.toNat + 1 := by
    rw [UInt32.toNat_add]
    exact Nat.mod_eq_of_lt (by show _ + 1 < _; omega)
  have hgrows : p.counted ⊆ (h.conn, (p.pool h.peer).counter + 1) :: p.counted :=
    List.subset_cons_self _ _
  have hvalues := hi.values
  rw [← hpeer] at hvalues
  have hnew : ∀ m ∈ p.counted, m.2 ≠ (p.pool h.peer).counter + 1 := by
    intro m hm heq
    have hle := (hvalues m hm).2
    rw [heq, hnext] at hle
    omega
  have hself : (Function.update p.pool h.peer
      { p.pool h.peer with counter := (p.pool h.peer).counter + 1 } (name side.other)) =
      { p.pool h.peer with counter := (p.pool h.peer).counter + 1 } := by
    rw [← hpeer, Function.update_self]
  refine hi.apply ht ⟨hi.host, ?_, ?_, ?_, ?_⟩ hgrows (by simp) ?_ ⟨hpeer, hrole, ?_⟩
  · intro m hm
    show 1 ≤ m.2.toNat ∧ m.2.toNat ≤ (Function.update p.pool _ _ (name side.other)).counter.toNat
    rw [hself, hnext]
    rcases List.mem_cons.mp hm with rfl | hold
    · exact ⟨by rw [hnext]; omega, by rw [hnext]⟩
    · have hm' := hvalues m hold
      omega
  · intro m hm m' hm' heq
    rcases List.mem_cons.mp hm with rfl | hold <;> rcases List.mem_cons.mp hm' with rfl | hold'
    · rfl
    · exact absurd heq.symm (hnew m' hold')
    · exact absurd heq (hnew m hold)
    · exact hi.distinct m hold m' hold' heq
  · intro m hm
    exact ⟨(hi.sent m hm).1, hgrows (hi.sent m hm).2⟩
  · intro conn ha
    have ha' : (Function.update p.pool _ _ (name side.other)).aliveOn conn := ha
    rw [hself] at ha'
    exact (hi.alive conn (hpeer ▸ ha')).mono hgrows (List.Subset.refl _)
  · show (Function.update p.pool _ _ (name side.other)).counter.toNat + 0 ≤ _ + 1
    rw [hself, hnext, hpeer]
  · exact List.mem_cons_self

/-- A host sends its resolvent. The other one can have received it from now on. -/
theorem SideInv.send (hi : SideInv name side p other) {h : Handler} {ctr : UInt32}
    (ht : p.tasks[ref]? = some (.establish h (.send ctr))) :
    SideInv name side (p.apply ref ⟨{ p with sent := (h.conn, ⟨h.perspective, ctr⟩) :: p.sent },
      .establish h (.receive ctr), none⟩) other := by
  obtain ⟨hpeer, hrole, hctr⟩ := hi.fits _ (List.mem_of_getElem? ht)
  refine hi.apply ht ⟨hi.host, hi.values, hi.distinct, ?_, hi.alive⟩ (List.Subset.refl _) (by simp)
    (Nat.le_refl _) ⟨hpeer, hrole, hctr⟩
  intro m hm
  rcases List.mem_cons.mp hm with rfl | hold
  · exact ⟨hrole, hctr⟩
  · exact hi.sent m hold

/-- A host assigns a QUIC connection that it has accepted. The verdict was made from both values,
its own and the one that it received. What the invariant keeps of it is the pair of values, as they
decide which connection the other host can accept. -/
theorem SideInv.assign (hi : SideInv name side p other) {h : Handler}
    (ht : p.tasks[ref]? = some (.establish h .lock)) :
    SideInv name side (p.apply ref
      ⟨{ p.update h.peer ((p.pool h.peer).assign h.perspective h.conn) with
          activeConnections := p.activeConnections + 1 },
        .establish h (.returned none), some (.watch h.peer h.conn)⟩) other := by
  obtain ⟨hpeer, hrole, hagreed⟩ := hi.fits _ (List.mem_of_getElem? ht)
  have hself : Function.update p.pool h.peer ((p.pool h.peer).assign h.perspective h.conn)
      (name side.other) = (p.pool h.peer).assign h.perspective h.conn := by
    rw [← hpeer, Function.update_self]
  have hcounter : (Function.update p.pool h.peer ((p.pool h.peer).assign h.perspective h.conn)
      (name side.other)).counter = (p.pool (name side.other)).counter := by
    rw [hself, hpeer]
    rfl
  refine hi.apply ht ⟨hi.host, ?_, hi.distinct, hi.sent, ?_⟩ (List.Subset.refl _) ?_ ?_
    ⟨hpeer, hrole, trivial⟩
  · intro m hm
    show 1 ≤ m.2.toNat ∧ m.2.toNat ≤ (Function.update p.pool _ _ (name side.other)).counter.toNat
    rw [hcounter]
    exact hi.values m hm
  · intro conn ha
    have ha' : (Function.update p.pool _ _ (name side.other)).aliveOn conn := ha
    rw [hself] at ha'
    -- What was agreed on when the call resolved is what the assignment needs.
    obtain rfl : h.conn = conn := Option.some.inj ha'.2
    exact hagreed
  · intro t' ht'
    exact ⟨h.peer, h.conn, (Option.some.inj ht').symm⟩
  · show (Function.update p.pool _ _ (name side.other)).counter.toNat + 0 ≤ _
    rw [hcounter]
    exact Nat.le_refl _

/-- A step of `Establish`, on data that the other host sent. This is where the two hosts come
together: `hdata` says that what is received is a value that the other host has given out for the
same QUIC connection. -/
theorem SideInv.task (hi : SideInv name side p other) {h : Handler} {pc : EstablishPc}
    (ht : p.tasks[ref]? = some (.establish h pc)) (hm : TaskMove p (.establish h pc) input o)
    (hpc : ∀ err, pc ≠ .returned err)
    (hdata : ∀ data, input = .received (.ok data) →
      ∃ l, (h.conn, l) ∈ other ∧ data = Resolvent.encode ⟨side.other.role h.conn, l⟩) :
    SideInv name side (p.apply ref o) other := by
  obtain ⟨hpeer, hrole, hfits⟩ := hi.fits _ (List.mem_of_getElem? ht)
  cases hm with
  | fastPath h he => exact hi.stay ht (by simp [Task.early]) trivial
  | proceed h he => exact hi.stay ht (by simp [Task.early]) trivial
  | count h => exact hi.count ht
  | send h ctr => exact hi.send ht
  | unresolved h pc input err hpc' => exact hi.stay ht (by simp [Task.early]) trivial
  -- The verdict is on a value that the other host took for the same QUIC connection.
  | resolved h ctr data hv =>
    obtain ⟨l, hl, rfl⟩ := hdata data rfl
    rw [hrole, hpeer, hi.host] at hv
    exact hi.stay ht (by simp [Task.early]) ⟨ctr, l, hfits, hl, hv⟩
  | late h hl hs => exact hi.stay ht (by simp [Task.early]) trivial
  | assign h hl hs => exact hi.assign ht
  | settled h => exact absurd rfl (hpc none)
  | discarded h err input conns => exact absurd rfl (hpc (some err))

/-- The values of the counter are remembered, and one is added by a count. -/
theorem TaskMove.counted (h : TaskMove p t input o) :
    p.counted ⊆ o.pool.counted ∧ ∀ m ∈ o.pool.counted, m ∈ p.counted ∨
      ∃ handler, t = .establish handler .count ∧
        m = (handler.conn, (p.pool handler.peer).counter + 1) := by
  cases h with
  | count handler =>
    refine ⟨List.subset_cons_self _ _, ?_⟩
    intro m hm
    rcases List.mem_cons.mp hm with rfl | hold
    · exact .inr ⟨handler, rfl, rfl⟩
    · exact .inl hold
  | _ => exact ⟨List.Subset.refl _, fun m hm => .inl hm⟩

end Step

/-! ## Both sides -/

/-- What holds of the two hosts. -/
structure DuoInv (name : Side → PeerName) (d : Duo) : Prop where
  sides : ∀ side, SideInv name side (d side) (d side.other).counted
  crossed : ∀ side conn, (conn, 2) ∈ (d side).counted → (conn, 2) ∉ (d side.other).counted

section Both
variable {name : Side → PeerName} {d d' : Duo} {e : Call}

/-- There are two sides, and each is the other one of the other. -/
@[simp] theorem Side.other_other (side : Side) : side.other.other = side := by
  cases side <;> rfl

/-- A side is not the other one. The two hosts are different processes. -/
theorem Side.other_ne (side : Side) : side.other ≠ side := by
  cases side <;> decide

/-- Whoever is not this side is the other one. Used to split on which host has moved. -/
theorem Side.other_eq_of_ne {side side' : Side} (h : side ≠ side') : side.other = side' := by
  cases side <;> cases side' <;> first | rfl | exact absurd rfl h

/-- A step of the two hosts is a step of `Establish` of one of them. What it receives was sent by
the other one, on the same QUIC connection. A call that has returned takes no further step here, so
the connections are not closed. -/
theorem Duo.step_move (h : d.step e = some d') :
    ∃ handler pc o, (d e.side).tasks[e.ref]? = some (.establish handler pc) ∧
      (∀ err, pc ≠ .returned err) ∧ d.carries e.side handler.conn e.input = true ∧
      TaskMove (d e.side) (.establish handler pc) e.input o ∧
      d' = Function.update d e.side ((d e.side).apply e.ref o) := by
  unfold Duo.step at h
  split at h
  · cases h
  · rename_i handler pc hne ht
    split at h
    · rename_i hcarries
      obtain ⟨p', hp', rfl⟩ := Option.map_eq_some_iff.mp h
      -- The event is one of a goroutine, so no other kind of step is left.
      cases Connection.step_move hp' with
      | task ref input t o ht' hm =>
        obtain rfl := Option.some.inj (ht.symm.trans ht')
        refine ⟨handler, pc, o, ht, ?_, hcarries, hm, rfl⟩
        rintro err rfl
        exact hne err rfl
    · cases h
  · cases h

/-- What a host receives is a resolvent of the other one, with a value of its counter. -/
theorem DuoInv.carries (hi : DuoInv name d) {side : Side} {conn : ConnId} {data : List UInt8}
    (h : d.carries side conn (.received (.ok data)) = true) :
    ∃ l, (conn, l) ∈ (d side.other).counted ∧
      data = Resolvent.encode ⟨side.other.role conn, l⟩ := by
  obtain ⟨m, hm, hmatch⟩ := List.any_eq_true.mp h
  obtain ⟨rfl, rfl⟩ : m.1 = conn ∧ m.2.encode = data := by simpa using hmatch
  obtain ⟨hrole, hcounted⟩ := (hi.sides side.other).sent m hm
  exact ⟨m.2.ctr, hcounted, by rw [← hrole]⟩

/-- Every step of the two hosts keeps the invariant of each side, as long as they do not count the
same connection second. That guard is what makes the counters of the two connections differ. -/
theorem DuoInv.step (h : restrict Duo.step Duo.crossed d e = some d') (hi : DuoInv name d) :
    DuoInv name d' := by
  obtain ⟨hg, hstep⟩ := restrict_eq_some.mp h
  obtain ⟨handler, pc, o, ht, hpc, hcarries, hm, rfl⟩ := Duo.step_move hstep
  obtain ⟨hgrows, hnew⟩ := hm.counted
  have hother : e.side.other ≠ e.side := e.side.other_ne
  -- No value 2 is taken for a QUIC connection that the other host has counted second.
  have hcrossed : ∀ conn, (conn, 2) ∈ o.pool.counted → (conn, 2) ∉ (d e.side.other).counted := by
    intro conn hmem
    rcases hnew _ hmem with hold | ⟨h, heq, hvalue⟩
    · exact hi.crossed e.side conn hold
    · obtain ⟨rfl, hctr⟩ := Prod.mk.inj hvalue
      have hone : ((d e.side).pool h.peer).counter = 1 :=
        (UInt32.add_left_inj 1).mp (hctr.symm.trans rfl)
      rw [heq] at ht
      simpa [Duo.crossed, ht, hone] using hg
  have hself : SideInv name e.side ((d e.side).apply e.ref o) (d e.side.other).counted :=
    (hi.sides e.side).task ht hm hpc fun data hinput => hi.carries (hinput ▸ hcarries)
  refine ⟨?_, ?_⟩
  · intro side
    by_cases hs : side = e.side
    · subst hs
      rw [Function.update_self, Function.update_of_ne hother]
      exact hself
    · have hs' := Side.other_eq_of_ne hs
      rw [Function.update_of_ne hs, hs', Function.update_self]
      have hbefore := hi.sides side
      rw [hs'] at hbefore
      exact hbefore.mono hgrows
  · intro side conn hmem
    by_cases hs : side = e.side
    · subst hs
      rw [Function.update_self] at hmem
      rw [Function.update_of_ne hother]
      exact hcrossed conn hmem
    · have hs' := Side.other_eq_of_ne hs
      rw [Function.update_of_ne hs] at hmem
      rw [hs', Function.update_self]
      intro hmem'
      refine hcrossed conn hmem' ?_
      rw [← hs', Side.other_other]
      exact hmem

/-- Nothing was sent yet, no value was counted, and both hosts are about to call `Establish`. -/
theorem DuoInv.init (name : Side → PeerName) : DuoInv name (Duo.init name) := by
  have hnil : ∀ side, (Duo.init name side).counted = [] ∧ (Duo.init name side).sent = [] :=
    fun _ => ⟨rfl, rfl⟩
  refine ⟨?_, by simp [hnil]⟩
  intro side
  refine ⟨⟨rfl, by simp [hnil], by simp [hnil], by simp [hnil], ?_⟩, Nat.le_refl 2, ?_⟩
  · intro conn ha
    cases ha.1
  · intro t ht
    rcases List.mem_pair.mp ht with rfl | rfl <;> exact ⟨rfl, rfl, trivial⟩

/-- When both hosts have counted both QUIC connections, their counters differ on each. Each host has
given out 1 and 2, and the guard excludes that both gave 2 to the same one. So they gave the values
in opposite orders, and the fallback of `Establish` compares the names. -/
theorem DuoInv.differ (hi : DuoInv name d) {side : Side} {q q' : ConnId} (hq : q ≠ q')
    {k k' l l' : UInt32} (hk : (q, k) ∈ (d side).counted) (hk' : (q', k') ∈ (d side).counted)
    (hl : (q, l) ∈ (d side.other).counted) (hl' : (q', l') ∈ (d side.other).counted) :
    k.toNat ≠ l.toNat % 64 ∧ l'.toNat ≠ k'.toNat % 64 := by
  -- Each host has given out 1 and 2, one for each of the two.
  have hvalue : ∀ s, ∀ m ∈ (d s).counted, 1 ≤ m.2.toNat ∧ m.2.toNat ≤ 2 := by
    intro s m hm
    have hm' := (hi.sides s).values m hm
    have hbound := (hi.sides s).bound
    omega
  have hne : ∀ s x x', (q, x) ∈ (d s).counted → (q', x') ∈ (d s).counted → x.toNat ≠ x'.toNat := by
    intro s x x' hx hx' heq
    have hsame := (hi.sides s).distinct _ hx _ hx' (UInt32.toNat_inj.mp heq)
    exact hq (Prod.mk.inj hsame).1
  have htwo : ∀ r x y, (r, x) ∈ (d side).counted → (r, y) ∈ (d side.other).counted →
      ¬ (x.toNat = 2 ∧ y.toNat = 2) := by
    rintro r x y hx hy ⟨hx2, hy2⟩
    obtain rfl : x = 2 := UInt32.toNat_inj.mp hx2
    obtain rfl : y = 2 := UInt32.toNat_inj.mp hy2
    exact hi.crossed side r hx hy
  have h1 := hvalue side _ hk
  have h2 := hvalue side _ hk'
  have h3 := hvalue side.other _ hl
  have h4 := hvalue side.other _ hl'
  have h5 := hne side k k' hk hk'
  have h6 := hne side.other l l' hl hl'
  have h7 := htwo q k l hk hl
  have h8 := htwo q' k' l' hk' hl'
  simp only at h1 h2 h3 h4
  omega

/-- The side that dials a connection is its client, as in QUIC. -/
theorem Side.role_dials (side : Side) : side.role side.dials = .client := by
  cases side <;> rfl

/-- And it is the server of the one that the other side dials. So the two ends of a connection have
different roles. -/
theorem Side.role_other_dials (side : Side) : side.role side.other.dials = .server := by
  cases side <;> rfl

/-- The two connections are different: each side dials one of them. -/
theorem Side.dials_ne (side : Side) : side.dials ≠ side.other.dials := by
  cases side <;> decide

/-- The hosts are not alive on the connections that each of them dialed. -/
theorem DuoInv.not_both_dialed (hi : DuoInv name d) (side : Side)
    (h : ((d side).pool (name side.other)).aliveOn side.dials)
    (h' : ((d side.other).pool (name side)).aliveOn side.other.dials) : False := by
  obtain ⟨k, l, hk, hl, hv⟩ := (hi.sides side).alive _ h
  obtain ⟨l', k', hl', hk', hv'⟩ := (hi.sides side.other).alive side.other.dials (by simpa using h')
  rw [Side.other_other] at hk' hv'
  obtain ⟨hne, hne'⟩ := hi.differ side.dials_ne hk hk' hl hl'
  have hrole := side.other.role_other_dials
  rw [Side.other_other] at hrole
  rw [side.role_dials, hrole, verdict_client] at hv
  rw [side.other.role_dials, side.role_other_dials, verdict_client] at hv'
  exact lt_asymm (hv.resolve_left hne) (hv'.resolve_left hne')

/-- The hosts are not alive on the connections that each of them accepted. -/
theorem DuoInv.not_both_accepted (hi : DuoInv name d) (side : Side)
    (h : ((d side).pool (name side.other)).aliveOn side.other.dials)
    (h' : ((d side.other).pool (name side)).aliveOn side.dials) : False := by
  obtain ⟨k, l, hk, hl, hv⟩ := (hi.sides side).alive _ h
  obtain ⟨l', k', hl', hk', hv'⟩ := (hi.sides side.other).alive side.dials (by simpa using h')
  rw [Side.other_other] at hk' hv'
  obtain ⟨hne, hne'⟩ := hi.differ side.dials_ne.symm hk hk' hl hl'
  have hrole := side.other.role_other_dials
  rw [Side.other_other] at hrole
  rw [side.role_other_dials, side.other.role_dials, verdict_server] at hv
  rw [hrole, side.role_dials, verdict_server] at hv'
  exact lt_asymm (hv.resolve_left hne) (hv'.resolve_left hne')

end Both

/-- In every run in which the hosts do not count the same QUIC connection second, they are not alive
on different ones. The guard is about the order in which the two handlers of a host get to the
counter, and nothing in the code enforces it. -/
theorem one_connection (name : Side → PeerName) {d : Duo}
    (hd : Reaches (restrict Duo.step Duo.crossed) (Duo.init name) d) :
    ¬ (((d .a).pool (name .b)).aliveOn c1 ∧ ((d .b).pool (name .a)).aliveOn c2) ∧
      ¬ (((d .a).pool (name .b)).aliveOn c2 ∧ ((d .b).pool (name .a)).aliveOn c1) := by
  have hi : DuoInv name d := hd.invariant (fun _ _ _ => DuoInv.step) (DuoInv.init name)
  exact ⟨fun h => hi.not_both_dialed .a h.1 h.2, fun h => hi.not_both_accepted .a h.1 h.2⟩

/-- `a` and `b`. -/
def names : Side → PeerName
  | .a => "a"
  | .b => "b"

/-- A call of `Establish` up to the send of its resolvent. -/
def sendRun (side : Side) (ref : Nat) : List Call :=
  [⟨side, ref, .run⟩, ⟨side, ref, .run⟩, ⟨side, ref, .sent none⟩]

/-- The rest of the call, when the other host has sent the resolvent. -/
def receiveRun (side : Side) (ref : Nat) (resolvent : Resolvent) : List Call :=
  [⟨side, ref, .received (.ok resolvent.encode)⟩, ⟨side, ref, .run⟩]

/-- Both hosts count `c1` first and `c2` second. The counters are equal on both then, so both are
accepted. The one host takes the mutex for `c1`, the other for `c2`. -/
theorem hosts_apart : ∃ d, Reaches Duo.step (Duo.init names) d ∧
    ((d .a).pool "b").aliveOn c1 ∧ ((d .b).pool "a").aliveOn c2 := by
  have hrun : ∃ d, Reaches Duo.step (Duo.init names) d ∧
      decide (((d .a).pool "b").aliveOn c1 ∧ ((d .b).pool "a").aliveOn c2) = true :=
    Reaches.of_any _ (sendRun .a 0 ++ sendRun .a 1 ++ sendRun .b 1 ++ sendRun .b 0 ++
      receiveRun .a 0 ⟨.server, 1⟩ ++ receiveRun .b 0 ⟨.server, 2⟩) _ (by decide)
  obtain ⟨d, hd, hp⟩ := hrun
  exact ⟨d, hd, of_decide_eq_true hp⟩

/-- Each host counts the QUIC connection first that it dialed, so the counters differ and the names
decide. Both keep `c1`. -/
theorem hosts_agree : ∃ d, Reaches (restrict Duo.step Duo.crossed) (Duo.init names) d ∧
    ((d .a).pool "b").aliveOn c1 ∧ ((d .b).pool "a").aliveOn c1 ∧
    ¬ ((d .b).pool "a").aliveOn c2 := by
  have hrun : ∃ d, Reaches (restrict Duo.step Duo.crossed) (Duo.init names) d ∧
      decide (((d .a).pool "b").aliveOn c1 ∧ ((d .b).pool "a").aliveOn c1) = true :=
    Reaches.of_any _ (sendRun .a 0 ++ sendRun .a 1 ++ sendRun .b 0 ++ sendRun .b 1 ++
      receiveRun .a 0 ⟨.server, 2⟩ ++ receiveRun .b 1 ⟨.client, 1⟩) _ (by decide)
  obtain ⟨d, hd, hp⟩ := hrun
  obtain ⟨ha, hb⟩ := of_decide_eq_true hp
  exact ⟨d, hd, ha, hb, fun hb' => (one_connection names hd).1 ⟨ha, hb'⟩⟩

end ReplicatedFs.Connection
