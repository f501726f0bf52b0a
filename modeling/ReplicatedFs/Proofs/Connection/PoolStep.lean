import ReplicatedFs.Library.Indexed
import ReplicatedFs.Connection.Pool

/-!
# `ReplicatedFs.Proofs.Connection.PoolStep`: what one step of a pool can do

The inversion lemmas of the step functions, as `HostStep` has them for a host. No later proof
unfolds a step.

* `TaskMove`: the moves of a goroutine, one constructor for each branch. `taskStep_move` says that
  there are no others.
* `PoolMove`: the steps of a pool, with `step_move`.
* `mem_apply`, `countP_apply`: the goroutines after a step.
* `LinkChange`: what a step does to the connections, with `TaskMove.link`. `ConnMove` is the part
  of it for one connection.
-/

set_option autoImplicit false

namespace ReplicatedFs.Connection

open Protobuf
open Library

/-- The moves of a goroutine. Where a QUIC connection may be closed, `conns` are the ones whose
context is done after that. -/
inductive TaskMove (p : Pool) : Task → Input → Outcome → Prop
  | dialAlive (peer : PeerName) (hs : (p.pool peer).status = .alive) :
      TaskMove p (.dial peer .head) .run ⟨p, .dial peer .wait, none⟩
  | dialDead (peer : PeerName) (pc : DialPc) (hpc : pc = .head ∨ pc = .wait)
      (hs : (p.pool peer).status ≠ .alive) :
      TaskMove p (.dial peer pc) .run ⟨p, .dial peer .add, none⟩
  | dialAdd (peer : PeerName) :
      TaskMove p (.dial peer .add) .run ⟨p.addHandler, .dial peer .check, none⟩
  | dialOpen (peer : PeerName) (hc : p.closed = false) :
      TaskMove p (.dial peer .check) .run ⟨p, .dial peer .dial, none⟩
  | dialClosed (peer : PeerName) (hc : p.closed = true) :
      TaskMove p (.dial peer .check) .run ⟨p, .leave (.dial peer) (some .poolClosed), none⟩
  | dialFailed (peer : PeerName) (input : Input) (text : String) :
      TaskMove p (.dial peer .dial) input ⟨p, .leave (.dial peer) (some (.net text)), none⟩
  | dialed (peer name : PeerName) (conn : ConnId) (input : Input) (hn : name ∈ p.peers) :
      TaskMove p (.dial peer .dial) input
        ⟨p, .establish ⟨.dial peer, name, .client, conn⟩ .check, none⟩
  | accepted (result : Accepted) (input : Input)
      (hn : ∀ conn name, result = .ok (conn, name) → name ∈ p.peers) :
      TaskMove p (.accept .accept) input ⟨p, .accept (.add result), none⟩
  | acceptAdd (result : Accepted) :
      TaskMove p (.accept (.add result)) .run ⟨p.addHandler, .accept (.check result), none⟩
  | acceptClosed (result : Accepted) (hc : p.closed = true) :
      TaskMove p (.accept (.check result)) .run ⟨p, .accept (.refuse result), none⟩
  | acceptFailed (text : String) (hc : p.closed = false) :
      TaskMove p (.accept (.check (.error text))) .run
        ⟨p, .leave .accept (some (.net text)), none⟩
  | acceptSpawn (conn : ConnId) (name : PeerName) (hc : p.closed = false) :
      TaskMove p (.accept (.check (.ok (conn, name)))) .run
        ⟨p, .accept .accept, some (.establish ⟨.handler, name, .server, conn⟩ .check)⟩
  | refused (result : Accepted) (input : Input) (conns : List ConnId) :
      TaskMove p (.accept (.refuse result)) input
        ⟨{ p with done := conns ++ p.done }, .leave .accept (some .poolClosed), none⟩
  | fastPath (h : Handler) (he : (p.pool h.peer).established = true) :
      TaskMove p (.establish h .check) .run
        ⟨p, .establish h (.returned (some .alreadyEstablished)), none⟩
  | proceed (h : Handler) (he : (p.pool h.peer).established = false) :
      TaskMove p (.establish h .check) .run ⟨p, .establish h .count, none⟩
  | count (h : Handler) :
      TaskMove p (.establish h .count) .run
        ⟨{ p.update h.peer { p.pool h.peer with counter := (p.pool h.peer).counter + 1 } with
            counted := (h.conn, (p.pool h.peer).counter + 1) :: p.counted },
          .establish h (.send ((p.pool h.peer).counter + 1)), none⟩
  | send (h : Handler) (ctr : UInt32) :
      TaskMove p (.establish h (.send ctr)) (.sent none)
        ⟨{ p with sent := (h.conn, ⟨h.perspective, ctr⟩) :: p.sent },
          .establish h (.receive ctr), none⟩
  | unresolved (h : Handler) (pc : EstablishPc) (input : Input) (err : ResolveError)
      (hpc : ∃ ctr, pc = .send ctr ∨ pc = .receive ctr) :
      TaskMove p (.establish h pc) input
        ⟨p, .establish h (.returned (some (.resolve err))), none⟩
  | resolved (h : Handler) (ctr : UInt32) (data : List UInt8)
      (hv : verdict h.perspective p.host h.peer ctr data = .ok ()) :
      TaskMove p (.establish h (.receive ctr)) (.received (.ok data)) ⟨p, .establish h .lock, none⟩
  | late (h : Handler) (hl : (p.pool h.peer).locked = false)
      (hs : (p.pool h.peer).status = .alive) :
      TaskMove p (.establish h .lock) .run
        ⟨p, .establish h (.returned (some .alreadyEstablished)), none⟩
  | assign (h : Handler) (hl : (p.pool h.peer).locked = false)
      (hs : (p.pool h.peer).status ≠ .alive) :
      TaskMove p (.establish h .lock) .run
        ⟨{ p.update h.peer ((p.pool h.peer).assign h.perspective h.conn) with
            activeConnections := p.activeConnections + 1 },
          .establish h (.returned none), some (.watch h.peer h.conn)⟩
  | settled (h : Handler) :
      TaskMove p (.establish h (.returned none)) .run ⟨p, .leave h.caller none, none⟩
  | discarded (h : Handler) (err : EstablishError) (input : Input) (conns : List ConnId) :
      TaskMove p (.establish h (.returned (some err))) input
        ⟨{ p with done := conns ++ p.done }, .leave h.caller (some (.establish err)), none⟩
  | leave (caller : Caller) (result : Option AddError) :
      TaskMove p (.leave caller result) .run ⟨p.removeHandler, .ended, none⟩
  | leaveDial (peer : PeerName) (result : Option AddError) :
      TaskMove p (.leave (.dial peer) result) .run ⟨p.removeHandler, .dial peer .head, none⟩
  | leaveAccept (result : Option AddError) :
      TaskMove p (.leave .accept result) .run ⟨p.removeHandler, .accept .accept, none⟩
  | woken (peer : PeerName) (conn : ConnId) (hd : conn ∈ p.done) :
      TaskMove p (.watch peer conn) .run ⟨p, .close (.watch conn) peer .lock, none⟩
  | operateDead (peer : PeerName) (hs : (p.pool peer).status = .dead) :
      TaskMove p (.operate peer .check) .run ⟨p, .ended, none⟩
  | operateAlive (peer : PeerName) (hs : (p.pool peer).status ≠ .dead) :
      TaskMove p (.operate peer .check) .run ⟨p, .operate peer .load, none⟩
  | load (peer : PeerName) (conn : ConnId) (hc : (p.pool peer).conn = some conn) :
      TaskMove p (.operate peer .load) .run ⟨p, .operate peer (.running conn), none⟩
  | loadNil (peer : PeerName) (hc : (p.pool peer).conn = none) :
      TaskMove p (.operate peer .load) .run ⟨p, .panicked, none⟩
  | operated (peer : PeerName) (conn : ConnId) (input : Input) :
      TaskMove p (.operate peer (.running conn)) input ⟨p, .ended, none⟩
  | operateBroken (peer : PeerName) (conn : ConnId) (input : Input) :
      TaskMove p (.operate peer (.running conn)) input
        ⟨{ p with broken := conn :: p.broken }, .close (.operate conn) peer .lock, none⟩
  | closeDead (closer : Closer) (peer : PeerName) (hl : (p.pool peer).locked = false)
      (hs : (p.pool peer).status = .dead) :
      TaskMove p (.close closer peer .lock) .run ⟨p, .ended, none⟩
  | shutDead (closed : List PeerName) (errs : MultiErr) (peer : PeerName)
      (hl : (p.pool peer).locked = false) (hs : (p.pool peer).status = .dead) :
      TaskMove p (.close (.shut closed errs) peer .lock) .run
        ⟨p, .shut (.closing (peer :: closed) errs), none⟩
  | closeMark (closer : Closer) (peer : PeerName) (hl : (p.pool peer).locked = false)
      (hs : (p.pool peer).status ≠ .dead) :
      TaskMove p (.close closer peer .lock) .run
        ⟨p.update peer (p.pool peer).markDead, .close closer peer .finish, none⟩
  | closeFinish (closer : Closer) (peer : PeerName) (input : Input) (conns : List ConnId) :
      TaskMove p (.close closer peer .finish) input
        ⟨{ p.update peer (p.pool peer).reset with
            activeConnections := p.activeConnections - 1, done := conns ++ p.done },
          .ended, none⟩
  | shutFinish (closed : List PeerName) (errs errs' : MultiErr) (peer : PeerName) (input : Input)
      (conns : List ConnId) :
      TaskMove p (.close (.shut closed errs) peer .finish) input
        ⟨{ p.update peer (p.pool peer).reset with
            activeConnections := p.activeConnections - 1, done := conns ++ p.done },
          .shut (.closing (peer :: closed) errs'), none⟩
  | closeNil (closer : Closer) (peer : PeerName) (input : Input)
      (hc : (p.pool peer).conn = none) :
      TaskMove p (.close closer peer .finish) input ⟨p, .panicked, none⟩
  | shutStore :
      TaskMove p (.shut .store) .run ⟨{ p with closed := true }, .shut .wait, none⟩
  | shutWaited (hz : p.activeConnectionHandlers = 0) :
      TaskMove p (.shut .wait) .run ⟨p, .shut .listener, none⟩
  | shutListener (input : Input) (errs : MultiErr) :
      TaskMove p (.shut .listener) input ⟨p, .shut (.closing [] errs), none⟩
  | shutVisit (closed : List PeerName) (errs : MultiErr) (peer : PeerName) (hp : peer ∈ p.peers) :
      TaskMove p (.shut (.closing closed errs)) (.visit peer)
        ⟨p, .close (.shut closed errs) peer .lock, none⟩
  | shutReturned (closed : List PeerName) (errs : MultiErr)
      (hall : ∀ peer ∈ p.peers, peer ∈ closed) :
      TaskMove p (.shut (.closing closed errs)) .run ⟨p, .shut (.returned errs), none⟩

section Steps
variable {p : Pool}

/-- Closing a QUIC connection only adds it to the ones that are done. What watches it finds out in a
step of its own. -/
theorem closeConn_eq (p : Pool) (conn : ConnId) (err : Option String) :
    ∃ conns, p.closeConn conn err = { p with done := conns ++ p.done } := by
  unfold Pool.closeConn
  split
  · exact ⟨[conn], rfl⟩
  · exact ⟨[], rfl⟩

/-- `VerifyConnection` lets nobody through but a configured peer. -/
theorem verifyConnection_ok {certificates : List PeerName} {name : PeerName}
    (h : p.verifyConnection certificates = .ok name) : name ∈ p.peers := by
  unfold Pool.verifyConnection at h
  split at h
  · split at h <;> simp_all
  · cases h

/-- The steps of `dial` and `dialOnce`, up to the call of `Establish`. The goroutine is at one of
the points of `DialPc`, and the input says how the network has answered. From here on the moves are
used, and the code of `dialStep` is not looked at again. -/
theorem dialStep_move {peer : PeerName} {pc : DialPc} {input : Input} {o : Outcome}
    (h : p.dialStep peer pc input = some o) : TaskMove p (.dial peer pc) input o := by
  unfold Pool.dialStep at h
  split at h
  · obtain rfl := Option.some.inj h
    by_cases hs : (p.pool peer).status = .alive
    · simpa [hs] using TaskMove.dialAlive peer hs
    · -- The dial goes on at the head of its loop and after its wait in the same way.
      simpa [hs] using TaskMove.dialDead peer .head (.inl rfl) hs
  · split at h
    · rename_i hs
      obtain rfl := Option.some.inj h
      exact .dialDead peer .wait (.inr rfl) (by simp [hs])
    · cases h
  · obtain rfl := Option.some.inj h
    exact .dialAdd peer
  · obtain rfl := Option.some.inj h
    cases hc : p.closed with
    | true => simpa using TaskMove.dialClosed peer hc
    | false => simpa using TaskMove.dialOpen peer hc
  · obtain rfl := Option.some.inj h
    exact .dialFailed peer _ _
  · split at h
    · obtain rfl := Option.some.inj h
      exact .dialFailed peer _ _
    · rename_i hv
      obtain rfl := Option.some.inj h
      -- The certificate of the peer was accepted in the handshake.
      exact .dialed peer _ _ _ (verifyConnection_ok hv)
  · cases h

/-- The steps of `acceptConnections`. The goroutine that it starts for a connection is the one in
`spawned`, and it goes on with `Establish`. When the pool is closed, the connection is refused, and
the loop ends. -/
theorem acceptStep_move {pc : AcceptPc} {input : Input} {o : Outcome}
    (h : p.acceptStep pc input = some o) : TaskMove p (.accept pc) input o := by
  unfold Pool.acceptStep at h
  split at h
  · obtain rfl := Option.some.inj h
    exact .accepted _ _ (by simp)
  · split at h
    · cases h
    · rename_i hv
      obtain rfl := Option.some.inj h
      refine .accepted _ _ ?_
      intro conn name heq
      simp only [Except.ok.injEq, Prod.mk.injEq] at heq
      -- An accepted connection belongs to the peer whose name its certificate has.
      exact heq.2 ▸ verifyConnection_ok hv
  · obtain rfl := Option.some.inj h
    exact .acceptAdd _
  · split at h
    · rename_i hc
      obtain rfl := Option.some.inj h
      exact .acceptClosed _ hc
    · rename_i hc
      have hopen : p.closed = false := by simpa using hc
      split at h
      · obtain rfl := Option.some.inj h
        exact .acceptFailed _ hopen
      · obtain rfl := Option.some.inj h
        exact .acceptSpawn _ _ hopen
  · obtain rfl := Option.some.inj h
    exact .refused _ _ []
  · rename_i conn _ err
    obtain rfl := Option.some.inj h
    -- The connection is refused. Whether it counts as done depends on how it is closed.
    obtain ⟨conns, hconns⟩ := closeConn_eq p conn err
    rw [hconns]
    exact .refused _ _ conns
  · cases h

/-- The steps of `Establish`, with its two round trips as inputs. This is the longest function of
the package, and it can return at several of its points. The cases are split by the point first and
then by the input, in the order of the source. -/
theorem establishStep_move {handler : Handler} {pc : EstablishPc} {input : Input} {o : Outcome}
    (h : p.establishStep handler pc input = some o) :
    TaskMove p (.establish handler pc) input o := by
  cases pc with
  | check =>
    cases input with
    | run =>
      obtain rfl := Option.some.inj h
      cases he : (p.pool handler.peer).established with
      | true => exact .fastPath handler he
      | false => exact .proceed handler he
    | _ => cases h
  | count =>
    cases input with
    | run =>
      obtain rfl := Option.some.inj h
      exact .count handler
    | _ => cases h
  | send ctr =>
    cases input with
    | sent err =>
      cases err with
      | none =>
        obtain rfl := Option.some.inj h
        exact .send handler ctr
      | some text =>
        obtain rfl := Option.some.inj h
        exact .unresolved handler _ _ _ ⟨ctr, .inl rfl⟩
    | _ => cases h
  | receive ctr =>
    cases input with
    | received result =>
      cases result with
      | error text =>
        obtain rfl := Option.some.inj h
        exact .unresolved handler _ _ _ ⟨ctr, .inr rfl⟩
      | ok data =>
        obtain rfl := Option.some.inj h
        split
        · exact .unresolved handler _ _ _ ⟨ctr, .inr rfl⟩
        · rename_i hv
          exact .resolved handler ctr data hv
    | _ => cases h
  | lock =>
    cases input with
    | run =>
      -- `delta` and not `unfold`, which generates the equations of all the branches.
      delta Pool.establishStep at h
      dsimp only at h
      split at h
      · cases h
      · rename_i hl
        have hfree : (p.pool handler.peer).locked = false := by simpa using hl
        split at h
        · rename_i hs
          obtain rfl := Option.some.inj h
          exact .late handler hfree hs
        · rename_i hs
          obtain rfl := Option.some.inj h
          exact .assign handler hfree hs
    | _ => cases h
  | returned err =>
    cases err with
    | none =>
      cases input with
      | run =>
        obtain rfl := Option.some.inj h
        exact .settled handler
      | _ => cases h
    | some err =>
      cases input with
      | closed result =>
        obtain rfl := Option.some.inj h
        -- The handler discards its QUIC connection, and closes it.
        obtain ⟨conns, hconns⟩ := closeConn_eq p handler.conn result
        rw [hconns]
        exact .discarded handler err _ conns
      | _ => cases h

/-- The steps of a `Send` or `Recv`. The one that finds an error goes on in `Close`. Between the
check of the status and the use of the QUIC connection the connection may be closed by others, so
`load` can find nil. -/
theorem operateStep_move {peer : PeerName} {pc : OperatePc} {input : Input} {o : Outcome}
    (h : p.operateStep peer pc input = some o) : TaskMove p (.operate peer pc) input o := by
  unfold Pool.operateStep at h
  split at h
  · obtain rfl := Option.some.inj h
    by_cases hs : (p.pool peer).status = .dead
    · simpa [hs] using TaskMove.operateDead peer hs
    · simpa [hs] using TaskMove.operateAlive peer hs
  · obtain rfl := Option.some.inj h
    cases hc : (p.pool peer).conn with
    -- The connection was closed after the check.
    | none => exact .loadNil peer hc
    | some conn => exact .load peer conn hc
  · split at h
    · obtain rfl := Option.some.inj h
      exact .operateBroken peer _ _
    · obtain rfl := Option.some.inj h
      exact .operated peer _ _
  · cases h

/-- `removeConnectionHandler` is deferred, so it runs on every way out. -/
theorem leaveStep_move (caller : Caller) (result : Option AddError) :
    TaskMove p (.leave caller result) .run ⟨p.removeHandler, caller.next result, none⟩ := by
  unfold Caller.next
  split
  · split
    · exact .leave _ _
    · exact .leaveDial _ _
  · split
    · exact .leave _ _
    · exact .leaveAccept _
  · exact .leave _ _

/-- The steps of `Connection.Close`, whoever called it. What comes after it depends on the caller: a
watcher ends, an operation returns its error, and `Pool.Close` goes on with the next connection. -/
theorem closeStep_move {closer : Closer} {peer : PeerName} {pc : ClosePc} {input : Input}
    {o : Outcome} (h : p.closeStep closer peer pc input = some o) :
    TaskMove p (.close closer peer pc) input o := by
  unfold Pool.closeStep at h
  split at h
  · dsimp only at h
    split at h
    · cases h
    · rename_i hl
      have hfree : (p.pool peer).locked = false := by simpa using hl
      split at h
      · rename_i hs
        obtain rfl := Option.some.inj h
        cases closer with
        | watch conn => exact .closeDead _ peer hfree hs
        | operate conn => exact .closeDead _ peer hfree hs
        | shut closed errs => simpa [Closer.next] using TaskMove.shutDead closed errs peer hfree hs
      · rename_i hs
        obtain rfl := Option.some.inj h
        exact .closeMark closer peer hfree hs
  · rename_i result
    dsimp only at h
    split at h
    · rename_i hc
      obtain rfl := Option.some.inj h
      exact .closeNil closer peer _ hc
    · rename_i conn hc
      obtain rfl := Option.some.inj h
      -- The context of the QUIC connection is done before, or after, or `closeConn` fails.
      obtain ⟨conns, hconns⟩ := closeConn_eq p conn result
      have hfinish : ∀ conns err, TaskMove p (.close closer peer .finish) (.closed result)
          ⟨{ p.update peer (p.pool peer).reset with
              activeConnections := p.activeConnections - 1, done := conns ++ p.done },
            closer.next peer err, none⟩ := by
        intro conns err
        cases closer with
        | watch conn => exact .closeFinish _ peer _ conns
        | operate conn => exact .closeFinish _ peer _ conns
        | shut closed errs => exact .shutFinish closed errs _ peer _ conns
      by_cases hd : p.done.contains conn = true
      · rw [if_pos hd, if_pos hd]
        exact hfinish [] _
      · rw [if_neg hd, if_neg hd, hconns]
        exact hfinish conns _
  · cases h

/-- The steps of `Pool.Close`, which waits until no handler is counted before it closes the listener
and then the connections. -/
theorem shutStep_move {pc : ShutPc} {input : Input} {o : Outcome}
    (h : p.shutStep pc input = some o) : TaskMove p (.shut pc) input o := by
  unfold Pool.shutStep at h
  split at h
  · obtain rfl := Option.some.inj h
    exact .shutStore
  · split at h
    · rename_i hz
      obtain rfl := Option.some.inj h
      exact .shutWaited hz
    · cases h
  · obtain rfl := Option.some.inj h
    exact .shutListener _ _
  · split at h
    · rename_i hp
      obtain rfl := Option.some.inj h
      -- The connections are closed one after the other, in any order, as the map is iterated.
      exact .shutVisit _ _ _ hp.1
    · cases h
  · split at h
    · rename_i hall
      obtain rfl := Option.some.inj h
      exact .shutReturned _ _ hall
    · cases h
  · cases h

/-- A goroutine has no other moves. The proofs about the pool split on `TaskMove` and never open a
step function. -/
theorem taskStep_move {t : Task} {input : Input} {o : Outcome}
    (h : p.taskStep t input = some o) : TaskMove p t input o := by
  unfold Pool.taskStep at h
  split at h
  · exact dialStep_move h
  · exact acceptStep_move h
  · exact establishStep_move h
  · obtain rfl := Option.some.inj h
    exact leaveStep_move _ _
  · split at h
    · rename_i hd
      obtain rfl := Option.some.inj h
      exact .woken _ _ hd
    · cases h
  · exact operateStep_move h
  · exact closeStep_move h
  · exact shutStep_move h
  · cases h

/-- The steps of a pool. -/
inductive PoolMove (p : Pool) : Event → Pool → Prop
  | operate (peer : PeerName) (hp : peer ∈ p.peers) :
      PoolMove p (.operate peer) { p with tasks := p.tasks ++ [.operate peer .check] }
  | close : PoolMove p .close { p with tasks := p.tasks ++ [.shut .store] }
  | drop (conn : ConnId) : PoolMove p (.drop conn) { p with done := conn :: p.done }
  | task (ref : Nat) (input : Input) (t : Task) (o : Outcome) (ht : p.tasks[ref]? = some t)
      (hm : TaskMove p t input o) : PoolMove p (.task ref input) (p.apply ref o)

/-- A pool has no other steps: a new `Send` or `Recv`, a new `Pool.Close`, a QUIC connection that
ends, or a move of a goroutine. -/
theorem step_move {e : Event} {p' : Pool} (h : p.step e = some p') : PoolMove p e p' := by
  unfold Pool.step at h
  split at h
  · cases h
  split at h
  · split at h
    · rename_i hp
      obtain rfl := Option.some.inj h
      exact .operate _ hp
    · cases h
  · obtain rfl := Option.some.inj h
    exact .close
  · obtain rfl := Option.some.inj h
    exact .drop _
  · split at h
    · cases h
    · rename_i ht
      obtain ⟨o, ho, rfl⟩ := Option.map_eq_some_iff.mp h
      exact .task _ _ _ o ht (taskStep_move ho)

end Steps

/-- The goroutine is the one that moved, or the one that it started. -/
def Outcome.Yields (o : Outcome) (t : Task) : Prop := t = o.task ∨ o.spawned = some t

section Tasks
variable {p : Pool} {ref : Nat} {o : Outcome}

/-- A goroutine after a step comes from the step, or it was there before. -/
theorem mem_apply {t : Task} (h : t ∈ (p.apply ref o).tasks) : o.Yields t ∨ t ∈ p.tasks := by
  rcases List.mem_append.mp h with hset | hnew
  · rcases List.mem_or_eq_of_mem_set hset with hold | rfl
    · exact .inr hold
    · exact .inl (.inl rfl)
  · exact .inl (.inr (by simpa using hnew))

/-- How a step changes the number of the goroutines with a property. The goroutine that moves is
counted before and after it, and the one that it may start is new. The statement is an equation of
sums, as a difference of natural numbers would lose the cases below zero. -/
theorem countP_apply {t : Task} (ht : p.tasks[ref]? = some t) (f : Task → Bool) :
    (p.apply ref o).tasks.countP f + (f t).toNat =
      p.tasks.countP f + (f o.task).toNat + (o.spawned.any f).toNat := by
  have hlt := lt_length_of_getElem? ht
  have hget : p.tasks[ref] = t := by simpa [List.getElem?_eq_getElem hlt] using ht
  have hspawned : o.spawned.toList.countP f = (o.spawned.any f).toNat := by
    cases o.spawned with
    | none => rfl
    | some s => cases hs : f s <;> simp [hs]
  -- `countP_set` subtracts, so the old goroutine has to be counted.
  have hpos : f t = true → 0 < p.tasks.countP f := by
    intro hf
    exact List.countP_pos_iff.mpr ⟨t, List.mem_of_getElem? ht, hf⟩
  show (p.tasks.set ref o.task ++ o.spawned.toList).countP f + _ = _
  rw [List.countP_append, hspawned, List.countP_set hlt, hget]
  cases hf : f t with
  | false => cases f o.task <;> simp
  | true =>
    have hcount := hpos hf
    cases f o.task <;> simp <;> omega

/-- The goroutines that `Run` starts: one that accepts, and one for each peer that dials. -/
theorem mem_tasks_run {host : PeerName} {peers : List PeerName} {t : Task}
    (h : t ∈ (newPool host peers).run.tasks) :
    t = .accept .accept ∨ ∃ peer, t = .dial peer .head := by
  rcases List.mem_cons.mp h with rfl | hdial
  · exact .inl rfl
  · obtain ⟨peer, -, rfl⟩ := List.mem_map.mp hdial
    exact .inr ⟨peer, rfl⟩

end Tasks

/-- The peers of a pool do not change. They are those of the configuration. -/
theorem TaskMove.peers {p : Pool} {t : Task} {input : Input} {o : Outcome}
    (h : TaskMove p t input o) : o.pool.peers = p.peers := by
  cases h <;> rfl

/-- The goroutine is in `Close` for the peer and holds the mutex. -/
def Task.finishing (peer : PeerName) : Task → Bool
  | .close _ peer' .finish => peer' = peer
  | _ => false

/-- What a step does to the connections: nothing but a count, or one of the three steps that the
mutex protects. -/
inductive LinkChange (p : Pool) (t : Task) (o : Outcome) : Prop
  | keep (hpool : o.pool.pool = p.pool) (hactive : o.pool.activeConnections = p.activeConnections)
      (hfree : ∀ peer, t.finishing peer = false) (hfree' : ∀ peer, o.task.finishing peer = false)
  | count (h : Handler) (ctr : UInt32) (ht : t = .establish h .count)
      (hpool : o.pool.pool =
        Function.update p.pool h.peer { p.pool h.peer with counter := ctr })
      (hactive : o.pool.activeConnections = p.activeConnections)
      (hfree : ∀ peer, t.finishing peer = false) (hfree' : ∀ peer, o.task.finishing peer = false)
  | assign (h : Handler) (ht : t = .establish h .lock) (hl : (p.pool h.peer).locked = false)
      (hs : (p.pool h.peer).status ≠ .alive)
      (hpool : o.pool.pool =
        Function.update p.pool h.peer ((p.pool h.peer).assign h.perspective h.conn))
      (hactive : o.pool.activeConnections = p.activeConnections + 1)
      (hfree' : ∀ peer, o.task.finishing peer = false)
  | mark (closer : Closer) (peer : PeerName) (ht : t = .close closer peer .lock)
      (ho : o.task = .close closer peer .finish) (hl : (p.pool peer).locked = false)
      (hs : (p.pool peer).status ≠ .dead)
      (hpool : o.pool.pool = Function.update p.pool peer (p.pool peer).markDead)
      (hactive : o.pool.activeConnections = p.activeConnections)
  | finish (closer : Closer) (peer : PeerName) (ht : t = .close closer peer .finish)
      (hpool : o.pool.pool = Function.update p.pool peer (p.pool peer).reset)
      (hactive : o.pool.activeConnections = p.activeConnections - 1)
      (hfree' : ∀ peer, o.task.finishing peer = false)
  | nil (closer : Closer) (peer : PeerName) (ht : t = .close closer peer .finish)
      (hconn : (p.pool peer).conn = none) (hpool : o.pool.pool = p.pool)

/-- Every step is one of these, as far as the mutexes and the counter of connections go. The proofs
about `Pool.Close` look at these cases instead of all the steps. -/
theorem TaskMove.link {p : Pool} {t : Task} {input : Input} {o : Outcome}
    (h : TaskMove p t input o) : LinkChange p t o := by
  cases h with
  | count h => exact .count h _ rfl rfl rfl (fun _ => rfl) fun _ => rfl
  | assign h hl hs => exact .assign h rfl hl hs rfl rfl fun _ => rfl
  | closeMark closer peer hl hs => exact .mark closer peer rfl rfl hl hs rfl rfl
  | closeFinish closer peer input conns => exact .finish closer peer rfl rfl rfl fun _ => rfl
  | shutFinish closed errs errs' peer input conns =>
    exact .finish (.shut closed errs) peer rfl rfl rfl fun _ => rfl
  | closeNil closer peer input hc => exact .nil closer peer rfl hc rfl
  | _ => exact .keep rfl rfl (fun _ => rfl) fun _ => rfl

section Alive
variable {p : Pool} {t : Task} {input : Input} {o : Outcome} {peer : PeerName}

/-- What a step of a goroutine does to one connection. -/
inductive ConnMove (t : Task) (peer : PeerName) (c : Connection) : Connection → Prop
  | keep : ConnMove t peer c c
  | count (ctr : UInt32) : ConnMove t peer c { c with counter := ctr }
  | assign (h : Handler) (ht : t = .establish h .lock) (hp : h.peer = peer)
      (hs : c.status ≠ .alive) (hl : c.locked = false) :
      ConnMove t peer c (c.assign h.perspective h.conn)
  | mark (closer : Closer) (ht : t = .close closer peer .lock) (hs : c.status ≠ .dead) :
      ConnMove t peer c c.markDead
  | reset : ConnMove t peer c c.reset

/-- What a step does to the connection of one peer. Each move touches one connection at most, and in
one of five ways. Invariants of single connections are proved from these five cases, and do not need
the moves themselves. -/
theorem TaskMove.conn (h : TaskMove p t input o) (peer : PeerName) :
    ConnMove t peer (p.pool peer) (o.pool.pool peer) := by
  -- The connection that changes is the one of the peer, or that of the peer stays.
  have hupdate : ∀ q c, o.pool.pool = Function.update p.pool q c →
      (q = peer → ConnMove t peer (p.pool peer) c) →
      ConnMove t peer (p.pool peer) (o.pool.pool peer) := by
    intro q c hpool hmove
    rw [hpool]
    by_cases hq : peer = q
    · subst hq
      rw [Function.update_self]
      exact hmove rfl
    · rw [Function.update_of_ne hq]
      exact .keep
  cases h.link with
  | keep hpool | nil closer q ht hconn hpool =>
    rw [hpool]
    exact .keep
  | count handler ctr ht hpool =>
    refine hupdate _ _ hpool ?_
    rintro rfl
    exact .count ctr
  | assign handler ht hl hs hpool =>
    refine hupdate _ _ hpool ?_
    rintro rfl
    exact .assign handler ht rfl hs hl
  | mark closer q ht ho hl hs hpool =>
    refine hupdate _ _ hpool ?_
    rintro rfl
    exact .mark closer ht hs
  | finish closer q ht hpool =>
    refine hupdate _ _ hpool ?_
    rintro rfl
    exact .reset

/-- A connection that is alive after a step was so before it, unless `Establish` assigned a QUIC
connection. -/
theorem TaskMove.alive_before (h : TaskMove p t input o)
    (hs : (o.pool.pool peer).status = .alive) :
    ((p.pool peer).status = .alive ∧ (o.pool.pool peer).conn = (p.pool peer).conn) ∨
      ∃ handler, t = .establish handler .lock ∧ handler.peer = peer ∧
        (p.pool peer).status ≠ .alive := by
  have hmove := h.conn peer
  revert hs hmove
  generalize o.pool.pool peer = c'
  intro hs hmove
  cases hmove with
  | assign handler ht hp hne hl => exact .inr ⟨handler, ht, hp, hne⟩
  | mark => cases hs
  | keep | count | reset => exact .inl ⟨hs, rfl⟩

/-- A connection that is alive stays so, unless the step is in `Connection.Close`. -/
theorem TaskMove.alive_after (h : TaskMove p t input o) {conn : ConnId}
    (hs : (p.pool peer).aliveOn conn) :
    (o.pool.pool peer).aliveOn conn ∨ ∃ closer, t = .close closer peer .lock := by
  have hmove := h.conn peer
  revert hmove
  generalize o.pool.pool peer = c'
  intro hmove
  cases hmove with
  | assign handler ht hp hne hl => exact absurd hs.1 hne
  | mark closer ht => exact .inr ⟨closer, ht⟩
  | keep | count | reset => exact .inl hs

end Alive

end ReplicatedFs.Connection
