import ReplicatedFs.P2p.Service
import ReplicatedFs.Proofs.Mirror.Usable
import ReplicatedFs.Proofs.P2p.HostRun

/-!
# `ReplicatedFs.Proofs.P2p.Crash`: which messages stop a host

`proto.Unmarshal` accepts a request without metadata, a `NACK` without an error and numbers that no
enum has. The code reads these fields without a test, in the log, in `Mirror.Consult`, in
`Mirror.Mirror`, in `DetectAndResolveConflict` and in `processResponses`. Besides, an `RMDIR` of a
path that exists gets a nil response, and a handler that ends without a request mirrors nil.
And `listen` calls `Put` with nil when a handler clears the error of bytes that it could not decode.

* `Host.quiet` and `Service.calm`: the steps at which none of this comes in.
* `TaskSafe.change`: what a transaction holds after such a step.
* `Task.step_ne_error`: a goroutine does not panic on it.
* `no_crash`: a host of such a run does not panic.
-/

set_option autoImplicit false

namespace ReplicatedFs

open Protobuf

/-- The type is one of the schema. -/
def Protobuf.RequestType.isDeclared : RequestType → Bool
  | .unrecognized _ => false
  | _ => true

/-- The test decides the statement: a number is declared when it is among the constants of the
enum. -/
theorem Protobuf.RequestType.declared_of_isDeclared {type : RequestType}
    (h : type.isDeclared = true) : type.Declared := by
  rintro number rfl
  cases h

/-- A request of a declared type with metadata, and a `NACK` with its error. -/
def Protobuf.Message.complete (msg : Message) : Bool :=
  match msg.payload with
  | .request request => request.type.isDeclared && request.metadata.isSome
  | .response response => response.type ≠ .nack || response.error.isSome
  | .unset => true

section Complete
variable {msg : Message}

/-- The request of a complete message has what the code reads without a test: a type with a case of
its own, and metadata. -/
theorem Protobuf.Message.complete_request {request : Request} (h : msg.complete = true)
    (hr : msg.getRequest = some request) : request.type.Declared ∧ request.metadata.isSome := by
  rw [Message.eq_newRequestMessage hr] at h
  simp only [Message.complete, newRequestMessage, Bool.and_eq_true] at h
  exact ⟨RequestType.declared_of_isDeclared h.1, h.2⟩

/-- A NACK of a complete message carries the error that `Replicate` reads. -/
theorem Protobuf.Message.complete_response {response : Response} (h : msg.complete = true)
    (hr : msg.getResponse = some response) (hnack : response.type = .nack) :
    response.error.isSome := by
  unfold Message.complete at h
  unfold Message.getResponse at hr
  split at h <;> simp_all

end Complete

/-- `os.Stat` says that there is no such path. -/
def Stat.absent : Stat → Bool
  | .ok _ => false
  | .error err => err.notExist

/-- `Mirror.Mirror` does not panic on a request of a declared type with metadata. -/
theorem Mirror.mirror_ok (m : Mirror) (proc : Library.Posix.Process) (t : Library.Posix.Tree)
    {r : Request} (htype : r.type.Declared) (hmeta : r.metadata.isSome) :
    ∃ result, m.mirror proc t (some r) = .ok result := by
  obtain ⟨edit, err, hchange⟩ : ∃ e err, m.change proc t.1 r = .ok (e, err) := by
    obtain ⟨type, md, clock, content⟩ := r
    obtain ⟨md, rfl⟩ := Option.isSome_iff_exists.mp hmeta
    cases type with
    | unrecognized number => exact absurd rfl (htype number)
    | _ => exact ⟨_, _, rfl⟩
  exact ⟨_, Mirror.mirror_of_ok hchange⟩

namespace P2p

open Library

/-- A handler that waits for `n` messages can end with a transaction that has `count` of them: it
has a request to mirror, it has a `NACK`, or one more message comes. -/
def Transaction.endsWell (n count : Nat) (t : Transaction) : Bool :=
  t.request.isSome || t.responses.any (fun r => r.type = .nack) || count < n

/-- What comes in is complete, and no handler ends without a request. -/
def Host.quiet (h : Host) : Event → Bool
  | .replicate _ request => request.metadata.isSome
  | .receive msg => msg.complete &&
    match h.ts.lookup msg.tid with
    | none => (Transaction.put { tid := msg.tid } msg).endsWell h.peers.length 1
    | some ref => h.tasks[ref]?.all fun t =>
      t.goroutine.isReplicate || (t.trans.put msg).endsWell h.peers.length (t.taken + 1)
  | _ => true

/-- What comes in is complete, no handler ends without a request, there is nothing at the path of an
`RMDIR`, and no handler returns nil between `ReadMessage` and the test for bytes that are no
message. -/
def Service.calm (_ : Service) (s : ServiceState) : ServiceEvent → Bool
  | .replicate tid request => s.host.quiet (.replicate tid request)
  | .test =>
    match s.listener.reading.map Reading.tested with
    | some (.accepted msg) => s.host.quiet (.receive msg)
    | _ => true
  | .assign ref => s.listener.harmless s.host ref
  | .consult ref answers =>
    match s.host.handlePc? ref with
    | some (.consult _ request) => request.type ≠ .rmdir || answers.first.absent
    | _ => true
  | _ => true

/-- What the goroutine of a task can read without a panic. -/
structure TaskSafe (n : Nat) (t : Task) : Prop where
  messages : ∀ m ∈ t.inbox, m.complete = true
  stored : ∀ r, t.trans.request = some r → r.metadata.isSome
  checked : ∀ m, t.goroutine = .replicate (.check m) →
    ∃ r, m.getRequest = some r ∧ r.metadata.isSome
  ends : t.goroutine.isReplicate = false → t.trans.endsWell n t.inbox.length = true
  called : t.goroutine ≠ .handle (.mirror none)

section Tasks
variable {h : Host} {n : Nat} {t : Task} {msg : Message}

/-- The request of a transaction after a complete message. If the message brings one, it has
metadata. -/
theorem metadata_of_put {trans : Transaction}
    (hold : ∀ r, trans.request = some r → r.metadata.isSome) (hmsg : msg.complete = true) :
    ∀ r, (trans.put msg).request = some r → r.metadata.isSome := by
  intro r hr
  rw [Transaction.put_request] at hr
  cases hget : msg.getRequest with
  | some r' =>
    obtain rfl : r' = r := by simpa [hget] using hr
    exact (msg.complete_request hmsg hget).2
  | none => exact hold r (by simpa [hget] using hr)

/-- A move to another point of the code. The two points at which a nil pointer could be used are
excluded. -/
theorem TaskSafe.goto (hs : TaskSafe n t) {g : Goroutine}
    (hkind : g.isReplicate = t.goroutine.isReplicate) (hcheck : ∀ m, g ≠ .replicate (.check m))
    (hmirror : g ≠ .handle (.mirror none)) : TaskSafe n (t.goto g) :=
  ⟨hs.messages, hs.stored, fun m hm => absurd hm (hcheck m), fun hk => hs.ends (hkind ▸ hk),
    hmirror⟩

/-- What a handler mirrors is not nil. The guard lets its last message in only when there is a
request, or a `NACK` because of which it does not mirror. -/
theorem TaskSafe.request_of_permitted (hs : TaskSafe n t) (hk : t.goroutine.isReplicate = false)
    {our : ResponseType} (hp : permitted our t.trans.responses = true)
    (hle : n ≤ t.inbox.length) : t.trans.request ≠ none := by
  have hends := hs.ends hk
  simp only [permitted, Bool.and_eq_true, Bool.not_eq_true'] at hp
  simp only [Transaction.endsWell, hp.2, Bool.or_false, Bool.or_eq_true, decide_eq_true_eq] at hends
  rcases hends with hsome | hlt
  · intro hnone
    simp [hnone] at hsome
  · omega

/-- Every move keeps what can be read. Most moves read nothing and go to a point at which nothing is
read either. -/
theorem TaskSafe.move {input : Input} {m : Move} {b : Bool} (hs : TaskSafe h.peers.length t)
    (hinv : TaskInv h.name h.peers.length b t) (hm : TaskMove h t input m) :
    TaskSafe h.peers.length m.task := by
  have hpending := hinv.pending
  have hkind := hm.extends.kind
  cases hm with
  | respond msg ballot result hg =>
    exact ⟨hs.messages, hs.stored, by simp, fun _ => hs.ends (by simp [hg, Goroutine.isReplicate]),
      by simp⟩
  -- The handler has all messages and no NACK. Without a request among them `Mirror` would get nil.
  | permit our hg hle hp =>
    refine hs.goto hkind (by simp) ?_
    simpa using hs.request_of_permitted (by simp [hg, Goroutine.isReplicate]) hp (by omega)
  | broadcast message result hg =>
    refine hs.goto hkind ?_ (by simp)
    rcases afterBroadcast_cases h.peers result with
      ⟨_, -, hafter⟩ | ⟨_, _, _, -, -, hafter⟩ | ⟨_, _, hafter⟩ <;>
      simp [hafter]
  | _ => exact hs.goto hkind (by simp) (by simp)

/-- The task after `listen` put a message. The last hypothesis is about the message that completes a
transaction: from then on the handler may go on to `Mirror` with the stored request. -/
theorem TaskSafe.join (hs : TaskSafe n t) (hmsg : msg.complete = true)
    (hends : t.goroutine.isReplicate = false →
      (t.trans.put msg).endsWell n (t.inbox.length + 1) = true) :
    TaskSafe n { t with trans := t.trans.put msg, inbox := t.inbox ++ [msg] } where
  messages := by
    intro m hm
    rcases List.mem_append.mp hm with hm | hm
    · exact hs.messages m hm
    · rw [List.mem_singleton.mp hm]
      exact hmsg
  -- A new request overwrites the stored one, and is complete itself.
  stored := metadata_of_put hs.stored hmsg
  checked := hs.checked
  ends hk := by
    rw [List.length_append, List.length_singleton]
    exact hends hk
  called := hs.called

/-- The task that takes a message keeps what was known of it. The message is one of its inbox. -/
theorem TaskSafe.notified (hs : TaskSafe n t) : TaskSafe n (t.notified msg) := by
  unfold Task.notified
  split
  · rename_i our request hg _
    exact ⟨hs.messages, hs.stored, by simp, fun _ => hs.ends (by simp [hg, Goroutine.isReplicate]),
      by simp⟩
  · exact ⟨hs.messages, hs.stored, hs.checked, hs.ends, hs.called⟩

/-- A goroutine does not panic on what it reads: not on its own transaction, and not on those of the
others in its conflict check. -/
theorem TaskSafe.step_ne_error {name : PeerName} {b : Bool} {input : Input} {p : Panic}
    (hs : TaskSafe n t) (hinv : TaskInv name n b t)
    (htable : ∀ u ∈ h.table, ∀ r, u.request = some r → r.metadata.isSome) :
    t.step h input ≠ some (.error p) := by
  intro herror
  rcases Task.step_error herror with ⟨m, hpc, hdetect⟩ | ⟨expected, failed, hg, hprocess⟩ | hmirror
  · -- The message of the check has its metadata.
    obtain ⟨r, hget, hmeta⟩ : ∃ r, m.getRequest = some r ∧ r.metadata.isSome := by
      rcases hpc with hg | ⟨request, verdict, hg⟩
      · exact hs.checked m hg
      · have hpoint := hinv.point
        rw [hg] at hpoint
        obtain ⟨-, -, hmem, hget, -⟩ := hpoint
        exact ⟨request, hget, (m.complete_request (hs.messages m hmem) hget).2⟩
    obtain ⟨found, hok⟩ := detectAndResolveConflict_ok hget hmeta htable
    rw [hok] at hdetect
    cases hdetect
  · -- Every `NACK` that was gathered has its error.
    have herrors : ∀ r ∈ t.trans.responses, r.type = .nack → r.error.isSome := by
      intro r hr hnack
      rw [hinv.responses] at hr
      obtain ⟨m, hm, hget⟩ := mem_responsesOf.mp hr
      exact m.complete_response (hs.messages m hm) hget hnack
    obtain ⟨result, hok⟩ := processResponses_ok_of_errors herrors
    rw [hok] at hprocess
    cases hprocess
  · exact hs.called hmirror

end Tasks

/-- The invariant of the calm runs. -/
structure CrashInv (h : Host) : Prop where
  inv : HostInv h
  safe : ∀ (i : Nat) (t : Task), h.tasks[i]? = some t → TaskSafe h.peers.length t
  running : h.panicked = none

section Step
variable {h h' : Host} {e : Event} {sent : Option Sent}

/-- At its start a host has no tasks, and it has not panicked. -/
theorem CrashInv.init (name : PeerName) (peers : List PeerName) (clock : UInt64) :
    CrashInv (Host.start name peers clock) :=
  ⟨.init name peers clock, by simp [Host.start], rfl⟩

/-- The requests that `DetectAndResolveConflict` compares with have their metadata. -/
theorem CrashInv.table (hs : CrashInv h) :
    ∀ u ∈ h.table, ∀ r, u.request = some r → r.metadata.isSome := by
  intro u hu r hr
  obtain ⟨entry, -, hentry⟩ := List.mem_filterMap.mp hu
  obtain ⟨t, ht, rfl⟩ := Option.map_eq_some_iff.mp hentry
  exact (hs.safe _ t ht).stored r hr

/-- A task after a quiet step. It is an old one that moved or got a message, or it is a new one. The
step of a message is where `quiet` is used, because what comes in from outside is not covered by the
invariant. -/
theorem CrashInv.safe_step (hs : CrashInv h) (hquiet : h.quiet e = true)
    (hm : HostMove h e h' sent) {i : Nat} {t' : Task} (ht' : h'.tasks[i]? = some t') :
    TaskSafe h.peers.length t' := by
  have hchange := hm.change ht'
  generalize hprev : h.tasks[i]? = old at hchange
  cases hchange with
  | same e sent t => exact hs.safe i t' hprev
  | call tid request hfresh =>
    refine ⟨by simp, ?_, ?_, by simp [Goroutine.isReplicate], by simp⟩
    · rintro r hr
      cases hr
      exact hquiet
    · intro m hcheck
      obtain rfl : newRequestMessage tid h.name request = m := by simpa using hcheck
      exact ⟨request, rfl, hquiet⟩
  | join msg t hlookup =>
    simp only [Host.quiet, hlookup, hprev, Option.all_some, Bool.and_eq_true,
      Bool.or_eq_true] at hquiet
    obtain ⟨hmsg, hends⟩ := hquiet
    -- `listen` is free, so the reader has taken all the messages.
    have hpending := (hs.inv.tasks i t hprev).pending
    have hl : h.listen = none := by cases hm <;> assumption
    simp only [Host.blocks, hl, Option.any_none, Bool.toNat_false, Nat.add_zero] at hpending
    refine (hs.safe i t hprev).join hmsg fun hk => ?_
    rw [hpending]
    simpa [hk] using hends
  | spawn msg hlookup =>
    simp only [Host.quiet, hlookup, Bool.and_eq_true] at hquiet
    refine ⟨by simpa using hquiet.1, metadata_of_put (by simp) hquiet.1, by simp, fun _ => hquiet.2,
      by simp⟩
  | notify msg t hl hr => exact (hs.safe i t hprev).notified
  | move input t m hmove => exact (hs.safe i t hprev).move (hs.inv.tasks i t hprev) hmove

/-- A quiet step does not panic. All the panics of a host are in the steps of its goroutines. -/
theorem CrashInv.running_step (hs : CrashInv h) (hm : HostMove h e h' sent) :
    h'.panicked = none := by
  cases hm with
  | panic ref input t p ht hp =>
    exact absurd hp ((hs.safe ref t ht).step_ne_error (hs.inv.tasks ref t ht) hs.table)
  | _ => exact hs.running

/-- Every quiet step keeps the invariant. So a host panics only after a step that is not quiet. -/
theorem CrashInv.step (hs : CrashInv h) (hquiet : h.quiet e = true) (hnext : h.next e = some h') :
    CrashInv h' := by
  obtain ⟨sent, hm⟩ := Host.next_move hnext
  refine ⟨hs.inv.step hm, ?_, hs.running_step hm⟩
  intro i t ht
  rw [hm.config.2]
  exact hs.safe_step hquiet hm ht

end Step

section Service
variable {v : Service} {h h' : Host} {msg : Message}

/-- A complete message can be logged. The logger reads the metadata of a request, and would follow a
nil pointer without it. -/
theorem logMessage_ok (hmsg : msg.complete = true) : logMessage msg = .ok () := by
  unfold logMessage
  cases hget : msg.getRequest with
  | none => rfl
  | some request => simp [(msg.complete_request hmsg hget).2]

/-- What a handler consults has a declared type and metadata, and these are what `Mirror.Consult`
panics without. -/
theorem CrashInv.consults (hs : CrashInv h) {ref : Nat} {request : Request}
    (hpc : h.handlePc? ref = some (.consult msg request)) :
    request.type.Declared ∧ request.metadata.isSome := by
  obtain ⟨t, ht, hg⟩ := Host.handlePc?_eq_some.mp hpc
  have hpoint := (hs.inv.tasks ref t ht).point
  rw [hg] at hpoint
  obtain ⟨-, -, hmem, hget⟩ := hpoint
  exact msg.complete_request ((hs.safe ref t ht).messages msg hmem) hget

/-- What a handler mirrors is not nil, and has a declared type and metadata. -/
theorem CrashInv.mirrors (hs : CrashInv h) {ref : Nat} {request : Option Request}
    (hpc : h.handlePc? ref = some (.mirror request)) :
    ∃ r, request = some r ∧ r.type.Declared ∧ r.metadata.isSome := by
  obtain ⟨t, ht, hg⟩ := Host.handlePc?_eq_some.mp hpc
  have hsafe := hs.safe ref t ht
  cases request with
  | none => exact absurd hg hsafe.called
  | some r =>
    obtain ⟨-, -, -, ms, -, hms, hr⟩ := (hs.inv.tasks ref t ht).decided_of_mirrorCall
      (by rw [hg]; rfl)
    obtain ⟨m, hm, hget⟩ := mem_requestsOf.mp (List.mem_of_getLast? hr.symm)
    exact ⟨r, rfl, m.complete_request (hsafe.messages m (hms.subset hm)) hget⟩

/-- The verdict on a request that is no `RMDIR`, or for which there is nothing at the path. On any
other `RMDIR` the handler dereferences an answer that is nil. -/
theorem Service.consult_ok {answers : Answers} {request : Request}
    (htype : request.type.Declared) (hmeta : request.metadata.isSome)
    (hrmdir : request.type ≠ .rmdir ∨ answers.first.absent = true) :
    ∃ response, Service.consult answers request = .ok response := by
  have hmeta' : request.metadata ≠ none := Option.isSome_iff_ne_none.mp hmeta
  have hserves : answers.Serves request := by
    by_cases htype' : request.type = .rmdir
    · refine (Answers.serves_rmdir_iff hmeta' htype').mpr ?_
      -- An `RMDIR` is answered without a crash only if `os.Stat` finds nothing.
      have habsent := hrmdir.resolve_left (not_not_intro htype')
      cases hfirst : answers.first with
      | ok mode => simp [hfirst, Stat.absent] at habsent
      | error err =>
        obtain ⟨text, notExist⟩ := err
        obtain rfl : notExist = true := by simpa [hfirst, Stat.absent] using habsent
        exact ⟨text, rfl⟩
    · exact Answers.serves_of_ne_rmdir htype hmeta' htype'
  obtain ⟨response, hresponse, -⟩ := hserves
  exact ⟨response, by rw [Service.consult, hresponse]⟩

/-- `Put` of a quiet message keeps the invariant of the host, whether it makes a transaction or
finds one. -/
theorem CrashInv.put (hs : CrashInv h) (hquiet : h.quiet (.receive msg) = true)
    (hput : v.put h msg = some h') : CrashInv h' := by
  have hmsg : msg.complete = true := by
    simp only [Host.quiet, Bool.and_eq_true] at hquiet
    exact hquiet.1
  unfold Service.put at hput
  rw [logMessage_ok hmsg, ite_self] at hput
  exact hs.step hquiet hput

/-- A reader takes the message and logs it. The log reads the fields of the message, and it is
complete. -/
theorem CrashInv.notify (hs : CrashInv h) (hstep : v.notify h = some h') : CrashInv h' := by
  unfold Service.notify at hstep
  cases hl : h.listen with
  | none => simp [hl] at hstep
  | some pending =>
    obtain ⟨ref, msg⟩ := pending
    simp only [hl] at hstep
    obtain ⟨h₁, hnext, hlog⟩ := Option.bind_eq_some_iff.mp hstep
    -- The message that is logged is the last one in the inbox, so the invariant knows it.
    obtain ⟨t, ht, hlast⟩ := hs.inv.listening ref msg hl
    have hmsg : msg.complete = true :=
      (hs.safe ref t ht).messages msg (List.mem_of_getLast? hlast)
    rw [logMessage_ok hmsg, ite_self] at hlog
    cases hlog
    exact hs.step rfl hnext

/-- The invariant of the calm runs, with the variables of `listen`: `err` is set while `msg` is
nil. -/
structure ServiceInv (s : ServiceState) : Prop where
  host : CrashInv s.host
  reading : ∀ r, s.listener.reading = some r → r.msg = none → r.failed = true

/-- A step that leaves the variables of `listen` alone. Only the host has to be looked at. -/
theorem ServiceInv.onHost {s s' : ServiceState} (hi : ServiceInv s) {host : Option Host}
    (hhost : ∀ h', host = some h' → CrashInv h') (hs : s.onHost host = some s') :
    ServiceInv s' := by
  obtain ⟨h', hh', rfl⟩ := Option.map_eq_some_iff.mp hs
  exact ⟨hhost h' hh', hi.reading⟩

/-- The test of `err`. It finds no nil message, and what it puts is quiet. With an error the message
is skipped. A nil message without an error would crash in `Put`, and this is the case that a closure
of a handler can bring about. -/
theorem ServiceInv.test {s s' : ServiceState} (hi : ServiceInv s)
    (hcalm : v.calm s .test = true) (hs : v.test s = some s') : ServiceInv s' := by
  unfold Service.test at hs
  simp only [Service.calm] at hcalm
  split at hs
  · cases hs
  · cases hs
    exact ⟨hi.host, nofun⟩
  · -- `Put(nil)`: the invariant says that a nil message comes with an error, so this case is void.
    rename_i htested
    obtain ⟨⟨msg, failed⟩, hr, htested⟩ := Option.map_eq_some_iff.mp htested
    have hfailed := hi.reading _ hr
    cases msg <;> cases failed <;> simp_all [Reading.tested]
  · rename_i msg htested
    simp only [htested] at hcalm
    obtain ⟨h', hput, rfl⟩ := Option.map_eq_some_iff.mp hs
    exact ⟨hi.host.put hcalm hput, nofun⟩

/-- The assignment of a closure. It clears no error of bytes that are no message. -/
theorem ServiceInv.assign {s : ServiceState} {l : Listener} {ref : Nat} (hi : ServiceInv s)
    (hharmless : s.listener.harmless s.host ref = true)
    (hl : s.listener.assign s.host ref = some l) : ServiceInv { s with listener := l } := by
  obtain ⟨result, hresult, -, rfl⟩ := Listener.assign_eq_some hl
  refine ⟨hi.host, fun r hr hnil => ?_⟩
  obtain ⟨old, hold, rfl⟩ := Option.map_eq_some_iff.mp hr
  have hold' : old.msg = none := hnil
  simpa [Listener.harmless, hold, hold', hresult] using hharmless

/-- Every calm step keeps the invariant. What a step can read is covered by the invariant, and what
it brings in is covered by `calm`. -/
theorem ServiceInv.step {s s' : ServiceState} (hi : ServiceInv s) {e : ServiceEvent}
    (hstep : restrict v.step v.calm s e = some s') : ServiceInv s' := by
  obtain ⟨hcalm, hstep⟩ := restrict_eq_some.mp hstep
  have hs := hi.host
  simp only [Service.step, hs.running, Option.isSome_none, Bool.false_eq_true, if_false] at hstep
  cases e with
  | replicate tid request =>
    have hquiet : s.host.quiet (.replicate tid request) = true := hcalm
    exact hi.onHost (fun _ => hs.step hquiet) hstep
  -- `ReadMessage` returns a nil message only with an error.
  | receive raw =>
    simp only at hstep
    split at hstep <;> cases hstep
    refine ⟨hs, fun r hr hnil => ?_⟩
    cases hr
    cases hread : v.codec.readMessage raw <;> simp_all [Reading.ofResult]
  | test => exact hi.test hcalm hstep
  | assign ref =>
    obtain ⟨l, hl, rfl⟩ := Option.map_eq_some_iff.mp hstep
    exact hi.assign hcalm hl
  | notify => exact hi.onHost (fun _ => hs.notify) hstep
  | run ref =>
    simp only at hstep
    split at hstep
    · exact hi.onHost (fun _ => hs.step rfl) hstep
    · cases hstep
  | broadcast ref result => exact hi.onHost (fun _ => hs.step rfl) hstep
  | contextDone ref err => exact hi.onHost (fun _ => hs.step rfl) hstep
  | consult ref answers =>
    simp only at hstep
    split at hstep
    · rename_i msg request hpc
      simp only [Service.calm, hpc, Bool.or_eq_true, decide_eq_true_eq] at hcalm
      obtain ⟨htype, hmeta⟩ := hs.consults hpc
      obtain ⟨response, hok⟩ := Service.consult_ok htype hmeta hcalm
      rw [hok] at hstep
      exact hi.onHost (fun _ => hs.step rfl) hstep
    · cases hstep
  | mirror ref proc tree =>
    simp only at hstep
    split at hstep
    · rename_i request hpc
      -- `Mirror` gets a request with a type and with metadata, on which it does not crash.
      obtain ⟨r, rfl, htype, hmeta⟩ := hs.mirrors hpc
      obtain ⟨result, hok⟩ := v.mirror.mirror_ok proc tree htype hmeta
      rw [hok] at hstep
      exact hi.onHost (fun _ => hs.step rfl) hstep
    · cases hstep

end Service

/-- A host does not panic, whatever bytes it receives and whatever the state of its mirror directory
is, as long as every message that it puts is complete, a handler does not get its last message
before a request or a `NACK`, there is nothing at the path of an `RMDIR`, and no handler returns nil
while `listen` has bytes that it could not decode and has not tested `err`. -/
theorem no_crash (v : Service) (name : PeerName) (peers : List PeerName) (clock : UInt64)
    (es : List ServiceEvent) (s : ServiceState)
    (hrun : run (restrict v.step v.calm) { host := Host.start name peers clock } es = some s) :
    s.host.panicked = none := by
  have hs : ServiceInv s :=
    run_invariant (fun _ _ _ hstep hi => ServiceInv.step hi hstep) hrun
      ⟨.init name peers clock, nofun⟩
  exact hs.host.running

/-- The request of `b` to remove the directory `a`. -/
def rmdirMessage : Message := newRequestMessage "t" "b" rmdirRequest

/-- The bytes of the message. -/
def rmdirWire : List UInt8 :=
  [0x0a, 1, 0x74, 0x12, 1, 0x62, 0x1a, 7, 0x08, 4, 0x12, 3, 0x0a, 1, 0x61]

/-- The host of the examples. -/
def someService : Service :=
  { codec := tableCodec [(rmdirWire, rmdirMessage)]
    mirror := someMirror
    logsInfo := true
    logsError := true }

/-- The host `a` of the examples, before it has received anything. -/
def hostA : ServiceState := { host := Host.start "a" ["b"] 0 }

/-- The host `a` receives the request and consults its mirror. -/
def rmdirRun (answers : Answers) : List ServiceEvent :=
  [.receive rmdirWire, .test, .notify, .consult 0 answers]

/-- The request of `b` to unlink the file `a`. -/
def unlinkMessage : Message :=
  newRequestMessage "u" "b" { type := .unlink, metadata := some { relativePath := "a" } }

/-- `a` votes for the request and mirrors it. Then bytes come in that are no message, and the
handler of the request returns nil before `listen` has tested `err`. -/
def clearedRun : List ServiceEvent :=
  [.receive [1], .test, .notify, .consult 0 ⟨.ok 0o644, .error ⟨"", true⟩, none⟩, .run 0,
    .broadcast 0 (.sent [] ["b"]), .run 0, .mirror 0 someProcess someTree, .receive [], .assign 0,
    .test]

-- `listen` calls `Put` with nil.
example : (run { someService with codec := tableCodec [([1], unlinkMessage)] }.step hostA
    clearedRun).any (fun s => s.host.panicked = some .nilDereference) = true := by decide

/-- There is no such directory. The host votes against the request, and goes on. -/
theorem no_crash_missing :
    ∃ s, run (restrict someService.step someService.calm) hostA (rmdirRun notFound) = some s ∧
      s.host.panicked = none := by
  have hobs : (run (restrict someService.step someService.calm) hostA
      (rmdirRun notFound)).isSome = true := by decide
  obtain ⟨s, hrun⟩ := Option.isSome_iff_exists.mp hobs
  exact ⟨s, hrun, no_crash someService "a" ["b"] 0 _ s hrun⟩

/-- The directory is there. `Mirror.Consult` returns nil as its response, and the host stops with a
nil pointer. -/
theorem crash_rmdir :
    ∃ s, run someService.step hostA (rmdirRun foundDir) = some s ∧
      s.host.panicked = some .nilDereference := by
  have hobs : (run someService.step hostA (rmdirRun foundDir)).any
      (fun s => s.host.panicked = some .nilDereference) = true := by decide
  simpa only [Option.any_eq_true, decide_eq_true_eq] using hobs

end P2p

end ReplicatedFs
