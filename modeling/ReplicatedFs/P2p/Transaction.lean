import Mathlib.Data.Prod.Lex
import Mathlib.Order.Lex
import ReplicatedFs.Protobuf.Message

/-!
# `ReplicatedFs.P2p.Transaction`: transactions and the conflict rule

`Transaction` is the struct of `p2p/transaction.go`, and `Transaction.put` is the switch of
`transactions.Put` on the kind of the message. The map itself, with its pointers, is part of
the host (`P2p/Host.lean`).

`detectAndResolveConflict` follows `p2p/conflicts_resolver.go`. Go ranges over the map in an
unspecified order, so the function takes the transactions as a list and the results hold for
every order:

* `detectAndResolveConflict_conflict`: a conflict is only reported when some transaction of
  the list `Beats` the message.
* `detectAndResolveConflict_none`: no conflict is only reported when none does.
* `detectAndResolveConflict_perm`: the answer does not depend on the order, as long as the
  requests carry their metadata.

`Beats` compares `priority`, the lexicographic order on (clock, initiator name). It is a linear
order, so between requests of different initiators exactly one wins.
-/

set_option autoImplicit false

namespace ReplicatedFs.P2p

open ReplicatedFs.Protobuf

/-- `transaction`: a replication request and the responses gathered for it. -/
structure Transaction where
  tid : TransactionID
  initiatorName : PeerName := ""
  request : Option Request := none
  responses : List Response := []
  deriving DecidableEq, Repr

/-- The part of `transactions.Put` that stores the message in its transaction. -/
def Transaction.put (t : Transaction) (msg : Message) : Transaction :=
  match msg.payload with
  | .request r => { t with request := some r, initiatorName := msg.peerName }
  | .response r => { t with responses := t.responses ++ [r] }
  | .unset => t

/-- `Put` never changes what a transaction is about, so the key under which it is stored stays
right. -/
@[simp] theorem Transaction.put_tid (t : Transaction) (msg : Message) :
    (t.put msg).tid = t.tid := by
  unfold Transaction.put
  split <;> rfl

/-- The responses are kept in the order in which they came, and none is dropped as a duplicate. -/
theorem Transaction.put_responses (t : Transaction) (msg : Message) :
    (t.put msg).responses = t.responses ++ msg.getResponse.toList := by
  unfold Transaction.put Message.getResponse
  split <;> simp_all

/-- The last request is kept, and an earlier one is overwritten. -/
theorem Transaction.put_request (t : Transaction) (msg : Message) :
    (t.put msg).request = msg.getRequest.or t.request := by
  unfold Transaction.put Message.getRequest
  split <;> simp_all

/-- The initiator is the sender of the last request. A response leaves it as it is. -/
theorem Transaction.put_initiatorName (t : Transaction) (msg : Message) :
    (t.put msg).initiatorName =
      if msg.getRequest.isSome then msg.peerName else t.initiatorName := by
  unfold Transaction.put Message.getRequest
  split <;> simp_all

/-- The rank of a request in conflict resolution: its clock first, its initiator second. -/
def priority (clock : UInt64) (name : PeerName) : Nat ×ₗ PeerName := toLex (clock.toNat, name)

/-- The order of ranks is the comparison the code makes: first by the clock, and between equal
clocks by the name. -/
theorem priority_lt_iff (c c' : UInt64) (n n' : PeerName) :
    priority c n < priority c' n' ↔ c < c' ∨ c = c' ∧ n < n' := by
  simp [priority, Prod.Lex.lt_iff, UInt64.lt_iff_toNat_lt, UInt64.toNat_inj]

/-- `SamePaths r r'`: both requests carry metadata, with the same `RelativePath` and the same
`NewRelativePath`. -/
def SamePaths (r r' : Request) : Prop :=
  ∃ m m', r.metadata = some m ∧ r'.metadata = some m' ∧
    m.relativePath = m'.relativePath ∧ m.newRelativePath = m'.newRelativePath

/-- The transaction `t` wins the conflict against the request `req` of `name`: it has a
request of another initiator on the same paths, with a greater rank. -/
def Beats (t : Transaction) (name : PeerName) (req : Request) : Prop :=
  ∃ r, t.request = some r ∧ t.initiatorName ≠ name ∧ SamePaths r req ∧
    priority req.clock name < priority r.clock t.initiatorName

/-- The loop of `DetectAndResolveConflict` over the existing transactions. `true` stands for
`ErrTransactionConflict`. -/
def resolve (name : PeerName) (req : Request) : List Transaction → Except Panic Bool
  | [] => .ok false
  | t :: ts =>
    match t.request with
    -- The transaction was initialized through a response.
    | none => resolve name req ts
    | some r =>
      if t.initiatorName = name then resolve name req ts
      else match r.metadata, req.metadata with
        | some m, some m' =>
          if m.relativePath = m'.relativePath ∧ m.newRelativePath = m'.newRelativePath then
            if req.clock < r.clock then .ok true
            else if req.clock = r.clock ∧ name < t.initiatorName then .ok true
            else resolve name req ts
          else resolve name req ts
        | _, _ => .error .nilDereference

/-- `DetectAndResolveConflict`. -/
def detectAndResolveConflict (ts : List Transaction) (msg : Message) : Except Panic Bool :=
  match msg.getRequest with
  | none => .error .logPanic
  | some req => resolve msg.peerName req ts

/-- One turn of the loop: it panics, it stops at a transaction that wins, or it goes on past one
that does not. What holds of the whole loop follows from this by induction on the list. The loop
ranges over a map in the source, so no result may depend on the order. -/
theorem resolve_cons (name : PeerName) (req : Request) (t : Transaction)
    (ts : List Transaction) :
    resolve name req (t :: ts) = .error .nilDereference ∨
    resolve name req (t :: ts) = .ok true ∧ Beats t name req ∨
    resolve name req (t :: ts) = resolve name req ts ∧ ¬ Beats t name req := by
  cases hr : t.request with
  | none => simp [resolve, Beats, hr]
  | some r =>
    by_cases hn : t.initiatorName = name
    · simp [resolve, Beats, hr, hn]
    · cases hm : r.metadata with
      | none => simp [resolve, hr, hn, hm]
      | some m =>
        cases hm' : req.metadata with
        | none => simp [resolve, hr, hn, hm, hm']
        | some m' =>
          by_cases hp : m.relativePath = m'.relativePath ∧
              m.newRelativePath = m'.newRelativePath
          · -- The paths agree, so the rank decides.
            have hbeats : Beats t name req ↔
                priority req.clock name < priority r.clock t.initiatorName := by
              simp [Beats, SamePaths, hr, hn, hm, hm', hp]
            rw [hbeats, priority_lt_iff]
            simp only [resolve, hr, hn, hm, hm', hp, if_true, if_false, and_self]
            split
            · simp_all
            · split <;> simp_all
          · have hbeats : ¬ Beats t name req := by
              simp [Beats, SamePaths, hr, hm, hm', hp]
            simp [resolve, hr, hn, hm, hm', hp, hbeats]

/-- The loop answers `true` only at a transaction that wins. It stops there, without a look at the
others. -/
theorem resolve_true {name : PeerName} {req : Request} {ts : List Transaction}
    (h : resolve name req ts = .ok true) : ∃ t ∈ ts, Beats t name req := by
  induction ts with
  | nil => simp [resolve] at h
  | cons t ts ih =>
    rcases resolve_cons name req t ts with he | ⟨-, hb⟩ | ⟨he, -⟩
    · simp [he] at h
    · exact ⟨t, by simp, hb⟩
    · obtain ⟨t', ht', hb⟩ := ih (he ▸ h)
      exact ⟨t', by simp [ht'], hb⟩

/-- The loop answers `false` only when no transaction wins. It has looked at all of them then. -/
theorem resolve_false {name : PeerName} {req : Request} {ts : List Transaction}
    (h : resolve name req ts = .ok false) : ∀ t ∈ ts, ¬ Beats t name req := by
  induction ts with
  | nil => simp
  | cons t ts ih =>
    rcases resolve_cons name req t ts with he | ⟨he, -⟩ | ⟨he, hb⟩
    · simp [he] at h
    · simp [he] at h
    · intro t' ht'
      rcases List.mem_cons.mp ht' with rfl | ht'
      · exact hb
      · exact ih (he ▸ h) t' ht'

/-- The loop does not panic when every request carries its metadata. -/
theorem resolve_ok {name : PeerName} {req : Request} {ts : List Transaction}
    (hreq : req.metadata.isSome)
    (hts : ∀ t ∈ ts, ∀ r, t.request = some r → r.metadata.isSome) :
    ∃ b, resolve name req ts = .ok b := by
  induction ts with
  | nil => exact ⟨false, rfl⟩
  | cons t ts ih =>
    obtain ⟨b, hb⟩ := ih fun t' ht' => hts t' (by simp [ht'])
    rcases resolve_cons name req t ts with he | ⟨he, -⟩ | ⟨he, -⟩
    · -- Both metadata are present, so this turn does not panic.
      exfalso
      obtain ⟨m', hm'⟩ := Option.isSome_iff_exists.mp hreq
      cases hr : t.request with
      | none => simp [resolve, hr, hb] at he
      | some r =>
        obtain ⟨m, hm⟩ := Option.isSome_iff_exists.mp (hts t (by simp) r hr)
        simp only [resolve, hr, hm, hm', hb] at he
        split at he
        · cases he
        · split at he
          · split at he
            · cases he
            · split at he <;> cases he
          · cases he
    · exact ⟨true, he⟩
    · exact ⟨b, he.trans hb⟩

/-- A reported conflict names a transaction of another initiator on the same paths with a
greater rank. -/
theorem detectAndResolveConflict_conflict {ts : List Transaction} {msg : Message}
    {req : Request} (hreq : msg.getRequest = some req)
    (h : detectAndResolveConflict ts msg = .ok true) :
    ∃ t ∈ ts, Beats t msg.peerName req := by
  simp only [detectAndResolveConflict, hreq] at h
  exact resolve_true h

/-- When no conflict is reported, no transaction has a greater rank. -/
theorem detectAndResolveConflict_none {ts : List Transaction} {msg : Message} {req : Request}
    (hreq : msg.getRequest = some req) (h : detectAndResolveConflict ts msg = .ok false) :
    ∀ t ∈ ts, ¬ Beats t msg.peerName req := by
  simp only [detectAndResolveConflict, hreq] at h
  exact resolve_false h

/-- The check does not panic when every request carries its metadata. -/
theorem detectAndResolveConflict_ok {ts : List Transaction} {msg : Message} {req : Request}
    (hreq : msg.getRequest = some req) (hmeta : req.metadata.isSome)
    (hts : ∀ t ∈ ts, ∀ r, t.request = some r → r.metadata.isSome) :
    ∃ b, detectAndResolveConflict ts msg = .ok b := by
  simp only [detectAndResolveConflict, hreq]
  exact resolve_ok hmeta hts

/-- The iteration order of the map does not matter for the answer. It does for a map with requests
without metadata: whether the check panics then depends on what it meets first. -/
theorem detectAndResolveConflict_perm {ts ts' : List Transaction} {msg : Message}
    {req : Request} (hperm : ts.Perm ts') (hreq : msg.getRequest = some req)
    (hmeta : req.metadata.isSome)
    (hts : ∀ t ∈ ts, ∀ r, t.request = some r → r.metadata.isSome) :
    detectAndResolveConflict ts msg = detectAndResolveConflict ts' msg := by
  obtain ⟨b, hb⟩ := detectAndResolveConflict_ok hreq hmeta hts
  obtain ⟨b', hb'⟩ : ∃ b', detectAndResolveConflict ts' msg = .ok b' :=
    detectAndResolveConflict_ok hreq hmeta fun t ht => hts t (hperm.mem_iff.mpr ht)
  rw [hb, hb']
  -- Both give an answer. If they differed, one would have met a request of greater rank and the
  -- other not.
  cases b <;> cases b'
  · rfl
  · obtain ⟨t, ht, hbeats⟩ := detectAndResolveConflict_conflict hreq hb'
    exact absurd hbeats (detectAndResolveConflict_none hreq hb t (hperm.mem_iff.mpr ht))
  · obtain ⟨t, ht, hbeats⟩ := detectAndResolveConflict_conflict hreq hb
    exact absurd hbeats (detectAndResolveConflict_none hreq hb' t (hperm.mem_iff.mp ht))
  · rfl

end ReplicatedFs.P2p
