import ReplicatedFs.Rfs.Root

/-!
# `ReplicatedFs.Rfs.Request`: what an operation asks for

* `Mount.call_eq_onward`: a call with a request hands it to `replicate`, and goes on only with its
  permission.
* `Mount.asks`: the part of the requests that reaches the `Replicator`, since `replicate` asks
  `Mirror.Consult` first.
* `Mount.request?_clock`: no operation sets the clock of its request.
-/

set_option autoImplicit false

namespace ReplicatedFs.Rfs

open Library.Posix Protobuf P2p

/-- The request that a call hands to `Replicator.Replicate`: `Mirror.Consult` has nothing against
it. -/
def Mount.asks (s : Mount) (m : Mirror) (proc : Process) (call : Call) : Option Request :=
  (s.request? call).filter fun req =>
    match m.consult proc s.disk.tree.1 req with
    | .ok resp => resp.map Response.type ≠ some .nack
    | .error _ => false

section Guarded
variable {s : Mount} {call : Call} {g : Guarded}

/-- The request of a guarded operation is the one that the operation builds. -/
theorem Mount.request?_of_guarded (h : s.guarded? call = some g) :
    s.request? call = some g.request := by
  rw [Mount.request?, h]
  rfl

/-- A guarded operation hands its request to `replicate`, and goes on only if this permits it. All
guarded operations have this form. -/
theorem Mount.call_of_guarded (m : Mirror) (proc : Process) (lb : Loopback)
    (h : s.guarded? call = some g) (answer : Option ReplicateError) :
    s.call m proc lb answer call =
      some (s.permitted m proc answer g.request (g.onward m proc lb s)) := by
  simp only [Mount.call, h]

/-- `Write` on an open handle is guarded. On a handle that is not open there is nothing to write
to. -/
theorem Mount.guarded?_write {fh : Nat} {f : Handle} (hf : s.handle? fh = some f)
    (data : List UInt8) (offset : Int64) :
    s.guarded? (.file fh (.write data offset)) = some (.write f data offset) := by
  simp only [Mount.guarded?, hf, Option.map_some]

/-- `CopyFileRange` between open handles is guarded, and it is the only operation with two of
them. -/
theorem Mount.guarded?_copyFileRange {fhIn fhOut : Option Nat} {f f' : Handle}
    (hin : fhIn.bind s.handle? = some f) (hout : fhOut.bind s.handle? = some f') (path : String)
    (offIn offOut len flags : UInt64) :
    s.guarded? (.node path (.copyFileRange fhIn offIn fhOut offOut len flags)) =
      some (.copyFileRange f f' offIn offOut len flags) := by
  simp only [Mount.guarded?, hin, hout]

end Guarded

/-- A call with a request hands it to `replicate`, and goes on with `Mount.onward`. -/
theorem Mount.call_eq_onward (m : Mirror) (proc : Process) (lb : Loopback) (s : Mount)
    {call : Call} {req : Request} (h : s.request? call = some req) :
    ∃ onward, s.onward m proc lb call = some onward ∧
      ∀ answer, s.call m proc lb answer call = some (s.permitted m proc answer req onward) := by
  obtain ⟨g, hg, rfl⟩ := Option.map_eq_some_iff.mp h
  exact ⟨g.onward m proc lb s, by simp [Mount.onward, hg], Mount.call_of_guarded m proc lb hg⟩

/-- A call with a request hands it to `replicate`, and goes on only with its permission. What it
does then does not depend on the answer. -/
theorem Mount.call_eq_permitted (m : Mirror) (proc : Process) (lb : Loopback) (s : Mount)
    {call : Call} {req : Request} (h : s.request? call = some req) :
    ∃ onward, ∀ answer, s.call m proc lb answer call =
      some (s.permitted m proc answer req onward) := by
  obtain ⟨onward, -, hcall⟩ := s.call_eq_onward m proc lb h
  exact ⟨onward, hcall⟩

/-- A call without a request does not look at the answer, as nobody is asked. -/
theorem Mount.call_of_request?_none {m : Mirror} {proc : Process} {lb : Loopback} {s : Mount}
    {call : Call} (h : s.request? call = none) (answer : Option ReplicateError) :
    s.call m proc lb answer call = s.alone m proc lb call := by
  simp [Mount.call, Option.map_eq_none_iff.mp h]

/-- Every guarded operation builds a request with metadata, and leaves its clock at zero. The
conflict check of `p2p` needs the metadata, and it compares the clocks, so with this all requests of
`rfs` are ordered by the names of their hosts. -/
theorem Mount.guarded?_request {s : Mount} {call : Call} {g : Guarded}
    (h : s.guarded? call = some g) : g.request.clock = 0 ∧ g.request.metadata.isSome = true := by
  unfold Mount.guarded? at h
  split at h
  -- `CopyFileRange` and `Write` read their handles first.
  case h_9 =>
    split at h
    · cases h
      exact ⟨rfl, rfl⟩
    · cases h
  case h_10 =>
    obtain ⟨f, -, rfl⟩ := Option.map_eq_some_iff.mp h
    exact ⟨rfl, rfl⟩
  case h_11 => cases h
  all_goals
    cases h
    exact ⟨rfl, rfl⟩

/-- No operation sets the clock of its request, so all requests of `rfs` have the clock 0. -/
theorem Mount.request?_clock {s : Mount} {call : Call} {req : Request}
    (h : s.request? call = some req) : req.clock = 0 := by
  obtain ⟨g, hg, rfl⟩ := Option.map_eq_some_iff.mp h
  exact (Mount.guarded?_request hg).1

/-- Every request has metadata, so the conflict check of `p2p` does not crash on it. -/
theorem Mount.metadata_of_request? {s : Mount} {call : Call} {req : Request}
    (h : s.request? call = some req) : req.metadata.isSome = true := by
  obtain ⟨g, hg, rfl⟩ := Option.map_eq_some_iff.mp h
  exact (Mount.guarded?_request hg).2

/-- What reaches the `Replicator` is the request of the call. Some requests stop at the own mirror
before that. -/
theorem Mount.request?_of_asks {s : Mount} {m : Mirror} {proc : Process} {call : Call}
    {req : Request} (h : s.asks m proc call = some req) : s.request? call = some req :=
  (Option.filter_eq_some_iff.mp h).1

/-- When `Replicate` permits the request, the call stops with the error of the local
`Mirror.Consult`, or the request reaches the `Replicator` and the call goes on. -/
theorem Mount.permitted_cases {s : Mount} {m : Mirror} {proc : Process} {call : Call}
    {req : Request} {onward result : Mount × Option Errno} (hreq : s.request? call = some req)
    (h : s.permitted m proc none req onward = .ok result) :
    (s.asks m proc call = none ∧ result.1 = s ∧ result.2.isSome) ∨
      s.asks m proc call = some req ∧ result = onward := by
  unfold Mount.permitted replicate at h
  unfold Mount.asks
  rw [hreq, Option.filter_some]
  cases hconsult : m.consult proc s.disk.tree.1 req with
  | error p => simp [hconsult] at h
  | ok resp =>
    by_cases hnack : resp.map Response.type = some .nack
    · left
      simp only [hconsult, hnack, if_true] at h
      -- A refusal without an error would be a nil dereference.
      cases herr : resp.bind Response.error with
      | none => simp [herr] at h
      | some e =>
        simp only [herr, Except.ok.injEq] at h
        simp [← h, hnack]
    · right
      simp only [hconsult, hnack, if_false, Option.map_none, Except.ok.injEq] at h
      simp [h, hnack]

end ReplicatedFs.Rfs
