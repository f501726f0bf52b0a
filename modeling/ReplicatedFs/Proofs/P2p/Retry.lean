import ReplicatedFs.P2p.Service

/-!
# `ReplicatedFs.Proofs.P2p.Retry`: the content of a request on the wire

`NewRequestMessage` writes the compressed content into the request of its caller. A call of
`Replicate` with a new request sends what the caller gave it. A second call with the same request
compresses once more, and `ReadMessage` undoes one of the two.

* `readMessage_replicateData`: what a call sends is decoded to the request that it was given.
* `retries_decode_iff`: it is the request of the first call exactly when the content is the same.
* `retry_decodes_compressed`: a second call with content.
-/

set_option autoImplicit false

namespace ReplicatedFs.P2p

open ReplicatedFs.Protobuf

/-- The content that a call of `NewRequestMessage` leaves in the request. -/
def contentLeft (c : Codec) (content : Option (List UInt8)) : Option (List UInt8) :=
  content.bind fun data => (c.compress data).toOption

/-- The call gets to its broadcast: the content can be compressed, there is no conflict, and the
message can be marshalled. -/
def Sends (c : Codec) (name : PeerName) (request : Request) (a : Attempt) : Prop :=
  ∃ message data, (c.newRequestMessage a.tid name request).1 = .ok message ∧
    detectAndResolveConflict a.table message = .ok false ∧ c.marshal message = .ok data

/-- The bytes are a request that is the given one. -/
def DecodesTo (c : Codec) (request : Request) (data : List UInt8) : Prop :=
  ∃ msg, c.readMessage data = .ok msg ∧ msg.getRequest = some request

section Call
variable {c : Codec} {name : PeerName} {request : Request} {a : Attempt}

/-- What `NewRequestMessage` does to the request: it replaces the content by the compressed one, in
the request of the caller. -/
theorem newRequestMessage_request :
    (c.newRequestMessage a.tid name request).2 =
      { request with content := contentLeft c request.content } := by
  obtain ⟨type, metadata, clock, content⟩ := request
  cases content with
  | none => rfl
  | some data => cases hz : c.compress data <;> simp [Codec.newRequestMessage, contentLeft, hz,
      Except.toOption]

/-- `ReadMessage` undoes `NewRequestMessage`. The content is compressed on the way out and
decompressed on the way in. -/
theorem readMessage_newRequestMessage (hc : c.Lawful) {message : Message} {data : List UInt8}
    (hnew : (c.newRequestMessage a.tid name request).1 = .ok message)
    (hdata : c.marshal message = .ok data) :
    c.readMessage data = .ok (newRequestMessage a.tid name request) := by
  have hread := hc.unmarshal message data hdata
  obtain ⟨type, metadata, clock, content⟩ := request
  cases content with
  | none =>
    cases hnew
    simp [Codec.readMessage, hread, newRequestMessage]
  -- Only a request with content is touched by the compression.
  | some bytes =>
    cases hz : c.compress bytes with
    | error err => simp [Codec.newRequestMessage, hz] at hnew
    | ok z =>
      simp only [Codec.newRequestMessage, hz, Except.ok.injEq] at hnew
      subst hnew
      simp [Codec.readMessage, hread, newRequestMessage, hc.decompress bytes z hz]

/-- The request after a call of `Replicate`. A second call with it starts from this content. -/
theorem replicateData_request :
    (replicateData c name request a).2 =
      { request with content := contentLeft c request.content } := by
  have hrequest : (c.newRequestMessage a.tid name request).2 =
      { request with content := contentLeft c request.content } := newRequestMessage_request
  rw [← hrequest]
  unfold replicateData
  rcases c.newRequestMessage a.tid name request with ⟨err | message, request'⟩
  · rfl
  · dsimp only
    repeat' split
    all_goals rfl

/-- What a call of `Replicate` sends: the message, once it is made, passes the conflict check and
can be marshalled. -/
theorem replicateData_eq_some {data : List UInt8} :
    (replicateData c name request a).1 = some data ↔
      ∃ message, (c.newRequestMessage a.tid name request).1 = .ok message ∧
        detectAndResolveConflict a.table message = .ok false ∧ c.marshal message = .ok data := by
  unfold replicateData
  rcases c.newRequestMessage a.tid name request with ⟨err | message, request'⟩
  · simp
  · dsimp only
    -- The check is made on the message, after the content was replaced by its compressed form.
    cases hconflict : detectAndResolveConflict a.table message with
    | error p => simp [hconflict]
    | ok found =>
      cases found with
      | true => simp [hconflict]
      | false => cases hmarshal : c.marshal message <;> simp [hconflict, hmarshal]

/-- What a call of `Replicate` sends is decoded to the message that the model of the host
broadcasts. -/
theorem readMessage_replicateData (hc : c.Lawful) {data : List UInt8}
    (hdata : (replicateData c name request a).1 = some data) :
    c.readMessage data = .ok (newRequestMessage a.tid name request) := by
  obtain ⟨message, hnew, -, hmarshal⟩ := replicateData_eq_some.mp hdata
  exact readMessage_newRequestMessage hc hnew hmarshal

end Call

section Calls
variable {c : Codec} {name : PeerName}

/-- The call number `i` is made with the content that the calls before it have left. -/
theorem getElem?_replicateAll (request : Request) (attempts : List Attempt) (i : Nat) :
    (replicateAll c name request attempts)[i]? =
      attempts[i]?.map fun a =>
        (replicateData c name
          { request with content := (contentLeft c)^[i] request.content } a).1 := by
  induction attempts generalizing request i with
  | nil => rfl
  | cons a attempts ih =>
    cases i with
    | zero => rfl
    | succ i =>
      simp only [replicateAll, List.getElem?_cons_succ, ih, replicateData_request,
        Function.iterate_succ_apply]

end Calls

/-- For a codec that undoes what it does, and any calls of `Replicate` with one request: everything
that is sent is decoded to the request that the first call was given, exactly when each call that
gets to its broadcast finds the content of the first one. -/
theorem retries_decode_iff (c : Codec) (hc : c.Lawful) (name : PeerName) (request : Request)
    (attempts : List Attempt) :
    (∀ data, some data ∈ replicateAll c name request attempts → DecodesTo c request data) ↔
      ∀ (i : Nat) (a : Attempt), attempts[i]? = some a →
        Sends c name { request with content := (contentLeft c)^[i] request.content } a →
          (contentLeft c)^[i] request.content = request.content := by
  constructor
  · rintro hall i a ha ⟨message, data, hnew, hconflict, hmarshal⟩
    have hdata := replicateData_eq_some.mpr ⟨message, hnew, hconflict, hmarshal⟩
    have hmem : some data ∈ replicateAll c name request attempts := by
      refine List.mem_iff_getElem?.mpr ⟨i, ?_⟩
      rw [getElem?_replicateAll, ha, Option.map_some, hdata]
    obtain ⟨msg, hmsg, hget⟩ := hall data hmem
    -- What is read back is the request as the call found it.
    obtain rfl := Except.ok.inj ((readMessage_replicateData hc hdata).symm.trans hmsg)
    exact congrArg Request.content (Option.some.inj hget)
  · intro hsame data hmem
    obtain ⟨i, hi⟩ := List.mem_iff_getElem?.mp hmem
    rw [getElem?_replicateAll] at hi
    obtain ⟨a, ha, hdata⟩ := Option.map_eq_some_iff.mp hi
    have hread := readMessage_replicateData hc hdata
    obtain ⟨message, hnew, hconflict, hmarshal⟩ := replicateData_eq_some.mp hdata
    rw [hsame i a ha ⟨message, data, hnew, hconflict, hmarshal⟩] at hread
    exact ⟨_, hread, rfl⟩

/-- A write of one byte. -/
def writeByte (content : List UInt8) : Request :=
  { type := .write, metadata := some { relativePath := "f" }, content := some content }

/-- The messages of two calls. -/
def retryCodec : Codec :=
  tableCodec
    [([1], newRequestMessage "t" "a" (writeByte [0x1f, 7])),
      ([2], newRequestMessage "u" "a" (writeByte [0x1f, 0x1f, 7]))]

/-- The codec of the example decodes what it encodes, so the example does not rest on a broken
codec. -/
theorem retryCodec_lawful : retryCodec.Lawful := tableCodec_lawful (by decide)

/-- One call. The data that it sends is decoded to the request that was meant. -/
theorem first_call_decodes :
    replicateAll retryCodec "a" (writeByte [7]) [⟨"t", []⟩] = [some [1]] ∧
      DecodesTo retryCodec (writeByte [7]) [1] := by
  refine ⟨by decide, ?_⟩
  refine (retries_decode_iff retryCodec retryCodec_lawful "a" (writeByte [7])
    [⟨"t", []⟩]).mpr ?_ [1]
    (by decide)
  intro i a ha _
  cases i with
  | zero => rfl
  | succ i => simp at ha

/-- The content of the second call is decoded to the compressed content. The first call has left it
in the request, and the second one compresses it once more. -/
theorem retry_decodes_compressed :
    replicateAll retryCodec "a" (writeByte [7]) [⟨"t", []⟩, ⟨"u", []⟩] = [some [1], some [2]] ∧
      retryCodec.Lawful ∧
      retryCodec.readMessage [2] = .ok (newRequestMessage "u" "a" (writeByte [0x1f, 7])) ∧
      ¬ DecodesTo retryCodec (writeByte [7]) [2] := by
  have hread : retryCodec.readMessage [2] =
      .ok (newRequestMessage "u" "a" (writeByte [0x1f, 7])) := by
    rfl
  refine ⟨by decide, retryCodec_lawful, hread, ?_⟩
  rintro ⟨msg, hmsg, hget⟩
  obtain rfl := Except.ok.inj (hread.symm.trans hmsg)
  revert hget
  decide

end ReplicatedFs.P2p
