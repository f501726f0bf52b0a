import ReplicatedFs.Protobuf.Message

/-!
# `ReplicatedFs.Protobuf.Codec`: messages as bytes

The part of `protobuf/message.go` that deals with bytes. `proto.Marshal`, `proto.Unmarshal` and the
gzip functions of `protobuf/gzip.go` are the fields of a `Codec`. `Codec.Lawful` is what their
documentation promises.

`NewRequestMessage` compresses the content in the request that the caller gave it, so
`Codec.newRequestMessage` also returns that request.
-/

set_option autoImplicit false

namespace ReplicatedFs.Protobuf

/-- What the libraries do with bytes, with the texts of their errors. -/
structure Codec where
  marshal : Message → Except String (List UInt8)
  unmarshal : List UInt8 → Except String Message
  compress : List UInt8 → Except String (List UInt8)
  decompress : List UInt8 → Except String (List UInt8)

/-- `proto.Unmarshal` and `decompress` undo `proto.Marshal` and `compress`. -/
structure Codec.Lawful (c : Codec) : Prop where
  unmarshal : ∀ msg data, c.marshal msg = .ok data → c.unmarshal data = .ok msg
  decompress : ∀ data z, c.compress data = .ok z → c.decompress z = .ok data

variable (c : Codec)

/-- `NewRequestMessage`, and the request of the caller after it. `compress` returns nil with its
error, and this is stored as well. -/
def Codec.newRequestMessage (tid : TransactionID) (peerName : PeerName) (request : Request) :
    Except String Message × Request :=
  match request.content with
  | none => (.ok (Protobuf.newRequestMessage tid peerName request), request)
  | some data =>
    match c.compress data with
    | .error err =>
      (.error ("failed to compress Request.Content: " ++ err), { request with content := none })
    | .ok z =>
      (.ok (Protobuf.newRequestMessage tid peerName { request with content := some z }),
        { request with content := some z })

/-- `ReadMessage`. -/
def Codec.readMessage (raw : List UInt8) : Except String Message :=
  match c.unmarshal raw with
  | .error err => .error ("failed to unmarshal Message: " ++ err)
  | .ok msg =>
    match msg.payload with
    | .request request =>
      match request.content with
      | none => .ok msg
      | some z =>
        -- The content is compressed on the wire, whatever the type of the request is.
        match c.decompress z with
        | .error err => .error ("failed to decompress Request.Content: " ++ err)
        | .ok data =>
          .ok { msg with payload := .request { request with content := some data } }
    | _ => .ok msg

/-- A codec that knows the listed messages, and marks what it compresses with a byte. -/
def tableCodec (table : List (List UInt8 × Message)) : Codec where
  marshal msg :=
    match table.find? (·.2 = msg) with
    | some entry => .ok entry.1
    | none => .error "string field contains invalid UTF-8"
  unmarshal data :=
    match table.find? (·.1 = data) with
    | some entry => .ok entry.2
    | none => .error "cannot parse invalid wire-format data"
  compress data := .ok (0x1f :: data)
  decompress
    | 0x1f :: data => .ok data
    | _ => .error "gzip: invalid header"

/-- An entry is found by its bytes, when no two entries have the same. -/
private theorem find?_fst {table : List (List UInt8 × Message)}
    (h : table.Pairwise fun x y => x.1 ≠ y.1) {entry : List UInt8 × Message}
    (hmem : entry ∈ table) : table.find? (·.1 = entry.1) = some entry := by
  induction table with
  | nil => cases hmem
  | cons x table ih =>
    obtain ⟨hx, hrest⟩ := List.pairwise_cons.mp h
    rcases List.mem_cons.mp hmem with rfl | hmem
    · simp
    · simp [hx entry hmem, ih hrest hmem]

/-- Such a codec undoes what it does, when no two messages have the same bytes. It is used for
concrete runs, where the bytes of a message do not matter. The compression is undone by the first
byte, which it puts before the content. -/
theorem tableCodec_lawful {table : List (List UInt8 × Message)}
    (h : table.Pairwise fun x y => x.1 ≠ y.1) : (tableCodec table).Lawful where
  unmarshal msg data hdata := by
    simp only [tableCodec] at hdata ⊢
    cases hfind : table.find? (·.2 = msg) with
    | none => simp [hfind] at hdata
    | some entry =>
      obtain rfl : entry.1 = data := by simpa [hfind] using hdata
      -- The first entry with the message, and the first one with its bytes, are the same.
      have hmsg : entry.2 = msg := by simpa using List.find?_some hfind
      rw [find?_fst h (List.mem_of_find?_eq_some hfind)]
      exact congrArg Except.ok hmsg
  decompress data z hz := by
    cases hz
    rfl

end ReplicatedFs.Protobuf
