import ReplicatedFs.Proofs.Connection.Frames
import ReplicatedFs.Proofs.P2p.Retry

/-!
# `ReplicatedFs.Proofs.P2p.OnWire`: the messages of a host as bytes

In the models of a host and of the network a message in flight is a `Message`. The code has its
bytes: `NewRequestMessage` compresses the content of a request, `broadcast` marshals the message,
`send` puts its length before it, and at the other end `recv` and `ReadMessage` undo this.

`proto.Marshal`, `proto.Unmarshal` and the gzip functions are parameters, a `Codec` that undoes what
it does. Under this assumption the two views agree (`messages_on_wire`): what arrives is the message
of the model, as long as there is a buffer for it.
-/

set_option autoImplicit false

namespace ReplicatedFs.P2p

open Protobuf
open Connection (Err SendOutcome recv maxAlloc frame recv_frame_iff recv_wire)

/-- `ReadMessage` undoes everything between the message that a host means and the bytes that it
hands to `Conn.Broadcast`. Only a request is changed on the way, in its content. -/
theorem readMessage_broadcastData {c : Codec} (hc : c.Lawful) {msg : Message} {data : List UInt8}
    (hdata : broadcastData c msg = .ok data) : c.readMessage data = .ok msg := by
  unfold broadcastData at hdata
  split at hdata
  · cases hdata
  rename_i message hout
  have hmarshal : c.marshal message = .ok data := by
    split at hdata
    · cases hdata
    · obtain rfl := Except.ok.inj hdata
      assumption
  obtain ⟨tid, peerName, payload⟩ := msg
  cases payload with
  | request request =>
    exact readMessage_newRequestMessage (a := ⟨tid, []⟩) hc hout hmarshal
  | response response | unset =>
    -- The message itself was marshalled, and it has no content to decompress.
    cases hout
    rw [Codec.readMessage, hc.unmarshal _ data hmarshal]

/-- Take any message of a host and any codec that undoes what it does, and let the bytes of the
message fit into a buffer. The stream of a complete `send` gives the other host these bytes, and
`ReadMessage` makes the same message of them. A `send` that stops early gives the other host the
same message or an error, never a part of it or another one. -/
theorem messages_on_wire (codec : Codec) (hc : codec.Lawful) {msg : Message} {data : List UInt8}
    (hdata : broadcastData codec msg = .ok data) (hsize : data.length ≤ maxAlloc) (ending : Err) :
    (recv (.accepted (SendOutcome.complete.wire data) ending none) = .data data ∧
      codec.readMessage data = .ok msg) ∧
    ∀ outcome : SendOutcome,
      (∃ err, recv (.accepted (outcome.wire data) ending none) = .failed err) ∨
      ∃ bytes, recv (.accepted (outcome.wire data) ending none) = .data bytes ∧
        codec.readMessage bytes = .ok msg := by
  have hread := readMessage_broadcastData hc hdata
  refine ⟨⟨(recv_frame_iff data ending).mpr hsize, hread⟩, ?_⟩
  intro outcome
  -- What is on the wire is a prefix of the frame. It is all of it, or `recv` fails.
  rcases recv_wire data ending hsize outcome with hall | hfailed
  · exact .inr ⟨data, hall, hread⟩
  · exact .inl hfailed

/-- A `WRITE` with one byte of content. -/
def writeMessage : Message :=
  newRequestMessage "t" "b"
    { type := .write, metadata := some { relativePath := "a" }, content := some [7] }

/-- A codec that knows the message, with the content that `compress` makes. -/
def writeCodec : Codec :=
  tableCodec [([1, 2],
    newRequestMessage "t" "b"
      { type := .write, metadata := some { relativePath := "a" }, content := some [0x1f, 7] })]

/-- The content is compressed on the way and decompressed at the other end. The message that is read
is the one that was sent. -/
theorem messages_on_wire_write :
    broadcastData writeCodec writeMessage = .ok [1, 2] ∧
      recv (.accepted (frame [1, 2]) .eof none) = .data [1, 2] ∧
      writeCodec.readMessage [1, 2] = .ok writeMessage := by
  have hdata : broadcastData writeCodec writeMessage = .ok [1, 2] := by decide
  have hc : writeCodec.Lawful := tableCodec_lawful (by simp)
  exact ⟨hdata, (messages_on_wire writeCodec hc hdata (by decide) .eof).1⟩

end ReplicatedFs.P2p
