import Herald.Live.Manager
import Herald.Proofs.Event.RoundTrip
import Herald.Proofs.Json.Controls
import Herald.Proofs.Live.Frames

/-!
Messages on event streams. The data of a message is one line, as JSON escapes every character that
could end it, so that a stream is read as the messages that were put on it, whatever texts these carry.
-/

namespace Herald.Live

open Json (Clean Reader Reads Value)

namespace Message

/-- The JSON value that a message carries. -/
def document : Message → Value
  | .connected connection => .record [("connection_id", .text connection)]
  | .heartbeat => .text "ping"
  | .notification event => .record event.document
  | .sessionExpired => .record [("reason", .text expiryReason)]

theorem document_ne_null (message : Message) : message.document ≠ .null := by
  cases message <;> nofun

theorem data_eq_print (message : Message) : message.data = message.document.print := by
  cases message with
  | notification event => exact event.encode_eq_print
  | _ => rfl

theorem reads_data (message : Message) :
    Reads (Value.read Json.nestingLimit) message.data message.document := by
  rw [data_eq_print]
  cases message with
  | heartbeat => exact Json.reads_text _ _
  | notification event => exact Json.reads_record fun _ hmem => Event.reads_document _ event hmem
  | connected connection =>
      apply Json.reads_record
      intro member hmem
      rw [List.mem_singleton.mp hmem]
      exact Json.reads_text _ _
  | sessionExpired =>
      apply Json.reads_record
      intro member hmem
      rw [List.mem_singleton.mp hmem]
      exact Json.reads_text _ _

theorem clean_data (message : Message) : Clean message.data := by
  cases message with
  | heartbeat => exact Json.Printer.clean_text _
  | notification event => exact event.clean_encode
  | connected connection =>
      apply Json.Printer.clean_record
      intro member hmem
      rw [List.mem_singleton.mp hmem]
      exact Json.Printer.clean_text _
  | sessionExpired =>
      apply Json.Printer.clean_record
      intro member hmem
      rw [List.mem_singleton.mp hmem]
      exact Json.Printer.clean_text _

end Message

namespace Frame

theorem isWritable_ofMessage (message : Message) : (ofMessage message).isWritable = true := by
  refine isWritable_iff.mpr ⟨?_, ?_⟩
  · cases message with
    | connected connection => exact (by decide : IsLine "connected".toList)
    | heartbeat => exact (by decide : IsLine "heartbeat".toList)
    | notification event => exact (by decide : IsLine "notification".toList)
    | sessionExpired => exact (by decide : IsLine "session-expired".toList)
  · rintro character hmem rfl
    exact absurd (message.clean_data '\r' hmem) (by decide)

theorem write?_ofMessage (message : Message) :
    (ofMessage message).write? = some (ofMessage message).text :=
  if_pos (isWritable_ofMessage message)

theorem readAll_streamText (messages : List Message) :
    readAll (Manager.streamText messages) = messages.map ofMessage := by
  have hwritable : ∀ frame ∈ messages.map ofMessage, frame.isWritable = true := by
    intro frame hframe
    obtain ⟨message, _, rfl⟩ := List.mem_map.mp hframe
    exact isWritable_ofMessage message
  have hread := readAll_join hwritable
  rwa [List.map_map] at hread

end Frame

theorem Message.decode_data (event : Event) :
    Event.decode (Message.notification event).data = .ok event := by
  have hread : Reader.whole (Event.read Json.nestingLimit)
      (Text.octets (Message.notification event).data) = .done event [] :=
    Event.whole_of_reads (Event.reads_event 126 event)
  rw [Event.decode, hread]

/--
Every message can be written as a frame, with a JSON value other than null as its data; the text of a
stream of messages is read as one frame for each of them in order, with its name and its data; and the
data of a notification is read as its event.
-/
theorem stream_frames (messages : List Message) :
    messages.mapM (fun message => (Frame.ofMessage message).write?) =
        some (messages.map fun message => (Frame.ofMessage message).text) ∧
      Frame.readAll (Manager.streamText messages) =
        messages.map (fun message => ⟨message.name, message.data⟩) ∧
      (∀ message : Message, ∃ document, document ≠ Value.null ∧
        Reader.whole (Value.read Json.nestingLimit) (Text.octets message.data) =
          .done document []) ∧
      ∀ event, Event.decode (Message.notification event).data = .ok event := by
  refine ⟨?_, Frame.readAll_streamText messages, ?_, Message.decode_data⟩
  · have hwrite : (fun message => (Frame.ofMessage message).write?) =
        fun message => pure (Frame.ofMessage message).text := funext Frame.write?_ofMessage
    rw [hwrite]
    exact List.mapM_pure
  · intro message
    exact ⟨message.document, message.document_ne_null, Event.whole_of_reads message.reads_data⟩

end Herald.Live
