import UlogCpp.Messages.Acceptance
import UlogCpp.Reader.Log

namespace UlogCpp

/-! A reader takes the messages that are accepted by their constructors. -/

namespace Delivery

theorem decodes_accepted {message object : Message} {bytes : Bytes}
    {state : State} (accepted : message.reconstruct bytes = .ok object)
    (sized : 3 ≤ bytes.length)
    (tagged : ULogMessageType.ofCode? (UlogCpp.msgType bytes) =
      some message.msgType)
    (typed : message.Typed) (stands : message.standsIn state = true) :
    Decodes state bytes := by
  rcases Message.standsIn_cases stands with ⟨rfl, defines⟩ | ⟨rfl, ends⟩ |
    ⟨rfl, data⟩
  · have decoded := decodeHeader_accepted accepted sized tagged typed defines
    refine (header_ordinary decoded fun same => ?_).2.2.mpr ⟨_, rfl⟩
    exact callback_ne_headerComplete object
      (Option.some.inj (Except.ok.inj same))
  · have decoded := decodeHeader_ends sized tagged ends
    exact (header_complete decoded).2.2.mpr
      ⟨_, decodeData_accepted accepted sized tagged typed
        (Message.isData_of_endsHeader ends)⟩
  · exact ⟨_, decodeData_accepted accepted sized tagged typed data⟩

end Delivery

namespace Reader

/-- The bytes are a message by their size, and a reader that meets it in a
section of the message hands it over and reports no corruption. -/
structure HandsOver (message : Message) (bytes : Bytes) : Prop where
  isMessage : IsMessage bytes
  parsed : ∀ {σ : Type} {handler : DataHandlerInterface σ} {reader : Reader σ},
    (∀ callback, handler.Accepts callback) →
    message.standsIn reader.delivery.state = true →
    ∃ reached calls,
      parseMessage handler bytes reader = (.ok (), reached) ∧
      reached.delivery.calls = reader.delivery.calls ++ calls ∧
      (∀ callback ∈ calls, callback.kind ≠ .error) ∧
      reached.needRecovery = reader.needRecovery

theorem handsOver_accepted {message object : Message} {frame : Frame}
    (accepted : message.reconstruct frame.toBytes = .ok object)
    (type : frame.msgType = message.msgType.code) (typed : message.Typed) :
    HandsOver message frame.toBytes where
  isMessage := frame.isMessage
  parsed := by
    intro σ handler reader accepts stands
    have sized := frame.isMessage.header_le
    have tagged : ULogMessageType.ofCode? (UlogCpp.msgType frame.toBytes) =
        some message.msgType := by
      rw [frame.msgType_toBytes, type, ULogMessageType.ofCode?_code]
    have returned := Delivery.deliver_accepted accepts
      (Delivery.decodes_accepted accepted sized tagged typed stands)
    have progress := @Delivery.deliver_progress _ handler frame.toBytes
      reader.delivery
    rcases ran : Delivery.deliver handler frame.toBytes reader.delivery with
      ⟨outcome, delivery⟩
    rw [ran] at returned progress
    cases returned
    exact ⟨_, _, parseMessage_delivered sized (frame_not_corrupt frame) ran,
      progress.calls_eq.resolve_right fun thrown => thrown.1 rfl,
      fun _ mem => (Delivery.callbacks_kind mem).1, rfl⟩

end Reader

namespace Message

/-- What a serializer hands over is accepted, by the constructor and by a
reader, exactly when the message is acceptable. -/
theorem accepts_emitted_iff {message : Message} {emitted : Bytes}
    (typed : message.Typed) (separable : message.Separable)
    (small : message.body.length < 2 ^ 31)
    (returned : message.serialize [] = (.ok (), emitted)) :
    (∃ object, message.reconstruct emitted = .ok object) ∧
        Reader.HandsOver message emitted ↔
      message.Acceptable := by
  have constructed := reconstruct_accepts_iff separable small returned
  constructor
  · rintro ⟨accepted, _⟩
    exact constructed.mp accepted
  · intro acceptable
    obtain ⟨object, accepted⟩ := constructed.mpr acceptable
    obtain ⟨rfl, sized, _⟩ := serialize_ok small returned
    exact ⟨⟨object, accepted⟩, @Reader.handsOver_accepted message object
      ⟨_, _, ULogMessageType.code_ne_zero message.msgType,
        message.body_ne_nil, sized⟩ accepted rfl typed⟩

theorem accepts_emitted_format :
    let message : Message := .messageFormat { name := [109], fields :=
      [{ type := ascii "uint64_t", name := ascii "timestamp" }] }
    (∃ object, message.reconstruct message.emitted = .ok object) ∧
        Reader.HandsOver message message.emitted ↔
      message.Acceptable :=
  accepts_emitted_iff trivial
    ⟨by decide, List.forall_mem_singleton.mpr (by decide +kernel)⟩
    (by decide +kernel) (Prod.ext (by decide +kernel) rfl)

/-- A text message without a text is written, and not accepted. -/
theorem emptyText_rejected :
    ¬ ∀ (message : Message) (emitted : Bytes), message.Typed →
      message.Separable → message.serialize [] = (.ok (), emitted) →
      (∃ object, message.reconstruct emitted = .ok object) ∧
        Reader.HandsOver message emitted := by
  intro always
  have rejected : reconstruct (.logging (.ofText .info [] 0))
      [9, 0, 76, 54, 0, 0, 0, 0, 0, 0, 0, 0] =
      .error (.raised (.parsing (ascii "message too short"))) := by
    rfl
  obtain ⟨⟨object, accepted⟩, _⟩ := always
    (.logging (.ofText .info [] 0)) _ trivial
    trivial rfl
  have same := rejected.symm.trans accepted
  cases same

end Message

end UlogCpp
