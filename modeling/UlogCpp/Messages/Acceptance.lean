import UlogCpp.Messages.Emission

namespace UlogCpp

/-! Which of the messages that a serializer hands over are accepted again. -/

namespace MessageFormat

theorem length_encodeFields_take (kept : Nat) (fields : List Field) :
    (encodeFields (fields.take kept)).length + (fields.length - kept) ≤
      (encodeFields fields).length := by
  induction fields generalizing kept with
  | nil => simp
  | cons field fields ih =>
      cases kept with
      | zero =>
          have rest := ih 0
          simp only [List.take_zero, encodeFields_cons, List.length_append,
            List.length_cons] at rest ⊢
          omega
      | succ kept =>
          have rest := ih kept
          simp only [List.take_succ_cons, encodeFields_cons, List.length_append,
            List.length_cons] at rest ⊢
          omega

end MessageFormat

namespace Message

/-- Neither the types nor the names in a format disturb its separators, except
that a type may contain the one between the fields. -/
def Separable : Message → Prop
  | messageFormat format => 58 ∉ format.name ∧
      ∀ field ∈ format.fields,
        32 ∉ field.type ∧ 91 ∉ field.type ∧ 59 ∉ field.name
  | _ => True

def Readable : Message → Prop
  | messageInfo info _ => info.field.Readable
  | parameterDefault parameter => parameter.field.Readable
  | messageFormat format => ∀ field ∈ format.fields, 59 ∉ field.type
  | _ => True

/-- The last part is not missing where it is needed, and the texts can be
read. -/
structure Acceptable (message : Message) : Prop where
  needed : message.tailNeeded ≤ message.tail.length
  readable : message.Readable

section Frame

variable {part : Bytes}

theorem messageInfo_frame {info : MessageInfo} {type : ULogMessageType}
    (keyed : info.field.encode.length < 2 ^ 8)
    (sized : ((messageInfo info type).lead ++ part).length < 2 ^ 16) :
    MessageInfo.ofMessage (frameBytes (messageInfo info type).msgType.code
      ((messageInfo info type).lead ++ part)) info.isMulti =
      (Field.ofKey info.field.encode).map fun field =>
        { info with
          field, value := part, continued := info.isMulti && info.continued } := by
  refine @MessageInfo.ofMessage_key _ _
    { info with value := part, continued := info.isMulti && info.continued }
    ?_ keyed sized ?_
  · simp only [Bool.and_eq_true]
    exact And.left
  · simp only [lead, fixed]
    cases info.isMulti <;> simp

theorem parameterDefault_frame {parameter : ParameterDefault}
    (keyed : parameter.field.encode.length < 2 ^ 8)
    (sized : ((parameterDefault parameter).lead ++ part).length < 2 ^ 16) :
    ParameterDefault.ofMessage
      (frameBytes (parameterDefault parameter).msgType.code
        ((parameterDefault parameter).lead ++ part)) =
      (Field.ofKey parameter.field.encode).map fun field =>
        { parameter with field, value := part } := by
  refine @ParameterDefault.ofMessage_key _ _ { parameter with value := part }
    keyed sized ?_
  simp [lead, fixed]

theorem map_accepted {result : Except Stop α} {wrap : α → β} :
    (∃ value, result.map wrap = .ok value) ↔ ∃ inner, result = .ok inner := by
  cases result with
  | error => exact ⟨nofun, nofun⟩
  | ok inner => exact ⟨fun _ => ⟨inner, rfl⟩, fun _ => ⟨_, rfl⟩⟩

end Frame

theorem ofMessage_formatStr {format : MessageFormat} {msgType : UInt8}
    (separable : (messageFormat format).Separable)
    (noTypes : ∀ field ∈ format.fields, 59 ∉ field.type)
    (sized : format.formatStr.length < 2 ^ 16) :
    MessageFormat.ofMessage (frameBytes msgType format.formatStr) =
      .ok { format with fields := format.fields.map Field.normal } := by
  rw [← MessageFormat.formatStr_normal] at sized ⊢
  refine MessageFormat.ofMessage_frame separable.1 ?_ sized
  intro field mem
  obtain ⟨before, earlier, rfl⟩ := List.mem_map.mp mem
  obtain ⟨noSpace, noBracket, noName⟩ := separable.2 before earlier
  exact ⟨Field.normal_encodable ⟨noSpace, noBracket⟩, noTypes before earlier,
    noName⟩

theorem types_of_accepted {format object : MessageFormat} {msgType : UInt8}
    (separable : (messageFormat format).Separable)
    (sized : format.formatStr.length < 2 ^ 16)
    (accepted : MessageFormat.ofMessage (frameBytes msgType format.formatStr) =
      .ok object) : ∀ field ∈ format.fields, 59 ∉ field.type := by
  have whole : format.formatStr.take format.formatStr.length =
      format.formatStr := List.take_length
  rw [← whole] at sized accepted
  obtain ⟨kept, text, noTypes⟩ := MessageFormat.ofMessage_prefix separable.1
    (fun field mem => ⟨(separable.2 field mem).1, (separable.2 field mem).2.2⟩)
    sized accepted
  rw [whole] at text
  have same : MessageFormat.encodeFields format.fields =
      MessageFormat.encodeFields (format.fields.take kept) :=
    (List.cons.inj (List.append_cancel_left text)).2
  have all := MessageFormat.length_encodeFields_take kept format.fields
  rw [← same] at all
  rwa [List.take_of_length_le (by omega)] at noTypes

/-- The texts decide whether a frame is accepted that has the bytes needed. -/
theorem reconstruct_frame_iff {message : Message} {bytes : Bytes}
    (separable : message.Separable)
    (layout : bytes = frameBytes message.msgType.code message.body)
    (sized : message.body.length < 2 ^ 16) (keyed : message.keyLength < 2 ^ 8)
    (needed : message.tailNeeded ≤ message.tail.length) :
    (∃ object, message.reconstruct bytes = .ok object) ↔ message.Readable := by
  have whole (encodable : message.Encodable) :
      ∃ object, message.reconstruct (frameBytes message.msgType.code
        message.body) = .ok object :=
    ⟨_, reconstruct_toBytes encodable sized keyed⟩
  rw [layout]
  rw [body_eq] at sized whole ⊢
  cases message with
  | messageInfo info type =>
      refine map_accepted.trans ?_
      rw [messageInfo_frame keyed sized]
      exact map_accepted.trans Field.ofKey_encode_iff
  | parameterDefault parameter =>
      refine map_accepted.trans ?_
      rw [parameterDefault_frame keyed sized]
      exact map_accepted.trans Field.ofKey_encode_iff
  | messageFormat format =>
      refine map_accepted.trans ?_
      simp only [lead, fixed, tail, List.nil_append] at sized ⊢
      constructor
      · rintro ⟨object, accepted⟩
        exact types_of_accepted separable sized accepted
      · intro noTypes
        exact ⟨_, ofMessage_formatStr separable noTypes sized⟩
  | addLoggedMessage | logging | data =>
      exact iff_of_true (whole (List.ne_nil_of_length_pos needed)) trivial
  | dropout | sync => exact iff_of_true (whole trivial) trivial

/-- Of what a serializer hands over, the constructor accepts exactly the
acceptable messages. -/
theorem reconstruct_accepts_iff {message : Message} {emitted : Bytes}
    (separable : message.Separable) (small : message.body.length < 2 ^ 31)
    (returned : message.serialize [] = (.ok (), emitted)) :
    (∃ object, message.reconstruct emitted = .ok object) ↔
      message.Acceptable := by
  obtain ⟨layout, sized, keyed⟩ := serialize_ok small returned
  constructor
  · rintro ⟨object, accepted⟩
    have needed := (accepted_sizes returned accepted).2
    rw [arriving_small] at needed
    · exact ⟨needed, (reconstruct_frame_iff separable layout sized keyed
        needed).mp ⟨object, accepted⟩⟩
    · rw [body_eq, List.length_append] at small
      omega
  · intro acceptable
    exact (reconstruct_frame_iff separable layout sized keyed
      acceptable.needed).mpr acceptable.readable

end Message

end UlogCpp
