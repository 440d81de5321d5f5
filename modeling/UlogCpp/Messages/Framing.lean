import UlogCpp.Messages.Emission

namespace UlogCpp

/-! A serializer hands over one frame, or nothing. -/

namespace IsMessage

/-- A sequence of messages can be cut in one way only. -/
theorem parts_unique {parts messages : List Bytes}
    (whole : ∀ part ∈ parts, IsMessage part)
    (others : ∀ message ∈ messages, IsMessage message)
    (same : parts.flatten = messages.flatten) : parts = messages := by
  induction parts generalizing messages with
  | nil =>
      cases messages with
      | nil => rfl
      | cons message messages =>
          have long := (others message List.mem_cons_self).header_le
          have lengths := congrArg List.length same
          rw [List.flatten_cons, List.length_append] at lengths
          change 0 = _ at lengths
          omega
  | cons part parts ih =>
      have first := whole part List.mem_cons_self
      cases messages with
      | nil =>
          have long := first.header_le
          have lengths := congrArg List.length same
          rw [List.flatten_cons, List.length_append] at lengths
          change _ = 0 at lengths
          omega
      | cons message messages =>
          have second := others message List.mem_cons_self
          rw [List.flatten_cons, List.flatten_cons] at same
          -- the size bytes tell how long the first message is
          have sizes := congrArg fullMessageLength same
          rw [first.fullMessageLength_append, second.fullMessageLength_append]
            at sizes
          obtain ⟨rfl, rest⟩ := List.append_inj same sizes
          rw [ih (fun other mem => whole other (List.mem_cons_of_mem _ mem))
            (fun other mem => others other (List.mem_cons_of_mem _ mem)) rest]

end IsMessage

namespace Message

def encodedKey : Message → Option Bytes
  | messageInfo info _ => some info.field.encode
  | parameterDefault parameter => some parameter.field.encode
  | _ => none

structure Framed (message : Message) (bytes : Bytes) : Prop where
  layout : ∃ payload, payload.length < 2 ^ 16 ∧
    bytes = leBytes 2 payload.length ++ message.msgType.code :: payload
  keyed : ∀ key, message.encodedKey = some key → ∃ before keyLen value,
    bytes = before ++ keyLen :: (key ++ value) ∧ keyLen.toNat = key.length

theorem isMessage_of_sized {type : UInt8} {payload : Bytes}
    (sized : payload.length < 2 ^ 16) :
    IsMessage (leBytes 2 payload.length ++ type :: payload) := by
  have sizeBytes : (leBytes 2 payload.length ++ type :: payload).take 2 =
      leBytes 2 payload.length := List.take_left' (length_leBytes _ _)
  rw [IsMessage, fullMessageLength, sizeBytes, leNat_leBytes_of_lt sized,
    List.length_append, length_leBytes, List.length_cons, ulogMsgHeaderLen]
  omega

theorem Framed.isMessage {message : Message} {bytes : Bytes}
    (framed : message.Framed bytes) : IsMessage bytes := by
  obtain ⟨payload, sized, rfl⟩ := framed.layout
  exact isMessage_of_sized sized

theorem framed_toBytes {message : Message} (sized : message.body.length < 2 ^ 16)
    (keyed : message.keyLength < 2 ^ 8) : message.Framed message.toBytes where
  layout := ⟨message.body, sized, rfl⟩
  keyed key present := by
    cases message with
    | messageInfo info type =>
        cases present
        cases multi : info.isMulti with
        | true =>
            refine ⟨leBytes 2 (messageInfo info type).body.length ++
              [(messageInfo info type).msgType.code,
                if info.continued then 1 else 0], _, info.value, ?_,
              UInt8.toNat_ofNat_of_lt' keyed⟩
            simp [toBytes, frameBytes, body, fixed, pieces, multi]
        | false =>
            refine ⟨leBytes 2 (messageInfo info type).body.length ++
              [(messageInfo info type).msgType.code], _, info.value, ?_,
              UInt8.toNat_ofNat_of_lt' keyed⟩
            simp [toBytes, frameBytes, body, fixed, pieces, multi]
    | parameterDefault parameter =>
        cases present
        refine ⟨leBytes 2 (parameterDefault parameter).body.length ++
          [(parameterDefault parameter).msgType.code, parameter.defaultTypes], _,
          parameter.value, ?_, UInt8.toNat_ofNat_of_lt' keyed⟩
        simp [toBytes, frameBytes, body, fixed, pieces]
    | _ => cases present

/-- Below 2^31 bytes a serializer throws before it hands over anything, exactly
if the message does not fit its size fields, or it hands over one frame; and
what serializers have handed over can be cut into messages in one way only. -/
theorem serialize_framed :
    (∀ (message : Message) (output : Bytes), message.body.length < 2 ^ 31 →
      ((65535 < message.body.length ∨ 255 < message.keyLength) ∧
        message.serialize output = (.error messageTooLong, output)) ∨
      (message.body.length ≤ 65535 ∧ message.keyLength ≤ 255) ∧
        message.serialize output = (.ok (), output ++ message.emitted) ∧
        message.Framed message.emitted) ∧
    ∀ messages : List Message,
      (∀ message ∈ messages, message.body.length < 2 ^ 31 ∧
        (message.serialize []).1 = .ok ()) →
      ∀ parts : List Bytes, (∀ part ∈ parts, IsMessage part) →
        parts.flatten = messages.flatMap emitted →
        parts = messages.map emitted := by
  have fits : ∀ message : Message,
      message.body.length ≤ 65535 → message.keyLength ≤ 255 →
      message.emitted = message.toBytes ∧ message.Framed message.emitted := by
    intro message sized keyed
    have written := @serialize_fits message [] (Nat.lt_succ_of_le sized)
      (Nat.lt_succ_of_le keyed)
    have same : message.emitted = message.toBytes := congrArg Prod.snd written
    rw [same]
    exact ⟨rfl, framed_toBytes (Nat.lt_succ_of_le sized)
      (Nat.lt_succ_of_le keyed)⟩
  constructor
  · intro message output small
    have written := @emitMessage_apply message.msgType message.fixed
      message.pieces message.keyLength small output
    rw [← serialize_eq] at written
    by_cases long : 65535 < message.body.length ∨ 255 < message.keyLength
    · exact .inl ⟨long, written.trans (if_pos long)⟩
    · have short := not_or.mp long
      have sized := Nat.le_of_not_lt short.1
      have keyed := Nat.le_of_not_lt short.2
      obtain ⟨same, framed⟩ := fits message sized keyed
      refine .inr ⟨⟨sized, keyed⟩, ?_, framed⟩
      rw [same]
      exact written.trans (if_neg long)
  · intro messages written parts whole same
    rw [List.flatMap_def] at same
    refine IsMessage.parts_unique whole ?_ same
    intro bytes mem
    obtain ⟨message, among, rfl⟩ := List.mem_map.mp mem
    obtain ⟨small, returned⟩ := written message among
    obtain ⟨_, sized, keyed⟩ :=
      serialize_ok small (Prod.ext returned rfl)
    exact (fits message (Nat.le_of_lt_succ sized)
      (Nat.le_of_lt_succ keyed)).2.isMessage

end Message

end UlogCpp
