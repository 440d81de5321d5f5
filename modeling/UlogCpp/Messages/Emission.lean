import UlogCpp.Messages.Access
import UlogCpp.Messages.Wire

namespace UlogCpp

/-! What a serializer hands over, for messages of any size. The sizes are
narrowed to an `int`, so a long message may be written without an exception and
cut short. If its constructor still accepts the bytes, they are those of a
message that fits. -/

/-- The bytes of a variable part that reach the callback, where its length is
not negative as an `int`. -/
def arriving (part : Bytes) : Bytes :=
  part.take (intOfSize part.length).toNatClampNeg

theorem length_arriving (part : Bytes) :
    (arriving part).length = (intOfSize part.length).toNatClampNeg := by
  have bound : (intOfSize part.length).toNatClampNeg ≤ part.length := by
    rw [← Int32.toNat_toInt, intOfSize, Int32.toInt_ofNat']
    simp only [Int.bmod, Int32.size]
    omega
  exact (List.length_take).trans (Nat.min_eq_left bound)

theorem arriving_small {part : Bytes} (small : part.length < 2 ^ 31) :
    arriving part = part := by
  rw [arriving, toNatClampNeg_intOfSize small, List.take_length]

/-- The size in the header of an emitted message that covers what its
constructor needs, and not more than has been written, is the size of what has
been written. -/
theorem narrowed_size {lead part : Nat} (few : lead < 2 ^ 16)
    (passed : (intOfSize (lead + part)).toInt ≤ 65535)
    (within : (lead + part) % 2 ^ 16 ≤ lead + (intOfSize part).toNatClampNeg)
    (leads : lead ≤ (lead + part) % 2 ^ 16) :
    (lead + part) % 2 ^ 16 = lead + (intOfSize part).toNatClampNeg := by
  rw [← Int32.toNat_toInt] at within ⊢
  rw [intOfSize, Int32.toInt_ofNat'] at passed within ⊢
  simp only [Int.bmod, Int32.size] at passed within ⊢
  omega

theorem writePieces_arriving (pieces : List Bytes) (output : Bytes) :
    (pieces.forM fun piece => write piece (intOfSize piece.length)) output =
      (.ok (), output ++ pieces.flatMap arriving) := by
  induction pieces generalizing output with
  | nil => exact congrArg _ (List.append_nil output).symm
  | cons piece pieces ih =>
      have rest := ih (output ++ arriving piece)
      rw [List.append_assoc, ← List.flatMap_cons] at rest
      exact rest

theorem emitMessage_ok {msgType : ULogMessageType} {fixed : Bytes}
    {pieces : List Bytes} {keyLength : Nat} {emitted : Bytes}
    (few : fixed.length < 2 ^ 16)
    (returned : emitMessage msgType fixed pieces keyLength [] =
      (.ok (), emitted)) :
    (intOfSize (fixed.length + pieces.flatten.length)).toInt ≤ 65535 ∧
      keyLength < 2 ^ 8 ∧
      emitted = leBytes 2 ((fixed.length + pieces.flatten.length) % 2 ^ 16) ++
        ([msgType.code] ++ (fixed ++ pieces.flatMap arriving)) := by
  unfold emitMessage at returned
  split at returned
  next => cases returned
  next fits =>
    obtain ⟨_, _, header, rest⟩ := Exec.bind_eq_ok.mp returned
    rw [write_apply (by simp [messageHeader]; omega), List.nil_append,
      messageHeader, size_narrowed] at header
    cases header
    rw [writePieces_arriving] at rest
    cases rest
    refine ⟨by omega, by omega, ?_⟩
    simp only [List.append_assoc]

/-- What has been written before makes no difference to a serializer. -/
theorem emitMessage_append {msgType : ULogMessageType} {fixed : Bytes}
    {pieces : List Bytes} {keyLength : Nat} (output : Bytes) :
    emitMessage msgType fixed pieces keyLength output =
      ((emitMessage msgType fixed pieces keyLength []).1,
        output ++ (emitMessage msgType fixed pieces keyLength []).2) := by
  unfold emitMessage
  split
  next => exact congrArg _ (List.append_nil output).symm
  next =>
    have written : ∀ (start header : Bytes) (length : Int32),
        (write header length >>= fun _ =>
          pieces.forM fun piece => write piece (intOfSize piece.length)) start =
          (.ok (), start ++ header.take length.toNatClampNeg ++
            pieces.flatMap arriving) :=
      fun _ _ _ => writePieces_arriving pieces _
    rw [written, written, List.nil_append, List.append_assoc]

theorem emitMessage_error {msgType : ULogMessageType} {fixed : Bytes}
    {pieces : List Bytes} {keyLength : Nat} {output emitted : Bytes}
    {exception : Exception}
    (failed : emitMessage msgType fixed pieces keyLength output =
      (.error exception, emitted)) :
    emitted = output ∧ exception = messageTooLong ∧
      (65535 < fixed.length + pieces.flatten.length ∨ 255 < keyLength) := by
  unfold emitMessage at failed
  split at failed
  next long =>
    cases failed
    refine ⟨rfl, rfl, ?_⟩
    rw [intOfSize, Int32.toInt_ofNat'] at long
    simp only [Int.bmod, Int32.size] at long
    omega
  next =>
    obtain same | ⟨_, _, _, rest⟩ := Exec.bind_eq_error.mp failed
    · cases same
    · rw [writePieces_arriving] at rest
      cases rest

theorem length_emitMessage {msgType : ULogMessageType} {fixed : Bytes}
    {pieces : List Bytes} {keyLength : Nat} (few : fixed.length < 2 ^ 16) :
    (emitMessage msgType fixed pieces keyLength []).2.length =
      if 65535 < (intOfSize (fixed.length + pieces.flatten.length)).toInt ∨
          255 < keyLength then 0
      else 3 + fixed.length + (pieces.flatMap arriving).length := by
  by_cases long : 65535 <
      (intOfSize (fixed.length + pieces.flatten.length)).toInt ∨ 255 < keyLength
  · rw [if_pos long, emitMessage, if_pos long]
    rfl
  · have returns : (emitMessage msgType fixed pieces keyLength []).1 = .ok () := by
      rw [emitMessage, if_neg long]
      exact congrArg Prod.fst (writePieces_arriving pieces _)
    obtain ⟨_, _, layout⟩ := emitMessage_ok few (Exec.apply_of_fst returns)
    rw [if_neg long]
    refine (congrArg List.length layout).trans ?_
    simp only [List.length_append, length_leBytes, List.length_singleton]
    omega

namespace Message

def lead : Message → Bytes
  | messageInfo info type => (messageInfo info type).fixed ++ info.field.encode
  | parameterDefault parameter =>
      (parameterDefault parameter).fixed ++ parameter.field.encode
  | message => message.fixed

def tail : Message → Bytes
  | messageInfo info _ => info.value
  | messageFormat format => format.formatStr
  | parameterDefault parameter => parameter.value
  | addLoggedMessage message => message.messageName
  | logging logged => logged.message
  | data sample => sample.data
  | dropout _ | sync _ => []

theorem body_eq (message : Message) :
    message.body = message.lead ++ message.tail := by
  cases message <;> simp [body, lead, tail, fixed, pieces]

theorem length_fixed_le (message : Message) : message.fixed.length ≤ 11 := by
  cases message with
  | messageInfo info type =>
      simp only [fixed]
      split <;> simp
  | logging logged =>
      simp only [fixed]
      split <;> simp
  | messageFormat | parameterDefault | addLoggedMessage | data | dropout
  | sync => simp [fixed, Sync.kSyncMagicBytes]

theorem length_lead_le (message : Message) :
    message.lead.length ≤ 11 + message.keyLength := by
  have bound := message.length_fixed_le
  cases message <;> simp only [lead, keyLength, List.length_append] <;> omega

theorem pieces_arriving {message : Message} (keyed : message.keyLength < 2 ^ 8) :
    message.fixed ++ message.pieces.flatMap arriving =
      message.lead ++ arriving message.tail := by
  cases message with
  | messageInfo | parameterDefault =>
      have key := arriving_small (Nat.lt_trans keyed (by decide))
      simp only [lead, pieces, tail, List.flatMap_cons, List.flatMap_nil, key,
        List.append_nil, List.append_assoc]
  | messageFormat | addLoggedMessage | logging | data =>
      simp only [lead, pieces, tail, List.flatMap_cons, List.flatMap_nil,
        List.append_nil]
  | dropout | sync => rfl

def emitted (message : Message) : Bytes := (message.serialize []).2

theorem serialize_append (message : Message) (output : Bytes) :
    message.serialize output =
      ((message.serialize []).1, output ++ message.emitted) := by
  rw [emitted, serialize_eq]
  exact emitMessage_append output

theorem serialize_error {message : Message} {output reached : Bytes}
    {exception : Exception}
    (failed : message.serialize output = (.error exception, reached)) :
    reached = output ∧ exception = messageTooLong ∧
      (65535 < message.body.length ∨ 255 < message.keyLength) := by
  rw [serialize_eq] at failed
  obtain ⟨same, is, long⟩ := emitMessage_error failed
  refine ⟨same, is, ?_⟩
  rwa [body, List.length_append]

/-- A serializer that does not throw hands over the first part of the message
whole, and of the last part what arrives. -/
theorem serialize_arriving {message : Message} {emitted : Bytes}
    (returned : message.serialize [] = (.ok (), emitted)) :
    (intOfSize message.body.length).toInt ≤ 65535 ∧
      message.keyLength < 2 ^ 8 ∧
      emitted = leBytes 2 (message.body.length % 2 ^ 16) ++
        ([message.msgType.code] ++ (message.lead ++ arriving message.tail)) := by
  rw [serialize_eq] at returned
  obtain ⟨passed, keyed, layout⟩ := emitMessage_ok
    (Nat.lt_of_le_of_lt message.length_fixed_le (by decide)) returned
  rw [← List.length_append] at passed layout
  exact ⟨passed, keyed, by rw [layout, pieces_arriving keyed]; rfl⟩

end Message

/-! ## What acceptance says -/

structure Covers (bytes : Bytes) (needed : Nat) : Prop where
  within : (msgSize bytes).toNat + 3 ≤ bytes.length
  needs : needed ≤ (msgSize bytes).toNat

section Covers

variable {bytes : Bytes}

theorem Yields.self (result : Except Stop α) :
    Yields (fun value => result = .ok value) result :=
  fun _ => id

theorem readBytes_yields (object : Bytes) (offset length : Int) :
    Yields (fun _ => offset + length ≤ object.length)
      (readBytes object offset length) :=
  fun _ returned => (readBytes_length returned).2

theorem checkMsgSize_yields (size : UInt16) (minRequired : Nat) :
    Yields (fun _ => minRequired ≤ size.toNat)
      (checkMsgSize size minRequired) :=
  fun _ => checkMsgSize_ok

theorem readKeyValue_covers {fixed : Nat} {keyLen : UInt8}
    (keyRead : readUInt8 bytes (2 + fixed) = .ok keyLen) :
    Yields (fun _ => Covers bytes (fixed + keyLen.toNat))
      (readKeyValue bytes (msgSize bytes) fixed) := by
  unfold readKeyValue
  rw [keyRead, ok_bind]
  refine .bind (.self _) fun _ passed => .bind (.any _) fun _ _ =>
    .bind (.any _) fun _ _ => .bind (readBytes_yields _ _ _)
      fun _ within => .ok ?_
  have fits := throwIf_ok passed
  exact ⟨by omega, by omega⟩

variable (sized : 2 ≤ bytes.length)

include sized

theorem MessageInfo.ofMessage_covers {isMulti : Bool} {keyLen : UInt8}
    (keyRead : readUInt8 bytes (if isMulti then 4 else 3) = .ok keyLen) :
    Yields (fun _ => Covers bytes ((if isMulti then 2 else 1) + keyLen.toNat))
      (MessageInfo.ofMessage bytes isMulti) := by
  unfold MessageInfo.ofMessage
  rw [readUInt16_msgSize sized, ok_bind]
  cases isMulti with
  | true =>
      exact .bind (.any _) fun _ _ => .bind (.any _) fun _ _ =>
        .bind (@readKeyValue_covers _ 2 _ keyRead) fun _ covers => .ok covers
  | false =>
      exact .bind (.any _) fun _ _ =>
        .bind (@readKeyValue_covers _ 1 _ keyRead) fun _ covers => .ok covers

theorem ParameterDefault.ofMessage_covers {keyLen : UInt8}
    (keyRead : readUInt8 bytes 4 = .ok keyLen) :
    Yields (fun _ => Covers bytes (2 + keyLen.toNat))
      (ParameterDefault.ofMessage bytes) := by
  unfold ParameterDefault.ofMessage
  rw [readUInt16_msgSize sized, ok_bind]
  exact .bind (.any _) fun _ _ => .bind (.any _) fun _ _ =>
    .bind (@readKeyValue_covers _ 2 _ keyRead) fun _ covers => .ok covers

theorem MessageFormat.ofMessage_covers :
    Yields (fun _ => Covers bytes 0) (MessageFormat.ofMessage bytes) := by
  unfold MessageFormat.ofMessage
  rw [readUInt16_msgSize sized, ok_bind]
  refine .bind (readBytes_yields _ _ _) fun _ within => ?_
  exact fun _ _ => ⟨by omega, Nat.zero_le _⟩

theorem AddLoggedMessage.ofMessage_covers :
    Yields (fun _ => Covers bytes 4) (AddLoggedMessage.ofMessage bytes) := by
  unfold AddLoggedMessage.ofMessage
  rw [readUInt16_msgSize sized, ok_bind]
  refine .bind (checkMsgSize_yields _ _) fun _ needs => .bind (.any _)
    fun _ _ => .bind (.any _) fun _ _ => .bind (readBytes_yields _ _ _)
      fun _ within => .ok ⟨?_, needs⟩
  omega

theorem Logging.ofMessage_covers (isTagged : Bool) :
    Yields (fun _ => Covers bytes (if isTagged then 12 else 10))
      (Logging.ofMessage bytes isTagged) := by
  unfold Logging.ofMessage
  rw [readUInt16_msgSize sized, ok_bind]
  cases isTagged with
  | true =>
      refine .bind (checkMsgSize_yields _ _) fun _ needs => .bind (.any _)
        fun _ _ => .bind (.any _) fun _ _ => .bind (.any _) fun _ _ =>
          .bind (readBytes_yields _ _ _) fun _ within => .ok ⟨?_, needs⟩
      omega
  | false =>
      refine .bind (checkMsgSize_yields _ _) fun _ needs => .bind (.any _)
        fun _ _ => .bind (.any _) fun _ _ => .bind (readBytes_yields _ _ _)
          fun _ within => .ok ⟨?_, needs⟩
      omega

theorem Data.ofMessage_covers :
    Yields (fun _ => Covers bytes 3) (Data.ofMessage bytes) := by
  unfold Data.ofMessage
  rw [readUInt16_msgSize sized, ok_bind]
  refine .bind (checkMsgSize_yields _ _) fun _ needs => .bind (.any _)
    fun _ _ => .bind (readBytes_yields _ _ _) fun _ within => .ok ⟨?_, needs⟩
  omega

end Covers

namespace Message

/-- The bytes of the last part without which a message is too short. -/
def tailNeeded : Message → Nat
  | addLoggedMessage _ | logging _ | data _ => 1
  | _ => 0

theorem reconstruct_covers {message object : Message} {bytes rest : Bytes}
    {size : Nat} (keyed : message.keyLength < 2 ^ 8)
    (layout : bytes = leBytes 2 size ++
      ([message.msgType.code] ++ (message.lead ++ rest)))
    (accepted : message.reconstruct bytes = .ok object) :
    Covers bytes (message.lead.length + message.tailNeeded) ∨
      message.tail = [] ∧ message.tailNeeded = 0 := by
  have sized : 2 ≤ bytes.length := by
    rw [layout, List.length_append, length_leBytes]
    omega
  have keyLen : (UInt8.ofNat message.keyLength).toNat = message.keyLength :=
    UInt8.toNat_ofNat_of_lt' keyed
  cases message with
  | messageInfo info type =>
      obtain ⟨_, decoded, _⟩ := map_eq_ok accepted
      left
      have keyRead : readUInt8 bytes (if info.isMulti then 4 else 3) =
          .ok (UInt8.ofNat info.field.encode.length) := by
        simp only [lead, fixed] at layout
        cases multi : info.isMulti with
        | true =>
            rw [multi] at layout
            exact readUInt8_at (show bytes = (leBytes 2 size ++
              ([(messageInfo info type).msgType.code] ++
                [if info.continued then 1 else 0])) ++
              ([UInt8.ofNat info.field.encode.length] ++
                (info.field.encode ++ rest)) by rw [layout]; simp) (by simp)
        | false =>
            rw [multi] at layout
            exact readUInt8_at (show bytes = (leBytes 2 size ++
              [(messageInfo info type).msgType.code]) ++
              ([UInt8.ofNat info.field.encode.length] ++
                (info.field.encode ++ rest)) by rw [layout]; simp) (by simp)
      have covers := MessageInfo.ofMessage_covers sized keyRead _ decoded
      have length : (messageInfo info type).lead.length =
          (if info.isMulti then 2 else 1) + info.field.encode.length := by
        simp only [lead, fixed]
        cases info.isMulti <;> simp <;> omega
      simp only [keyLength] at keyLen
      rw [keyLen] at covers
      rw [length]
      exact covers
  | messageFormat format =>
      obtain ⟨_, decoded, _⟩ := map_eq_ok accepted
      exact .inl (MessageFormat.ofMessage_covers sized _ decoded)
  | parameterDefault parameter =>
      obtain ⟨_, decoded, _⟩ := map_eq_ok accepted
      left
      have keyRead : readUInt8 bytes 4 =
          .ok (UInt8.ofNat parameter.field.encode.length) :=
        readUInt8_at (show bytes = (leBytes 2 size ++ [81] ++
          [parameter.defaultTypes]) ++ ([UInt8.ofNat
            parameter.field.encode.length] ++ (parameter.field.encode ++ rest))
          by rw [layout]; simp [lead, fixed, msgType, ULogMessageType.code])
          (by simp)
      have covers := ParameterDefault.ofMessage_covers sized keyRead _ decoded
      have length : (parameterDefault parameter).lead.length =
          2 + parameter.field.encode.length := by
        simp [lead, fixed]
        omega
      simp only [keyLength] at keyLen
      rw [keyLen] at covers
      rw [length]
      exact covers
  | addLoggedMessage message =>
      obtain ⟨_, decoded, _⟩ := map_eq_ok accepted
      exact .inl (AddLoggedMessage.ofMessage_covers sized _ decoded)
  | logging logged =>
      obtain ⟨_, decoded, _⟩ := map_eq_ok accepted
      left
      have covers := Logging.ofMessage_covers sized _ _ decoded
      simp only [lead, fixed, tailNeeded]
      cases tagged : logged.hasTag with
      | true => rw [tagged] at covers; simpa using covers
      | false => rw [tagged] at covers; simpa using covers
  | data sample =>
      obtain ⟨_, decoded, _⟩ := map_eq_ok accepted
      exact .inl (Data.ofMessage_covers sized _ decoded)
  | dropout | sync => exact .inr ⟨rfl, rfl⟩

/-- If the constructor accepts what a serializer hands over, the size in the
header is that of what has been written. -/
theorem accepted_sizes {message object : Message} {emitted : Bytes}
    (returned : message.serialize [] = (.ok (), emitted))
    (accepted : message.reconstruct emitted = .ok object) :
    message.body.length % 2 ^ 16 =
        (message.lead ++ arriving message.tail).length ∧
      message.tailNeeded ≤ (arriving message.tail).length := by
  obtain ⟨passed, keyed, layout⟩ := serialize_arriving returned
  have few := message.length_lead_le
  have lengths := congrArg List.length message.body_eq
  rw [List.length_append] at lengths ⊢
  rcases reconstruct_covers keyed layout accepted with covers | ⟨empty, none⟩
  · have size : (msgSize emitted).toNat = message.body.length % 2 ^ 16 := by
      have first : emitted.take 2 =
          leBytes 2 (message.body.length % 2 ^ 16) := by
        rw [layout]
        exact List.take_left' (length_leBytes _ _)
      have small : message.body.length % 2 ^ 16 < 256 ^ 2 :=
        Nat.mod_lt _ (by decide)
      rw [msgSize, first, leNat_leBytes_of_lt small,
        UInt16.toNat_ofNat_of_lt' small]
    have written := congrArg List.length layout
    simp only [List.length_append, length_leBytes, List.length_singleton]
      at written
    have within := covers.within
    have needs := covers.needs
    have narrowed := length_arriving message.tail
    rw [lengths] at passed size ⊢
    have exact := narrowed_size (by omega) passed (by omega) (by omega)
    omega
  · have nothing : arriving message.tail = [] := by
      rw [empty]
      rfl
    rw [empty, List.length_nil] at lengths
    rw [nothing, List.length_nil, none]
    omega

theorem whole_frame {message : Message} {emitted : Bytes}
    (returned : message.serialize [] = (.ok (), emitted))
    (whole : message.body.length % 2 ^ 16 =
      (message.lead ++ arriving message.tail).length) :
    emitted = frameBytes message.msgType.code
        (message.lead ++ arriving message.tail) ∧
      (message.lead ++ arriving message.tail).length < 2 ^ 16 ∧
      message.keyLength < 2 ^ 8 := by
  obtain ⟨_, keyed, layout⟩ := serialize_arriving returned
  have bound := Nat.mod_lt message.body.length (show 0 < 2 ^ 16 by decide)
  refine ⟨?_, by omega, keyed⟩
  rw [layout, whole]
  rfl

end Message

/-! ## Formats that are cut short -/

namespace MessageFormat

def Separable (fields : List Field) : Prop :=
  ∀ field ∈ fields, 32 ∉ field.type ∧ 59 ∉ field.name

theorem FieldsEncodable.separable {fields : List Field}
    (encodable : FieldsEncodable fields) : Separable fields :=
  fun field mem => ⟨(encodable field mem).1.no_space, (encodable field mem).2.2⟩

theorem readFields_unseparated {rounds : Nat} {text : Bytes}
    {parsed : List Field} (absent : 59 ∉ text)
    (accepted : readFields rounds text = .ok parsed) : text = [] := by
  cases text with
  | nil => rfl
  | cons byte rest =>
      cases rounds with
      | zero => cases accepted
      | succ rounds =>
          unfold readFields at accepted
          rw [splitFirst_eq_none.mpr absent] at accepted
          cases accepted

theorem readFields_piece {rounds : Nat} {piece rest : Bytes}
    {parsed : List Field} (absent : 59 ∉ piece)
    (accepted : readFields rounds (piece ++ 59 :: rest) = .ok parsed) :
    (∃ field, Field.ofKey piece = .ok field) ∧
      ∃ rounds fields, readFields rounds rest = .ok fields := by
  have split := splitFirst_append absent rest
  obtain ⟨byte, text, shape⟩ :=
    List.exists_cons_of_ne_nil (splitFirst_ne_nil split)
  rw [shape] at accepted split
  cases rounds with
  | zero => cases accepted
  | succ rounds =>
      unfold readFields at accepted
      rw [split] at accepted
      obtain ⟨field, read, accepted⟩ := bind_eq_ok.mp accepted
      obtain ⟨others, later, _⟩ := bind_eq_ok.mp accepted
      exact ⟨⟨field, read⟩, rounds, others, later⟩

/-- Of a text that starts like `piece` and a separator, nothing is read unless
the piece is. -/
theorem readFields_take {rounds count : Nat} {piece rest : Bytes}
    {parsed : List Field} (absent : 59 ∉ piece)
    (accepted : readFields rounds ((piece ++ 59 :: rest).take count) =
      .ok parsed) :
    (piece ++ 59 :: rest).take count = [] ∨
      ∃ more, (piece ++ 59 :: rest).take count = piece ++ 59 :: rest.take more ∧
        (∃ field, Field.ofKey piece = .ok field) ∧
        ∃ rounds fields, readFields rounds (rest.take more) = .ok fields := by
  by_cases short : count ≤ piece.length
  · rw [List.take_append_of_le_length short] at accepted ⊢
    exact .inl (readFields_unseparated
      (fun mem => absent (List.mem_of_mem_take mem)) accepted)
  · obtain ⟨more, rfl⟩ : ∃ more, count = piece.length + (more + 1) :=
      ⟨count - piece.length - 1, by omega⟩
    rw [List.take_length_add_append, List.take_succ_cons] at accepted ⊢
    exact .inr ⟨more, rfl, readFields_piece absent accepted⟩

/-- The beginning of a list of fields is accepted only if it ends with a field,
and then no type in it contains the separator. -/
theorem readFields_prefix {fields parsed : List Field}
    (separable : Separable fields) {count rounds : Nat}
    (accepted : readFields rounds ((encodeFields fields).take count) =
      .ok parsed) :
    ∃ kept, (encodeFields fields).take count =
        encodeFields (fields.take kept) ∧
      ∀ field ∈ fields.take kept, 59 ∉ field.type := by
  induction fields generalizing count rounds parsed with
  | nil => exact ⟨0, List.take_nil, List.forall_mem_nil _⟩
  | cons field fields ih =>
      obtain ⟨noSpace, noName⟩ := separable field List.mem_cons_self
      rw [encodeFields_cons] at accepted ⊢
      by_cases noType : 59 ∈ field.type
      · obtain ⟨left, right, split, absent⟩ :=
          List.eq_append_cons_of_mem noType
        have text : field.encode ++ 59 :: encodeFields fields =
            left ++ 59 :: (right ++ (Field.encodeArray field.arrayLength ++
              32 :: field.name) ++ 59 :: encodeFields fields) := by
          simp only [Field.encode, split, List.append_assoc, List.cons_append]
        rw [text] at accepted ⊢
        rcases readFields_take absent accepted with nothing |
          ⟨_, _, ⟨_, read⟩, _⟩
        · exact ⟨0, nothing, List.forall_mem_nil _⟩
        · have unspaced : splitFirst 32 left = none :=
            splitFirst_eq_none.mpr fun mem =>
              noSpace (split ▸ List.mem_append_left _ mem)
          unfold Field.ofKey at read
          rw [unspaced] at read
          cases read
      · have absent := separator_not_mem_encode noType noName
        rcases readFields_take absent accepted with nothing |
          ⟨more, same, _, _, _, later⟩
        · exact ⟨0, nothing, List.forall_mem_nil _⟩
        · obtain ⟨kept, rest, others⟩ := ih
            (fun other mem => separable other (List.mem_cons_of_mem _ mem))
            later
          refine ⟨kept + 1, ?_, List.forall_mem_cons.mpr ⟨noType, others⟩⟩
          rw [same, rest, List.take_succ_cons, encodeFields_cons]

theorem ofMessage_prefix {format object : MessageFormat} {msgType : UInt8}
    {count : Nat} (noColon : 58 ∉ format.name)
    (separable : Separable format.fields)
    (sized : (format.formatStr.take count).length < 2 ^ 16)
    (accepted : ofMessage (frameBytes msgType (format.formatStr.take count)) =
      .ok object) :
    ∃ kept, format.formatStr.take count =
        formatStr { format with fields := format.fields.take kept } ∧
      ∀ field ∈ format.fields.take kept, 59 ∉ field.type := by
  rw [ofMessage_text sized] at accepted
  unfold formatStr at accepted ⊢
  by_cases short : count ≤ format.name.length
  · have missing : splitFirst 58 (format.name.take count) = none :=
      splitFirst_eq_none.mpr fun mem => noColon (List.mem_of_mem_take mem)
    rw [List.take_append_of_le_length short, missing] at accepted
    cases accepted
  · obtain ⟨more, rfl⟩ : ∃ more, count = format.name.length + (more + 1) :=
      ⟨count - format.name.length - 1, by omega⟩
    rw [List.take_length_add_append, List.take_succ_cons] at accepted ⊢
    rw [splitFirst_append noColon] at accepted
    obtain ⟨_, parsed, _⟩ := bind_eq_ok.mp accepted
    obtain ⟨kept, same, noTypes⟩ := readFields_prefix separable parsed
    exact ⟨kept, by rw [same], noTypes⟩

end MessageFormat

namespace Message

/-- The texts of a message can be told apart again, and an info has the type of
an info or a parameter. -/
def WellFormed : Message → Prop
  | messageInfo info type =>
      (messageInfo info type).Typed ∧ info.field.Encodable
  | messageFormat format =>
      58 ∉ format.name ∧ MessageFormat.FieldsEncodable format.fields
  | parameterDefault parameter => parameter.field.Encodable
  | _ => True

structure SameSection (message other : Message) : Prop where
  definition : message.isDefinition = other.isDefinition
  ends : message.endsHeader = other.endsHeader
  data : message.isData = other.isData

/-- The message with what arrives of its last part. -/
def cut : Message → Message
  | messageInfo info type =>
      messageInfo { info with
        value := arriving info.value
        continued := info.isMulti && info.continued } type
  | parameterDefault parameter =>
      parameterDefault { parameter with value := arriving parameter.value }
  | addLoggedMessage message =>
      addLoggedMessage { message with
        messageName := arriving message.messageName }
  | logging logged => logging { logged with message := arriving logged.message }
  | data sample => data { sample with data := arriving sample.data }
  | message => message

theorem body_cut {message : Message}
    (ordinary : ∀ format, message ≠ messageFormat format) :
    message.cut.body = message.lead ++ arriving message.tail := by
  cases message with
  | messageInfo info type =>
      simp only [cut, body_eq, lead, fixed, tail]
      cases info.isMulti <;> rfl
  | messageFormat format => exact absurd rfl (ordinary format)
  | parameterDefault | addLoggedMessage | logging | data => exact body_eq _
  | dropout | sync => exact (List.append_nil _).symm

theorem cut_encodable {message : Message} (wellFormed : message.WellFormed)
    (needed : message.tailNeeded ≤ (arriving message.tail).length) :
    message.cut.Typed ∧ message.cut.Encodable := by
  cases message with
  | messageInfo info type =>
      refine ⟨wellFormed.1, ?_, wellFormed.2⟩
      simp only [Bool.and_eq_true]
      exact And.left
  | messageFormat format => exact ⟨trivial, wellFormed⟩
  | parameterDefault parameter => exact ⟨trivial, wellFormed⟩
  | addLoggedMessage | logging | data =>
      exact ⟨trivial, List.ne_nil_of_length_pos needed⟩
  | dropout | sync => exact ⟨trivial, trivial⟩

theorem cut_sameSection (message : Message) :
    message.cut.SameSection message ∧ message.cut.msgType = message.msgType ∧
      message.cut.keyLength = message.keyLength := by
  cases message <;> exact ⟨⟨rfl, rfl, rfl⟩, rfl, rfl⟩

/-- What is handed over and accepted is what goes onto the wire for some
message. -/
theorem emitted_wire {message object : Message} {emitted : Bytes}
    (wellFormed : message.WellFormed)
    (returned : message.serialize [] = (.ok (), emitted))
    (accepted : message.reconstruct emitted = .ok object) :
    ∃ wire : WireMessage, wire.toBytes = emitted ∧
      wire.message.SameSection message := by
  obtain ⟨whole, needed⟩ := accepted_sizes returned accepted
  obtain ⟨layout, sized, keyed⟩ := whole_frame returned whole
  by_cases ordinary : ∀ format, message ≠ messageFormat format
  · obtain ⟨typed, encodable⟩ := cut_encodable wellFormed needed
    obtain ⟨sections, msgType, keyLength⟩ := message.cut_sameSection
    have body := body_cut ordinary
    rw [← body, ← msgType] at layout
    exact ⟨⟨message.cut, typed, encodable, by rwa [body], by rwa [keyLength]⟩,
      layout.symm, sections⟩
  · obtain ⟨format, same⟩ := not_forall.mp ordinary
    obtain rfl := Classical.not_not.mp same
    obtain ⟨noColon, encodable⟩ := wellFormed
    simp only [lead, fixed, tail, List.nil_append] at layout sized
    obtain ⟨_, parsed, _⟩ := map_eq_ok accepted
    rw [layout] at parsed
    obtain ⟨kept, text, _⟩ :=
      MessageFormat.ofMessage_prefix noColon encodable.separable sized parsed
    have body : (messageFormat { format with
        fields := format.fields.take kept }).body =
        arriving format.formatStr := by
      rw [body_eq]
      exact text.symm
    rw [← body] at layout
    exact ⟨⟨messageFormat { format with fields := format.fields.take kept },
      trivial, ⟨noColon, fun field mem =>
        encodable field (List.mem_of_mem_take mem)⟩, by rwa [body], keyed⟩,
      layout.symm, ⟨rfl, rfl, rfl⟩⟩

end Message

end UlogCpp
