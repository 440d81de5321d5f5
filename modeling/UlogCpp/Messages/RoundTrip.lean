import UlogCpp.Messages.Access
import UlogCpp.Messages.Message

namespace UlogCpp

/-! Constructing a message from what its serializer has handed over. -/

section Frame

variable {msgType : UInt8} {body : Bytes}

theorem readUInt16_frame (sized : body.length < 2 ^ 16) :
    readUInt16 (frameBytes msgType body) 0 = .ok (UInt16.ofNat body.length) := by
  have layout : frameBytes msgType body =
      [] ++ (leBytes 2 (UInt16.ofNat body.length).toNat ++
        ([msgType] ++ body)) := by
    rw [UInt16.toNat_ofNat_of_lt' sized]
    rfl
  exact readUInt16_at layout rfl

theorem toNat_size (sized : body.length < 2 ^ 16) :
    (UInt16.ofNat body.length).toNat = body.length :=
  UInt16.toNat_ofNat_of_lt' sized

theorem frame_layout {first rest : Bytes} (split : body = first ++ rest) :
    frameBytes msgType body =
      (leBytes 2 body.length ++ [msgType]) ++ (first ++ rest) := by
  rw [← split]
  simp only [frameBytes, List.append_assoc]

end Frame

/-! ## Keys and values -/

theorem readKeyValue_frame {msgType : UInt8} {body before key value : Bytes}
    {fixed : Nat} (keyed : key.length < 2 ^ 8) (sized : body.length < 2 ^ 16)
    (start : fixed = before.length + 1)
    (split : body = (before ++ [UInt8.ofNat key.length]) ++ (key ++ value)) :
    readKeyValue (frameBytes msgType body) (UInt16.ofNat body.length) fixed =
      (Field.ofKey key).map (·, value) := by
  have length : body.length = fixed + key.length + value.length := by
    rw [split, start]
    simp only [List.length_append, List.length_singleton]
    omega
  have keyLen : (UInt8.ofNat key.length).toNat = key.length :=
    UInt8.toNat_ofNat_of_lt' keyed
  have atBefore := @frame_layout msgType body before
    ([UInt8.ofNat key.length] ++ (key ++ (value ++ [])))
    (by rw [split]; simp)
  have atKeyLen := layout_next atBefore
  have atKey := layout_next atKeyLen
  have atValue := layout_next atKey
  have keyLenRead : readUInt8 (frameBytes msgType body) (2 + fixed) =
      .ok (UInt8.ofNat key.length) :=
    readUInt8_at atKeyLen (by simp; omega)
  have keyRead : readBytes (frameBytes msgType body) (3 + fixed)
      key.length = .ok key :=
    readBytes_at atKey (by simp; omega) rfl
  have valueRead : readBytes (frameBytes msgType body)
      (3 + fixed + key.length) (body.length - key.length - fixed) =
      .ok value :=
    readBytes_at atValue (by simp; omega) (by rw [length]; omega)
  unfold readKeyValue
  rw [keyLenRead, ok_bind, toNat_size sized, keyLen,
    throwIf_pass (by rw [length]; omega), ok_bind, keyRead, ok_bind]
  cases Field.ofKey key with
  | error stop => rfl
  | ok field =>
      rw [ok_bind, valueRead]
      rfl

theorem Field.encode_ne_nil (field : Field) : field.encode ≠ [] :=
  List.append_ne_nil_of_right_ne_nil _ (List.cons_ne_nil _ _)

namespace MessageInfo

/-- An info is made of its key and its value, if the key is accepted. -/
theorem ofMessage_key {msgType : UInt8} {body : Bytes} {info : MessageInfo}
    (plain : info.continued = true → info.isMulti = true)
    (keyed : info.field.encode.length < 2 ^ 8)
    (sized : body.length < 2 ^ 16)
    (split : body = ((if info.isMulti then
        [if info.continued then 1 else 0] else []) ++
          [UInt8.ofNat info.field.encode.length]) ++
      (info.field.encode ++ info.value)) :
    ofMessage (frameBytes msgType body) info.isMulti =
      (Field.ofKey info.field.encode).map fun field => { info with field } := by
  have length := congrArg List.length split
  have keyPos := List.length_pos_iff.mpr info.field.encode_ne_nil
  unfold ofMessage
  rw [readUInt16_frame sized, ok_bind]
  obtain ⟨field, value, continued, isMulti⟩ := info
  cases isMulti with
  | true =>
      simp only [if_true, List.length_append, List.length_singleton]
        at split length keyPos ⊢
      have continuedRead : readUInt8 (frameBytes msgType body) 3 =
          .ok (if continued then 1 else 0) :=
        readUInt8_at (frame_layout (split.trans (List.append_assoc _ _ _)))
          (by simp)
      have keyValue := @readKeyValue_frame msgType _ _ _ _ 2 keyed sized rfl
        split
      rw [checkMsgSize_pass (by rw [toNat_size sized]; omega), ok_bind,
        continuedRead, ok_bind, keyValue]
      cases Field.ofKey field.encode <;> cases continued <;> rfl
  | false =>
      have single : continued = false := by
        cases continued with
        | true => exact absurd (plain rfl) nofun
        | false => rfl
      simp only [Bool.false_eq_true, if_false, List.length_append,
        List.length_singleton, List.length_nil] at split length keyPos ⊢
      have keyValue := @readKeyValue_frame msgType _ _ _ _ 1 keyed sized rfl
        split
      rw [checkMsgSize_pass (by rw [toNat_size sized]; omega), ok_bind,
        keyValue, single]
      cases Field.ofKey field.encode <;> rfl

end MessageInfo

theorem ParameterDefault.ofMessage_key {msgType : UInt8} {body : Bytes}
    {parameter : ParameterDefault}
    (keyed : parameter.field.encode.length < 2 ^ 8)
    (sized : body.length < 2 ^ 16)
    (split : body = ([parameter.defaultTypes] ++
        [UInt8.ofNat parameter.field.encode.length]) ++
      (parameter.field.encode ++ parameter.value)) :
    ofMessage (frameBytes msgType body) =
      (Field.ofKey parameter.field.encode).map fun field =>
        { parameter with field } := by
  have length := congrArg List.length split
  have keyPos := List.length_pos_iff.mpr parameter.field.encode_ne_nil
  have typesRead : readUInt8 (frameBytes msgType body) 3 =
      .ok parameter.defaultTypes :=
    readUInt8_at (frame_layout (split.trans (List.append_assoc _ _ _)))
      (by simp)
  have keyValue := @readKeyValue_frame msgType _ _ _ _ 2 keyed sized rfl split
  simp only [List.length_append, List.length_singleton] at length
  unfold ofMessage
  rw [readUInt16_frame sized, ok_bind,
    checkMsgSize_pass (by rw [toNat_size sized]; omega), ok_bind, typesRead,
    ok_bind, keyValue]
  cases Field.ofKey parameter.field.encode <;> rfl

/-! ## Formats -/

namespace MessageFormat

def FieldsEncodable (fields : List Field) : Prop :=
  ∀ field ∈ fields, field.Encodable ∧ 59 ∉ field.type ∧ 59 ∉ field.name

theorem separator_not_mem_encode {field : Field} (noType : 59 ∉ field.type)
    (noName : 59 ∉ field.name) : 59 ∉ field.encode := by
  have noArray : 59 ∉ Field.encodeArray field.arrayLength := by
    unfold Field.encodeArray
    split
    · intro member
      have digit : 59 ∈ decimal field.arrayLength.toNatClampNeg := by
        simpa using member
      have notDigit := isDigit_of_mem_decimal digit
      simp [isDigit] at notDigit
    · simp
  simp [Field.encode, noType, noName, noArray]

theorem encodeFields_cons (field : Field) (fields : List Field) :
    encodeFields (field :: fields) =
      field.encode ++ 59 :: encodeFields fields := by
  simp [encodeFields]

theorem readFields_encodeFields {fields : List Field} {rounds : Nat}
    (encodable : FieldsEncodable fields)
    (enough : (encodeFields fields).length ≤ rounds) :
    readFields rounds (encodeFields fields) = .ok fields := by
  induction fields generalizing rounds with
  | nil => cases rounds <;> rfl
  | cons field fields ih =>
      obtain ⟨encodes, noType, noName⟩ := encodable field List.mem_cons_self
      rw [encodeFields_cons] at enough ⊢
      rw [List.length_append, List.length_cons] at enough
      obtain ⟨rounds, rfl⟩ : ∃ fewer, rounds = fewer + 1 :=
        ⟨rounds - 1, by omega⟩
      have split := splitFirst_append (separator_not_mem_encode noType noName)
        (encodeFields fields)
      obtain ⟨first, text, shape⟩ : ∃ first text,
          field.encode ++ 59 :: encodeFields fields = first :: text :=
        List.exists_cons_of_ne_nil (by simp)
      rw [shape] at split ⊢
      simp only [readFields, split]
      rw [Field.ofKey_encode encodes, ok_bind,
        ih (fun other member => encodable other (List.mem_cons_of_mem _ member))
          (by omega)]
      rfl

theorem ofMessage_text {msgType : UInt8} {text : Bytes}
    (sized : text.length < 2 ^ 16) :
    ofMessage (frameBytes msgType text) =
      match splitFirst 58 text with
      | none => throwParsing "Invalid message format (no :)"
      | some (name, rest) => do
          let fields ← readFields rest.length rest
          return { name, fields } := by
  have textRead : readBytes (frameBytes msgType text) 3
      (UInt16.ofNat text.length).toNat = .ok text :=
    readBytes_at (frame_layout (List.append_nil _).symm) (by simp)
      (by rw [toNat_size sized])
  unfold ofMessage
  rw [readUInt16_frame sized, ok_bind, textRead]
  rfl

theorem ofMessage_frame {msgType : UInt8} {format : MessageFormat}
    (noColon : 58 ∉ format.name) (encodable : FieldsEncodable format.fields)
    (sized : format.formatStr.length < 2 ^ 16) :
    ofMessage (frameBytes msgType format.formatStr) = .ok format := by
  have split : splitFirst 58 format.formatStr =
      some (format.name, encodeFields format.fields) :=
    splitFirst_append noColon _
  rw [ofMessage_text sized]
  simp only [split]
  rw [readFields_encodeFields encodable (Nat.le_refl _)]
  rfl

/-- The fields as they are read back. -/
theorem formatStr_normal (format : MessageFormat) :
    formatStr
      { format with fields := format.fields.map Field.normal } =
      format.formatStr := by
  have same : encodeFields (format.fields.map Field.normal) =
      encodeFields format.fields := by
    unfold encodeFields
    rw [List.flatMap_map]
    congr 1
    funext field
    exact congrArg (· ++ [59]) field.encode_normal
  exact congrArg (format.name ++ 58 :: ·) same

end MessageFormat

/-! ## The other messages -/

section

variable {msgType : UInt8} {body : Bytes}

theorem AddLoggedMessage.ofMessage_frame {message : AddLoggedMessage}
    (nonempty : message.messageName ≠ []) (sized : body.length < 2 ^ 16)
    (split : body = [message.multiId] ++ (leBytes 2 message.msgId.toNat ++
      message.messageName)) :
    ofMessage (frameBytes msgType body) = .ok message := by
  have positive := List.length_pos_iff.mpr nonempty
  have length : body.length = 3 + message.messageName.length := by
    rw [split]
    simp
    omega
  have atMultiId := @frame_layout msgType body [message.multiId]
    (leBytes 2 message.msgId.toNat ++ (message.messageName ++ []))
    (by rw [split, List.append_nil])
  have atMsgId := layout_next atMultiId
  have atName := layout_next atMsgId
  have multiIdRead : readUInt8 (frameBytes msgType body) 3 =
      .ok message.multiId := readUInt8_at atMultiId (by simp)
  have msgIdRead : readUInt16 (frameBytes msgType body) 4 =
      .ok message.msgId := readUInt16_at atMsgId (by simp)
  have nameRead : readBytes (frameBytes msgType body) 6 (body.length - 3) =
      .ok message.messageName :=
    readBytes_at atName (by simp) (by rw [length]; omega)
  unfold ofMessage
  rw [readUInt16_frame sized, ok_bind,
    checkMsgSize_pass (by rw [toNat_size sized]; omega), ok_bind, multiIdRead,
    ok_bind, msgIdRead, ok_bind, toNat_size sized, nameRead]
  rfl

theorem Logging.ofMessage_frame {logging : Logging}
    (nonempty : logging.message ≠ []) (sized : body.length < 2 ^ 16)
    (split : body = [logging.logLevel.code] ++ ((if logging.hasTag then
        leBytes 2 logging.tag.toNat else []) ++
      (leBytes 8 logging.timestamp.toNat ++ logging.message))) :
    ofMessage (frameBytes msgType body) logging.hasTag = .ok logging := by
  have positive := List.length_pos_iff.mpr nonempty
  have length := congrArg List.length split
  have atLevel := @frame_layout msgType body [logging.logLevel.code]
    ((if logging.hasTag then leBytes 2 logging.tag.toNat else []) ++
      (leBytes 8 logging.timestamp.toNat ++ (logging.message ++ [])))
    (by rw [split, List.append_nil])
  have atTag := layout_next atLevel
  have atTimestamp := layout_next atTag
  have atMessage := layout_next atTimestamp
  have levelRead : readUInt8 (frameBytes msgType body) 3 =
      .ok logging.logLevel.code := readUInt8_at atLevel (by simp)
  unfold ofMessage
  rw [readUInt16_frame sized, ok_bind]
  obtain ⟨logLevel, tag, hasTag, timestamp, message, untagged⟩ := logging
  cases hasTag with
  | true =>
      simp only [if_true, List.length_append, List.length_singleton,
        length_leBytes] at split length atTag atTimestamp atMessage positive ⊢
      have tagRead : readUInt16 (frameBytes msgType body) 4 = .ok tag :=
        readUInt16_at atTag (by simp)
      have timestampRead : readUInt64 (frameBytes msgType body) 6 =
          .ok timestamp := readUInt64_at atTimestamp (by simp)
      have textRead : readBytes (frameBytes msgType body) 14
          (body.length - 11) = .ok message :=
        readBytes_at atMessage (by simp) (by rw [length]; omega)
      rw [checkMsgSize_pass (by rw [toNat_size sized]; omega), ok_bind,
        levelRead, ok_bind, tagRead, ok_bind, timestampRead, ok_bind,
        toNat_size sized, textRead, ok_bind, Level.ofCode_code]
      rfl
  | false =>
      simp only [Bool.false_eq_true, if_false, List.nil_append,
        List.length_append, List.length_singleton, length_leBytes]
        at split length atTag atTimestamp atMessage positive ⊢
      have timestampRead : readUInt64 (frameBytes msgType body) 4 =
          .ok timestamp := readUInt64_at atTimestamp (by simp)
      have textRead : readBytes (frameBytes msgType body) 12
          (body.length - 9) = .ok message :=
        readBytes_at atMessage (by simp) (by rw [length]; omega)
      have noTag : tag = 0 := untagged rfl
      subst noTag
      rw [checkMsgSize_pass (by rw [toNat_size sized]; omega), ok_bind,
        levelRead, ok_bind, timestampRead, ok_bind, toNat_size sized,
        textRead, ok_bind, Level.ofCode_code]
      rfl

theorem Data.ofMessage_frame {data : Data} (nonempty : data.data ≠ [])
    (sized : body.length < 2 ^ 16)
    (split : body = leBytes 2 data.msgId.toNat ++ data.data) :
    ofMessage (frameBytes msgType body) = .ok data := by
  have positive := List.length_pos_iff.mpr nonempty
  have length : body.length = 2 + data.data.length := by
    rw [split]
    simp
  have atMsgId := @frame_layout msgType body (leBytes 2 data.msgId.toNat)
    (data.data ++ []) (by rw [split, List.append_nil])
  have atData := layout_next atMsgId
  have msgIdRead : readUInt16 (frameBytes msgType body) 3 = .ok data.msgId :=
    readUInt16_at atMsgId (by simp)
  have dataRead : readBytes (frameBytes msgType body) 5 (body.length - 2) =
      .ok data.data :=
    readBytes_at atData (by simp) (by rw [length]; omega)
  unfold ofMessage
  rw [readUInt16_frame sized, ok_bind,
    checkMsgSize_pass (by rw [toNat_size sized]; omega), ok_bind, msgIdRead,
    ok_bind, toNat_size sized, dataRead]
  rfl

theorem Dropout.ofMessage_frame (dropout : Dropout) :
    ofMessage (frameBytes msgType (leBytes 2 dropout.durationMs.toNat)) =
      .ok dropout := by
  have sized : (leBytes 2 dropout.durationMs.toNat).length < 2 ^ 16 := by
    rw [length_leBytes]
    decide
  have durationRead : readUInt16
      (frameBytes msgType (leBytes 2 dropout.durationMs.toNat)) 3 =
      .ok dropout.durationMs :=
    readUInt16_at (frame_layout (List.append_nil _).symm) (by simp)
  unfold ofMessage
  rw [readUInt16_frame sized, ok_bind,
    checkMsgSize_pass (by rw [toNat_size sized, length_leBytes]), ok_bind,
    durationRead]
  rfl

theorem Sync.ofMessage_frame (sync : Sync) :
    ofMessage (frameBytes msgType kSyncMagicBytes) = .ok sync := by
  have magicRead : readBytes (frameBytes msgType kSyncMagicBytes) 3 8 =
      .ok kSyncMagicBytes :=
    readBytes_at (frame_layout (List.append_nil _).symm) (by simp) (by decide)
  unfold ofMessage
  rw [readUInt16_frame (by decide), ok_bind, checkMsgSize_pass (by decide),
    ok_bind, magicRead, ok_bind, throwIf_pass (by simp), ok_bind]
  rfl

end

namespace Message

def Encodable : Message → Prop
  | messageInfo info _ =>
      (info.continued = true → info.isMulti = true) ∧ info.field.Encodable
  | messageFormat format =>
      58 ∉ format.name ∧ MessageFormat.FieldsEncodable format.fields
  | parameterDefault parameter => parameter.field.Encodable
  | addLoggedMessage message => message.messageName ≠ []
  | logging logged => logged.message ≠ []
  | data sample => sample.data ≠ []
  | dropout _ | sync _ => True

/-- Decoding undoes encoding for all messages that fit their size field. -/
theorem reconstruct_toBytes {message : Message} (encodable : message.Encodable)
    (sized : message.body.length < 2 ^ 16)
    (keyed : message.keyLength < 2 ^ 8) :
    message.reconstruct message.toBytes = .ok message := by
  cases message with
  | messageInfo info type =>
      have decoded := @MessageInfo.ofMessage_key
        (messageInfo info type).msgType.code _ info encodable.1 keyed sized (by
          simp only [body, fixed, pieces]
          cases info.isMulti <;> simp)
      rw [Field.ofKey_encode encodable.2] at decoded
      exact congrArg (Except.map _) decoded
  | messageFormat format =>
      have split : (messageFormat format).body = format.formatStr :=
        List.append_nil _
      have decoded := @MessageFormat.ofMessage_frame
        ULogMessageType.format.code format encodable.1 encodable.2
        (split ▸ sized)
      unfold toBytes
      rw [split]
      exact congrArg (Except.map _) decoded
  | parameterDefault parameter =>
      have decoded := @ParameterDefault.ofMessage_key
        ULogMessageType.parameterDefault.code _ parameter keyed sized
        (by simp [body, fixed, pieces])
      rw [Field.ofKey_encode encodable] at decoded
      exact congrArg (Except.map _) decoded
  | addLoggedMessage message =>
      have decoded := @AddLoggedMessage.ofMessage_frame
        ULogMessageType.addLoggedMsg.code _ message encodable sized
        (by simp [body, fixed, pieces])
      exact congrArg (Except.map _) decoded
  | logging logged =>
      have decoded := @Logging.ofMessage_frame
        (logging logged).msgType.code _ logged encodable sized (by
          simp only [body, fixed, pieces]
          cases logged.hasTag <;> simp)
      exact congrArg (Except.map _) decoded
  | data sample =>
      have decoded := @Data.ofMessage_frame ULogMessageType.data.code _ sample
        encodable sized (by simp [body, fixed, pieces])
      exact congrArg (Except.map _) decoded
  | dropout gap =>
      have split : (dropout gap).body = leBytes 2 gap.durationMs.toNat :=
        List.append_nil _
      unfold toBytes
      rw [split]
      exact congrArg (Except.map _) (Dropout.ofMessage_frame gap)
  | sync mark =>
      have split : (sync mark).body = Sync.kSyncMagicBytes :=
        List.append_nil _
      unfold toBytes
      rw [split]
      have decoded := @Sync.ofMessage_frame ULogMessageType.sync.code mark
      exact congrArg (Except.map _) decoded

end Message

/-! ## What a constructor can make of a message

The size field bounds everything that a constructor returns. -/

def Yields (property : α → Prop) (result : Except Stop α) : Prop :=
  ∀ value, result = .ok value → property value

namespace Yields

variable {property : α → Prop} {result : Except Stop α}

theorem ok {value : α} (holds : property value) :
    Yields property (.ok value) := by
  intro other returned
  cases returned
  exact holds

theorem bind {after : β → Prop} {next : α → Except Stop β}
    (first : Yields property result)
    (rest : ∀ value, property value → Yields after (next value)) :
    Yields after (result >>= next) := by
  intro value returned
  cases result with
  | error stop => cases returned
  | ok middle => exact rest middle (first middle rfl) value returned

theorem any (result : Except Stop α) : Yields (fun _ => True) result :=
  fun _ _ => trivial

theorem readBytes (object : Bytes) (offset length : Int) :
    Yields (fun bytes => (bytes.length : Int) = length)
      (readBytes object offset length) :=
  fun _ returned => (readBytes_length returned).1

end Yields

theorem Field.ofKey_yields (key : Bytes) :
    Yields (fun field => field.encode.length ≤ key.length + 13)
      (Field.ofKey key) := by
  intro field returned
  have bound : field.type.length + field.name.length ≤ key.length := by
    unfold Field.ofKey at returned
    split at returned
    next => cases returned
    next keyArray name atSpace =>
      have keyLength := congrArg List.length (splitFirst_eq_some.mp atSpace).1
      rw [List.length_append, List.length_cons] at keyLength
      split at returned
      next =>
        cases returned
        simp only
        omega
      next type afterBracket atBracket =>
        have arrayLength :=
          congrArg List.length (splitFirst_eq_some.mp atBracket).1
        rw [List.length_append, List.length_cons] at arrayLength
        split at returned
        next => cases returned
        next last lastEq =>
          split at returned
          next =>
            cases converted : stoi afterBracket with
            | error stop =>
                rw [converted] at returned
                cases returned
            | ok value =>
                rw [converted] at returned
                cases returned
                simp only
                omega
          next => cases returned
  have encoded := field.length_encode_le
  omega

theorem readKeyValue_yields (message : Bytes) (msgSize : UInt16) (fixed : Nat) :
    Yields (fun parts => parts.1.encode.length ≤ 268 ∧
        parts.2.length ≤ 65535)
      (readKeyValue message msgSize fixed) := by
  unfold readKeyValue
  refine .bind (.any _) fun keyLen _ => .bind (.any _) fun _ _ =>
    .bind (.readBytes _ _ _) fun key keyLength =>
      .bind (Field.ofKey_yields key) fun field encoded =>
        .bind (.readBytes _ _ _) fun value valueLength => .ok ⟨?_, ?_⟩
  · have small := keyLen.toNat_lt
    simp only
    omega
  · have small := msgSize.toNat_lt
    simp only
    omega

theorem MessageInfo.ofMessage_yields (message : Bytes) (isMulti : Bool) :
    Yields (fun info => info.field.encode.length ≤ 268 ∧
        info.value.length ≤ 65535)
      (MessageInfo.ofMessage message isMulti) := by
  unfold MessageInfo.ofMessage
  refine .bind (.any _) fun msgSize _ => ?_
  cases isMulti with
  | true =>
      exact .bind (.any _) fun _ _ => .bind (.any _) fun _ _ =>
        .bind (readKeyValue_yields _ _ _) fun _ bounds => .ok bounds
  | false =>
      exact .bind (.any _) fun _ _ =>
        .bind (readKeyValue_yields _ _ _) fun _ bounds => .ok bounds

theorem MessageInfo.ofMessage_isMulti (message : Bytes) (isMulti : Bool) :
    Yields (fun info => info.isMulti = isMulti) (ofMessage message isMulti) := by
  unfold ofMessage
  cases isMulti with
  | true =>
      exact .bind (.any _) fun _ _ => .bind (.any _) fun _ _ =>
        .bind (.any _) fun _ _ => .bind (.any _) fun _ _ => .ok rfl
  | false =>
      exact .bind (.any _) fun _ _ => .bind (.any _) fun _ _ =>
        .bind (.any _) fun _ _ => .ok rfl

theorem MessageFormat.readFields_yields (rounds : Nat) (text : Bytes) :
    Yields (fun fields => (encodeFields fields).length ≤ 14 * text.length)
      (readFields rounds text) := by
  induction rounds generalizing text with
  | zero =>
      cases text with
      | nil => exact .ok (Nat.le_refl _)
      | cons => exact nofun
  | succ rounds ih =>
      cases text with
      | nil => exact .ok (Nat.le_refl _)
      | cons byte text =>
          unfold readFields
          split
          next => exact nofun
          next piece rest split =>
            have length := congrArg List.length (splitFirst_eq_some.mp split).1
            simp only [List.length_append, List.length_cons] at length
            refine .bind (Field.ofKey_yields piece) fun field encoded =>
              .bind (ih rest) fun fields bound => .ok ?_
            simp only [encodeFields, List.flatMap_cons, List.length_append,
              List.length_cons, List.length_nil] at bound ⊢
            omega

theorem MessageFormat.ofMessage_yields (message : Bytes) :
    Yields (fun format => format.formatStr.length < 2 ^ 31)
      (MessageFormat.ofMessage message) := by
  unfold MessageFormat.ofMessage
  refine .bind (.any _) fun msgSize _ => .bind (.readBytes _ _ _)
    fun text textLength => ?_
  split
  next => exact nofun
  next name rest split =>
    have length := congrArg List.length (splitFirst_eq_some.mp split).1
    rw [List.length_append, List.length_cons] at length
    refine .bind (readFields_yields _ rest) fun fields bound => .ok ?_
    have small := msgSize.toNat_lt
    simp only [formatStr, List.length_append, List.length_cons]
    omega

theorem ParameterDefault.ofMessage_yields (message : Bytes) :
    Yields (fun parameter => parameter.field.encode.length ≤ 268 ∧
        parameter.value.length ≤ 65535)
      (ParameterDefault.ofMessage message) := by
  unfold ParameterDefault.ofMessage
  exact .bind (.any _) fun _ _ => .bind (.any _) fun _ _ =>
    .bind (.any _) fun _ _ =>
      .bind (readKeyValue_yields _ _ _) fun _ bounds => .ok bounds

theorem AddLoggedMessage.ofMessage_yields (message : Bytes) :
    Yields (fun added => added.messageName.length ≤ 65535)
      (AddLoggedMessage.ofMessage message) := by
  unfold AddLoggedMessage.ofMessage
  refine .bind (.any _) fun msgSize _ => .bind (.any _) fun _ _ =>
    .bind (.any _) fun _ _ => .bind (.any _) fun _ _ =>
      .bind (.readBytes _ _ _) fun name length => .ok ?_
  have small := msgSize.toNat_lt
  simp only
  omega

theorem Logging.ofMessage_yields (message : Bytes) (isTagged : Bool) :
    Yields (fun logged => logged.message.length ≤ 65535)
      (Logging.ofMessage message isTagged) := by
  unfold Logging.ofMessage
  refine .bind (.any _) fun msgSize _ => ?_
  have small := msgSize.toNat_lt
  cases isTagged with
  | true =>
      refine .bind (.any _) fun _ _ => .bind (.any _) fun _ _ =>
        .bind (.any _) fun _ _ => .bind (.any _) fun _ _ =>
          .bind (.readBytes _ _ _) fun text length => .ok ?_
      simp only
      omega
  | false =>
      refine .bind (.any _) fun _ _ => .bind (.any _) fun _ _ =>
        .bind (.any _) fun _ _ => .bind (.readBytes _ _ _)
          fun text length => .ok ?_
      simp only
      omega

theorem Data.ofMessage_yields (message : Bytes) :
    Yields (fun sample => sample.data.length ≤ 65535)
      (Data.ofMessage message) := by
  unfold Data.ofMessage
  refine .bind (.any _) fun msgSize _ => .bind (.any _) fun _ _ =>
    .bind (.any _) fun _ _ => .bind (.readBytes _ _ _)
      fun bytes length => .ok ?_
  have small := msgSize.toNat_lt
  simp only
  omega

theorem map_eq_ok {result : Except Stop α} {wrap : α → β} {value : β}
    (returned : result.map wrap = .ok value) :
    ∃ inner, result = .ok inner ∧ wrap inner = value := by
  cases result with
  | error stop => cases returned
  | ok inner =>
      cases returned
      exact ⟨inner, rfl, rfl⟩

namespace Message

end Message

end UlogCpp
