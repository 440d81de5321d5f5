import UlogCpp.Messages.Frame
import UlogCpp.Messages.Model

namespace UlogCpp

/-! ## What serializers hand over -/

section Emission

theorem toInt_intOfSize {size : Nat} (small : size < 2 ^ 31) :
    (intOfSize size).toInt = size :=
  Int32.toInt_ofNat_of_lt small

theorem toNatClampNeg_intOfSize {size : Nat} (small : size < 2 ^ 31) :
    (intOfSize size).toNatClampNeg = size := by
  rw [← Int32.toNat_toInt, toInt_intOfSize small, Int.toNat_natCast]

theorem write_apply {data : Bytes} (small : data.length < 2 ^ 31)
    (output : Bytes) :
    write data (intOfSize data.length) output = (.ok (), output ++ data) := by
  unfold write
  rw [Exec.modify_apply, toNatClampNeg_intOfSize small, List.take_length]

theorem writePieces_apply {pieces : List Bytes}
    (small : pieces.flatten.length < 2 ^ 31) (output : Bytes) :
    (pieces.forM fun piece => write piece (intOfSize piece.length)) output =
      (.ok (), output ++ pieces.flatten) := by
  induction pieces generalizing output with
  | nil => exact congrArg _ (List.append_nil output).symm
  | cons piece pieces ih =>
      simp only [List.flatten_cons, List.length_append] at small
      have rest := ih (by omega) (output ++ piece)
      rw [List.append_assoc, ← List.flatten_cons] at rest
      exact (Exec.bind_ok (write_apply (by omega) output) _).trans rest

def frameBytes (msgType : UInt8) (body : Bytes) : Bytes :=
  leBytes 2 body.length ++ ([msgType] ++ body)

def messageTooLong : Exception := .parsing (ascii "message too long")

theorem size_narrowed (size : Nat) :
    (intOfSize size).toUInt32.toUInt16.toNat = size % 2 ^ 16 := by
  have wide : (intOfSize size).toUInt32.toNat = size % 2 ^ 32 :=
    UInt32.toNat_ofNat'
  rw [UInt32.toNat_toUInt16, wide]
  omega

/-- Below 2^31 bytes the checks of the serializers mean what they say. -/
theorem emitMessage_apply {msgType : ULogMessageType} {fixed : Bytes}
    {pieces : List Bytes} {keyLength : Nat}
    (small : (fixed ++ pieces.flatten).length < 2 ^ 31) (output : Bytes) :
    emitMessage msgType fixed pieces keyLength output =
      if 65535 < (fixed ++ pieces.flatten).length ∨ 255 < keyLength then
        (.error messageTooLong, output)
      else (.ok (),
        output ++ frameBytes msgType.code (fixed ++ pieces.flatten)) := by
  rw [List.length_append] at small ⊢
  unfold emitMessage
  simp only [toInt_intOfSize small]
  by_cases long : 65535 < fixed.length + pieces.flatten.length ∨ 255 < keyLength
  · rw [if_pos long, if_pos (by omega)]
    rfl
  · have sized : fixed.length + pieces.flatten.length < 2 ^ 16 := by omega
    have header : messageHeader
        (intOfSize (fixed.length + pieces.flatten.length)).toUInt32.toUInt16
        msgType =
        leBytes 2 (fixed.length + pieces.flatten.length) ++ [msgType.code] := by
      rw [messageHeader, size_narrowed, Nat.mod_eq_of_lt sized]
    rw [if_neg long, if_neg (by omega), header, Exec.bind_ok (write_apply
      (by simp; omega) output), writePieces_apply (by omega)]
    simp only [frameBytes, List.length_append, List.append_assoc]

end Emission

/-! ## All message classes -/

/-- An object of one of the message classes. An info comes with the `type`
argument of its serializer, which tells infos and parameters apart. -/
inductive Message where
  | messageInfo (messageInfo : MessageInfo) (type : ULogMessageType)
  | messageFormat (messageFormat : MessageFormat)
  | parameterDefault (parameterDefault : ParameterDefault)
  | addLoggedMessage (addLoggedMessage : AddLoggedMessage)
  | logging (logging : Logging)
  | data (data : Data)
  | dropout (dropout : Dropout)
  | sync (sync : Sync)
  deriving DecidableEq

namespace Message

def serialize : Message → Emit
  | messageInfo info type => info.serialize type
  | messageFormat format => format.serialize
  | parameterDefault parameter => parameter.serialize
  | addLoggedMessage message => message.serialize
  | logging logged => logged.serialize
  | data sample => sample.serialize
  | dropout gap => gap.serialize
  | sync mark => mark.serialize

/-- Construct an object of the same class, with the same argument `is_multi` or
`is_tagged`, from the bytes of a message. -/
def reconstruct (message : Message) (bytes : Bytes) : Except Stop Message :=
  match message with
  | messageInfo info type =>
      (MessageInfo.ofMessage bytes info.isMulti).map (messageInfo · type)
  | messageFormat _ => (MessageFormat.ofMessage bytes).map messageFormat
  | parameterDefault _ => (ParameterDefault.ofMessage bytes).map parameterDefault
  | addLoggedMessage _ => (AddLoggedMessage.ofMessage bytes).map addLoggedMessage
  | logging logged => (Logging.ofMessage bytes logged.hasTag).map logging
  | data _ => (Data.ofMessage bytes).map data
  | dropout _ => (Dropout.ofMessage bytes).map dropout
  | sync _ => (Sync.ofMessage bytes).map sync

def msgType : Message → ULogMessageType
  | messageInfo info type => if info.isMulti then .infoMultiple else type
  | messageFormat _ => .format
  | parameterDefault _ => .parameterDefault
  | addLoggedMessage _ => .addLoggedMsg
  | logging logged => if logged.hasTag then .loggingTagged else .logging
  | data _ => .data
  | dropout _ => .dropout
  | sync _ => .sync

def fixed : Message → Bytes
  | messageInfo info _ =>
      if info.isMulti then
        [if info.continued then 1 else 0,
          UInt8.ofNat info.field.encode.length]
      else [UInt8.ofNat info.field.encode.length]
  | messageFormat _ => []
  | parameterDefault parameter =>
      [parameter.defaultTypes, UInt8.ofNat parameter.field.encode.length]
  | addLoggedMessage message =>
      [message.multiId] ++ leBytes 2 message.msgId.toNat
  | logging logged =>
      if logged.hasTag then
        [logged.logLevel.code] ++ (leBytes 2 logged.tag.toNat ++
          leBytes 8 logged.timestamp.toNat)
      else [logged.logLevel.code] ++ leBytes 8 logged.timestamp.toNat
  | data sample => leBytes 2 sample.msgId.toNat
  | dropout gap => leBytes 2 gap.durationMs.toNat
  | sync _ => Sync.kSyncMagicBytes

def pieces : Message → List Bytes
  | messageInfo info _ => [info.field.encode, info.value]
  | messageFormat format => [format.formatStr]
  | parameterDefault parameter => [parameter.field.encode, parameter.value]
  | addLoggedMessage message => [message.messageName]
  | logging logged => [logged.message]
  | data sample => [sample.data]
  | dropout _ | sync _ => []

def keyLength : Message → Nat
  | messageInfo info _ => info.field.encode.length
  | parameterDefault parameter => parameter.field.encode.length
  | _ => 0

def body (message : Message) : Bytes := message.fixed ++ message.pieces.flatten

def toBytes (message : Message) : Bytes :=
  frameBytes message.msgType.code message.body

theorem serialize_eq (message : Message) :
    message.serialize =
      emitMessage message.msgType message.fixed message.pieces
        message.keyLength := by
  cases message with
  | messageInfo info type =>
      simp only [serialize, MessageInfo.serialize, msgType, fixed, pieces,
        keyLength]
      cases info.isMulti <;> rfl
  | logging logged =>
      simp only [serialize, Logging.serialize, msgType, fixed, pieces,
        keyLength]
      cases logged.hasTag <;> rfl
  | messageFormat | parameterDefault | addLoggedMessage | data => rfl
  | dropout gap =>
      funext output
      have emitted := @emitMessage_apply .dropout
        (leBytes 2 gap.durationMs.toNat) [] 0 (by simp) output
      simp only [serialize, msgType, fixed, pieces, keyLength]
      rw [emitted, if_neg (by simp)]
      rfl
  | sync mark =>
      funext output
      have emitted := @emitMessage_apply .sync Sync.kSyncMagicBytes [] 0
        (by decide) output
      simp only [serialize, msgType, fixed, pieces, keyLength]
      rw [emitted, if_neg (by decide)]
      rfl

/-- A serializer that does not throw, of a message below 2^31 bytes, hands over
the bytes of the message. -/
theorem serialize_ok {message : Message} {before emitted : Bytes}
    (small : message.body.length < 2 ^ 31)
    (returned : message.serialize before = (.ok (), emitted)) :
    emitted = before ++ message.toBytes ∧ message.body.length < 2 ^ 16 ∧
      message.keyLength < 2 ^ 8 := by
  rw [serialize_eq, emitMessage_apply small] at returned
  split at returned
  next => cases returned
  next fits =>
    cases returned
    refine ⟨rfl, ?_, by omega⟩
    simp only [body]
    omega

theorem serialize_fits {message : Message} (before : Bytes)
    (sized : message.body.length < 2 ^ 16) (keyed : message.keyLength < 2 ^ 8) :
    message.serialize before = (.ok (), before ++ message.toBytes) := by
  have small : message.body.length < 2 ^ 31 := by omega
  rw [serialize_eq, emitMessage_apply small, if_neg]
  · rfl
  · simp only [body] at sized
    omega

end Message

end UlogCpp
