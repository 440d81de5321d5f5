import UlogCpp.Messages.Field

namespace UlogCpp

/-! The message classes of `messages.hpp`: the constructors that parse a
message and the serializers. A constructor is given exactly the bytes of its
message, so that an access to anything else is out of bounds. -/

def intOfSize (size : Nat) : Int32 := Int32.ofNat size

/-- A program that serializes, over the bytes that its `DataWriteCB` has been
given so far. -/
abbrev Emit := Exec Exception Bytes Unit

/-- `writer(data, length)`: the callback takes the length as an `int`. What it
does with a negative one is up to it; that is not modelled, and adds nothing. -/
def write (data : Bytes) (length : Int32) : Emit :=
  Exec.modify fun output => output ++ data.take length.toNatClampNeg

def messageHeader (msgSize : UInt16) (msgType : ULogMessageType) : Bytes :=
  leBytes 2 msgSize.toNat ++ [msgType.code]

/-- The shape that the serializers share: the size is computed as an `int` and
checked, then the struct with its fixed part and each of the variable pieces
are handed to the callback. -/
def emitMessage (msgType : ULogMessageType) (fixed : Bytes)
    (pieces : List Bytes) (keyLength : Nat) : Emit := do
  let msgSize := intOfSize (fixed.length + pieces.flatten.length)
  if 65535 < msgSize.toInt ∨ 255 < keyLength then
    Exec.throw (.parsing (ascii "message too long"))
  else do
    let header := messageHeader msgSize.toUInt32.toUInt16 msgType ++ fixed
    write header (intOfSize header.length)
    pieces.forM fun piece => write piece (intOfSize piece.length)

/-- `CHECK_MSG_SIZE` -/
def checkMsgSize (size : UInt16) (minRequired : Nat) : Except Stop Unit :=
  throwIf (size.toNat < minRequired) "message too short"

theorem checkMsgSize_pass {size : UInt16} {minRequired : Nat}
    (enough : minRequired ≤ size.toNat) :
    checkMsgSize size minRequired = .ok () :=
  throwIf_pass (Nat.not_lt_of_le enough) _

/-- The part that three constructors have in common: a key of `key_len` bytes
is split off, after `fixed` bytes of which `key_len` is the last, and the rest
of the message is the value. -/
def readKeyValue (msg : Bytes) (msgSize : UInt16) (fixed : Nat) :
    Except Stop (Field × Bytes) := do
  let keyLen ← readUInt8 msg (2 + fixed)
  throwIf ((msgSize.toNat : Int) - fixed < keyLen.toNat) "Key too long"
  let key ← readBytes msg (3 + fixed) keyLen.toNat
  let field ← Field.ofKey key
  let value ← readBytes msg (3 + fixed + keyLen.toNat)
    (msgSize.toNat - keyLen.toNat - fixed)
  return (field, value)

/-! ## File header -/

structure FileHeader where
  header : UlogFileHeader
  flagBits : UlogMessageFlagBits
  hasFlagBits : Bool
  deriving DecidableEq

def UlogMessageFlagBits.zero : UlogMessageFlagBits where
  msgSize := 0
  msgType := ULogMessageType.flagBits.code
  compatFlags := .replicate 8 0
  incompatFlags := .replicate 8 0
  appendedOffsets := .replicate 3 0

namespace FileHeader

def ofFlagBits (header : UlogFileHeader) (flagBits : UlogMessageFlagBits) :
    FileHeader :=
  { header, flagBits, hasFlagBits := true }

def ofHeader (header : UlogFileHeader) : FileHeader :=
  { header, flagBits := .zero, hasFlagBits := false }

/-- `FileHeader(uint64_t timestamp, bool has_default_parameters)` -/
def ofTimestamp (timestamp : UInt64) (hasDefaultParameters : Bool) :
    FileHeader where
  header := { magic := ⟨ulogFileMagicBytes ++ [1], rfl⟩, timestamp }
  flagBits :=
    { UlogMessageFlagBits.zero with
      msgSize := 40
      compatFlags :=
        if hasDefaultParameters then
          ulogCompatFlag0DefaultParametersMask ::ᵥ .replicate 7 0
        else .replicate 8 0 }
  hasFlagBits := true

def serialize (fileHeader : FileHeader) : Emit := do
  write fileHeader.header.toBytes (intOfSize UlogFileHeader.size)
  if fileHeader.hasFlagBits then
    write { fileHeader.flagBits with msgSize := 40 }.toBytes
      (intOfSize UlogMessageFlagBits.size)
  else pure ()

end FileHeader

/-! ## Info and parameter -/

structure MessageInfo where
  field : Field
  value : Bytes
  continued : Bool
  isMulti : Bool
  deriving DecidableEq

abbrev Parameter := MessageInfo

namespace MessageInfo

def ofMessage (msg : Bytes) (isMulti : Bool) : Except Stop MessageInfo := do
  let msgSize ← readUInt16 msg 0
  if isMulti then
    checkMsgSize msgSize 3
    let isContinued ← readUInt8 msg 3
    let (field, value) ← readKeyValue msg msgSize 2
    return { field, value, continued := isContinued != 0, isMulti }
  else
    checkMsgSize msgSize 2
    let (field, value) ← readKeyValue msg msgSize 1
    return { field, value, continued := false, isMulti }

def ofInt32 (key : Bytes) (value : Int32) : MessageInfo where
  field := { type := ascii "int32_t", name := key }
  value := leBytes 4 value.toUInt32.toNat
  continued := false
  isMulti := false

/-- A `float` is given by its bits. -/
def ofFloat (key : Bytes) (bits : UInt32) : MessageInfo where
  field := { type := ascii "float", name := key }
  value := leBytes 4 bits.toNat
  continued := false
  isMulti := false

def ofString (key value : Bytes) : MessageInfo where
  field :=
    { type := ascii "char", name := key, arrayLength := intOfSize value.length }
  value := value
  continued := false
  isMulti := false

/-- `MessageInfo::serialize`; a multi info ignores `type`. -/
def serialize (info : MessageInfo) (type : ULogMessageType) : Emit :=
  let encoded := info.field.encode
  if info.isMulti then
    emitMessage .infoMultiple
      [if info.continued then 1 else 0, UInt8.ofNat encoded.length]
      [encoded, info.value] encoded.length
  else
    emitMessage type [UInt8.ofNat encoded.length] [encoded, info.value]
      encoded.length

end MessageInfo

/-! ## Format -/

structure MessageFormat where
  name : Bytes
  fields : List Field
  deriving DecidableEq

namespace MessageFormat

/-- The loop of the constructor, one round for each `;`. -/
def readFields : Nat → Bytes → Except Stop (List Field)
  | _, [] => .ok []
  | 0, _ :: _ => .error .outOfFuel
  | rounds + 1, byte :: text =>
      match splitFirst 59 (byte :: text) with -- semicolon
      | none => throwParsing "Invalid message format (no ;)"
      | some (piece, rest) => do
          let field ← Field.ofKey piece
          let fields ← readFields rounds rest
          return field :: fields

def ofMessage (msg : Bytes) : Except Stop MessageFormat := do
  let msgSize ← readUInt16 msg 0
  let formatStr ← readBytes msg 3 msgSize.toNat
  match splitFirst 58 formatStr with -- colon
  | none => throwParsing "Invalid message format (no :)"
  | some (name, rest) => do
      let fields ← readFields rest.length rest
      return { name, fields }

def encodeFields (fields : List Field) : Bytes :=
  fields.flatMap fun field => field.encode ++ [59]

def formatStr (format : MessageFormat) : Bytes :=
  format.name ++ 58 :: encodeFields format.fields

def serialize (format : MessageFormat) : Emit :=
  emitMessage .format [] [format.formatStr] 0

end MessageFormat

/-! ## Parameter default -/

structure ParameterDefault where
  field : Field
  value : Bytes
  defaultTypes : UInt8
  deriving DecidableEq

namespace ParameterDefault

def ofMessage (msg : Bytes) : Except Stop ParameterDefault := do
  let msgSize ← readUInt16 msg 0
  checkMsgSize msgSize 3
  let defaultTypes ← readUInt8 msg 3
  let (field, value) ← readKeyValue msg msgSize 2
  return { field, value, defaultTypes }

def serialize (parameter : ParameterDefault) : Emit :=
  let encoded := parameter.field.encode
  emitMessage .parameterDefault
    [parameter.defaultTypes, UInt8.ofNat encoded.length]
    [encoded, parameter.value] encoded.length

end ParameterDefault

/-! ## Subscriptions, data, dropouts and sync -/

structure AddLoggedMessage where
  multiId : UInt8
  msgId : UInt16
  messageName : Bytes
  deriving DecidableEq

namespace AddLoggedMessage

def ofMessage (msg : Bytes) : Except Stop AddLoggedMessage := do
  let msgSize ← readUInt16 msg 0
  checkMsgSize msgSize 4
  let multiId ← readUInt8 msg 3
  let msgId ← readUInt16 msg 4
  let messageName ← readBytes msg 6 (msgSize.toNat - 3)
  return { multiId, msgId, messageName }

def serialize (message : AddLoggedMessage) : Emit :=
  emitMessage .addLoggedMsg ([message.multiId] ++ leBytes 2 message.msgId.toNat)
    [message.messageName] 0

end AddLoggedMessage

inductive Level where
  | emergency
  | alert
  | critical
  | error
  | warning
  | notice
  | info
  | debug
  deriving DecidableEq

namespace Level

def code : Level → UInt8
  | emergency => 48
  | alert => 49
  | critical => 50
  | error => 51
  | warning => 52
  | notice => 53
  | info => 54
  | debug => 55

/-- The level of a byte; what is not a level is taken as `Debug`. -/
def ofCode (byte : UInt8) : Level :=
  match byte.toNat with
  | 48 => emergency
  | 49 => alert
  | 50 => critical
  | 51 => error
  | 52 => warning
  | 53 => notice
  | 54 => info
  | _ => debug

@[simp] theorem ofCode_code (level : Level) : ofCode level.code = level := by
  cases level <;> rfl

end Level

/-- A text message. Only the tagged form carries a tag. -/
structure Logging where
  logLevel : Level
  tag : UInt16
  hasTag : Bool
  timestamp : UInt64
  message : Bytes
  untagged : hasTag = false → tag = 0
  deriving DecidableEq

/-- `Logging(level, message, timestamp)` -/
abbrev Logging.ofText (level : Level) (message : Bytes) (timestamp : UInt64) :
    Logging where
  logLevel := level
  tag := 0
  hasTag := false
  timestamp := timestamp
  message := message
  untagged _ := rfl

namespace Logging

def ofMessage (msg : Bytes) (isTagged : Bool) : Except Stop Logging := do
  let msgSize ← readUInt16 msg 0
  if isTagged then
    checkMsgSize msgSize 12
    let logLevel ← readUInt8 msg 3
    let tag ← readUInt16 msg 4
    let timestamp ← readUInt64 msg 6
    let message ← readBytes msg 14 (msgSize.toNat - 11)
    return {
      logLevel := .ofCode logLevel, tag, hasTag := true, timestamp, message
      untagged := by simp }
  else
    checkMsgSize msgSize 10
    let logLevel ← readUInt8 msg 3
    let timestamp ← readUInt64 msg 4
    let message ← readBytes msg 12 (msgSize.toNat - 9)
    return ofText (.ofCode logLevel) message timestamp

def serialize (logging : Logging) : Emit :=
  if logging.hasTag then
    emitMessage .loggingTagged
      ([logging.logLevel.code] ++ (leBytes 2 logging.tag.toNat ++
        leBytes 8 logging.timestamp.toNat))
      [logging.message] 0
  else
    emitMessage .logging
      ([logging.logLevel.code] ++ leBytes 8 logging.timestamp.toNat)
      [logging.message] 0

end Logging

structure Data where
  msgId : UInt16
  data : Bytes
  deriving DecidableEq

namespace Data

def ofMessage (msg : Bytes) : Except Stop Data := do
  let msgSize ← readUInt16 msg 0
  checkMsgSize msgSize 3
  let msgId ← readUInt16 msg 3
  let data ← readBytes msg 5 (msgSize.toNat - 2)
  return { msgId, data }

def serialize (data : Data) : Emit :=
  emitMessage .data (leBytes 2 data.msgId.toNat) [data.data] 0

end Data

structure Dropout where
  durationMs : UInt16
  deriving DecidableEq

namespace Dropout

def ofMessage (msg : Bytes) : Except Stop Dropout := do
  let msgSize ← readUInt16 msg 0
  checkMsgSize msgSize 2
  let durationMs ← readUInt16 msg 3
  return { durationMs }

/-- The size is that of the struct, so there is nothing to check. -/
def serialize (dropout : Dropout) : Emit :=
  write (messageHeader 2 .dropout ++ leBytes 2 dropout.durationMs.toNat)
    (intOfSize 5)

end Dropout

structure Sync where
  deriving DecidableEq

namespace Sync

def kSyncMagicBytes : Bytes :=
  [0x2F, 0x73, 0x13, 0x20, 0x25, 0x0C, 0xBB, 0x12]

def ofMessage (msg : Bytes) : Except Stop Sync := do
  let msgSize ← readUInt16 msg 0
  checkMsgSize msgSize 8
  let syncMagic ← readBytes msg 3 8
  throwIf (syncMagic ≠ kSyncMagicBytes) "Invalid sync magic bytes"
  return {}

def serialize (_ : Sync) : Emit :=
  write (messageHeader 8 .sync ++ kSyncMagicBytes) (intOfSize 11)

end Sync

end UlogCpp
