import UlogCpp.Data.Map
import UlogCpp.Writer.Model

namespace UlogCpp

/-! `SimpleWriter`, the writer that checks how it is used. -/

namespace SimpleWriter

structure Format where
  messageSize : UInt32
  deriving DecidableEq

structure Subscription where
  messageSize : UInt32
  deriving DecidableEq

end SimpleWriter

structure SimpleWriter where
  writer : Writer
  headerComplete : Bool := false
  formats : Map Bytes SimpleWriter.Format := ∅
  subscriptions : List SimpleWriter.Subscription := []

namespace SimpleWriter

abbrev Method := Exec Exception SimpleWriter

/-- `if (condition) throw UsageException(reason)` -/
def throwUsageIf (condition : Prop) [Decidable condition] (reason : Bytes) :
    Method Unit :=
  if condition then Exec.throw (.usage reason) else pure ()

def onWriter (handle : Writer.Handle) : Method Unit :=
  Exec.focus SimpleWriter.writer (fun writer self => { self with writer }) handle

/-- The values for which the templates are meant: a `std::string`, an `int32_t`
or a `float`, which is given by its bits. -/
inductive InfoValue where
  | string (value : Bytes)
  | int32 (value : Int32)
  | float (bits : UInt32)
  deriving DecidableEq

/-- The constructors `MessageInfo(key, value)`. -/
def InfoValue.messageInfo (key : Bytes) : InfoValue → MessageInfo
  | string value => .ofString key value
  | int32 value => .ofInt32 key value
  | float bits => .ofFloat key bits

def headerOpen : Method Unit := do
  let self ← Exec.get
  throwUsageIf (self.headerComplete = true) (ascii "Header already complete")

def headerClosed : Method Unit := do
  let self ← Exec.get
  throwUsageIf (self.headerComplete = false) (ascii "Header not yet complete")

def isLower (byte : UInt8) : Bool := 97 ≤ byte && byte ≤ 122

def isUpper (byte : UInt8) : Bool := 65 ≤ byte && byte ≤ 90

/-- `regex_match` with `kFormatNameRegex` -/
def matchesFormatName (name : Bytes) : Bool :=
  name != [] && name.all fun byte =>
    isLower byte || isUpper byte || isDigit byte || byte == 95 || byte == 45 ||
      byte == 47

/-- `regex_match` with `kFieldNameRegex` -/
def matchesFieldName (name : Bytes) : Bool :=
  name != [] && name.all fun byte =>
    isLower byte || isDigit byte || byte == 95

/-- The loop that checks the field types and the padding and adds up
`message_size`. An `unsigned` wraps, and so does the `int` product here. -/
def addSizes (messageSize : UInt32) : List Field → Method UInt32
  | [] => pure messageSize
  | field :: fields =>
      match Field.kBasicTypes.lookup field.type with
      | none =>
          Exec.throw (.usage (ascii
            "Invalid field type (nested formats are not supported): " ++
              field.type))
      | some size => do
          let arraySize :=
            if field.arrayLength ≤ 0 then 1 else field.arrayLength
          throwUsageIf (messageSize % UInt32.ofNat size ≠ 0)
            (ascii "struct requires padding, " ++
              ascii "reorder fields by decreasing type size. " ++
              ascii "Padding before field: " ++ field.name)
          addSizes (messageSize + arraySize.toUInt32 * UInt32.ofNat size) fields

namespace Method

def construct (timestampUs : UInt64) : Method Unit :=
  onWriter (Writer.Handle.fileHeader (.ofTimestamp timestampUs false))

def writeInfo (key : Bytes) (value : InfoValue) : Method Unit := do
  headerOpen
  onWriter (Writer.Handle.messageInfo (value.messageInfo key))

def writeParameter (key : Bytes) (value : InfoValue) : Method Unit := do
  headerOpen
  onWriter (Writer.Handle.parameter (value.messageInfo key))

/-- `writeMessageFormat`, which has a `kFieldNameRegex` in each class. -/
def writeFormat (matchesField : Bytes → Bool) (kFieldNameRegexStr : Bytes)
    (name : Bytes) (fields : List Field) : Method Unit := do
  headerOpen
  throwUsageIf
    (fields.head? ≠
      some { type := ascii "uint64_t", name := ascii "timestamp" })
    (ascii "First message field must be 'uint64_t timestamp'")
  let self ← Exec.get
  throwUsageIf (name ∈ self.formats) (ascii "Duplicate format: " ++ name)
  throwUsageIf (matchesFormatName name = false)
    (ascii "Invalid name: " ++ name ++
      ascii ", valid regex: [a-zA-Z0-9_\\-/]+")
  fields.forM fun field =>
    throwUsageIf (matchesField field.name = false)
      (ascii "Invalid field name: " ++ field.name ++ ascii ", valid regex: " ++
        kFieldNameRegexStr)
  let messageSize ← addSizes 0 fields
  Exec.modify fun self =>
    { self with formats := self.formats.insert name { messageSize } }
  onWriter (Writer.Handle.messageFormat { name, fields })

def writeMessageFormat (name : Bytes) (fields : List Field) : Method Unit :=
  writeFormat matchesFieldName (ascii "[a-z0-9_]+") name fields

def headerComplete : Method Unit := do
  headerOpen
  onWriter Writer.Handle.headerComplete
  Exec.modify fun self => { self with headerComplete := true }

def writeParameterChange (key : Bytes) (value : InfoValue) : Method Unit := do
  headerClosed
  onWriter (Writer.Handle.parameter (value.messageInfo key))

def writeTextMessage (level : Level) (message : Bytes) (timestamp : UInt64) :
    Method Unit := do
  headerClosed
  onWriter (Writer.Handle.logging (.ofText level message timestamp))

/-- The subscription is kept before the message is written. -/
def writeAddLoggedMessage (messageFormatName : Bytes) (multiId : UInt8) :
    Method UInt16 := do
  headerClosed
  let self ← Exec.get
  let msgId := UInt16.ofNat self.subscriptions.length
  match self.formats.lookup messageFormatName with
  | none =>
      Exec.throw (.usage (ascii "Format not found: " ++ messageFormatName))
  | some format => do
      Exec.modify fun self =>
        { self with
          subscriptions :=
            self.subscriptions ++ [{ messageSize := format.messageSize }] }
      onWriter (Writer.Handle.addLoggedMessage
        { multiId, msgId, messageName := messageFormatName })
      return msgId

def writeDataImpl (id : UInt16) (data : Bytes) (length : UInt32) :
    Method Unit := do
  headerClosed
  let self ← Exec.get
  match self.subscriptions[id.toNat]? with
  | none => Exec.throw (.usage (ascii "Invalid ID"))
  | some { messageSize := expectedSize } => do
      throwUsageIf (length < expectedSize)
        (ascii "sizeof(data) is too small")
      onWriter (Writer.Handle.data
        { msgId := id, data := data.take expectedSize.toNat })

/-- `writeData`, with the bytes of the object that it is given. -/
def writeData (id : UInt16) (data : Bytes) : Method Unit :=
  writeDataImpl id data (UInt32.ofNat data.length)

end Method

/-! ## Calls -/

inductive Call where
  | writeInfo (key : Bytes) (value : InfoValue)
  | writeParameter (key : Bytes) (value : InfoValue)
  | writeMessageFormat (name : Bytes) (fields : List Field)
  | headerComplete
  | writeParameterChange (key : Bytes) (value : InfoValue)
  | writeAddLoggedMessage (messageFormatName : Bytes) (multiId : UInt8)
  | writeTextMessage (level : Level) (message : Bytes) (timestamp : UInt64)
  | writeData (id : UInt16) (data : Bytes)
  deriving DecidableEq

/-- Make a call; only `writeAddLoggedMessage` returns a value. -/
def perform : Call → Method (Option UInt16)
  | .writeInfo key value => do
      Method.writeInfo key value
      return none
  | .writeParameter key value => do
      Method.writeParameter key value
      return none
  | .writeMessageFormat name fields => do
      Method.writeMessageFormat name fields
      return none
  | .headerComplete => do
      Method.headerComplete
      return none
  | .writeParameterChange key value => do
      Method.writeParameterChange key value
      return none
  | .writeAddLoggedMessage messageFormatName multiId => do
      let id ← Method.writeAddLoggedMessage messageFormatName multiId
      return some id
  | .writeTextMessage level message timestamp => do
      Method.writeTextMessage level message timestamp
      return none
  | .writeData id data => do
      Method.writeData id data
      return none

def constructed (timestampUs : UInt64) : SimpleWriter :=
  (Method.construct timestampUs { writer := { output := [] } }).2

end SimpleWriter

end UlogCpp
