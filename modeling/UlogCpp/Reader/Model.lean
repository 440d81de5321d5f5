import UlogCpp.Data.Iterate
import UlogCpp.Handler

namespace UlogCpp

/-! `Reader`, on a little endian machine. -/

inductive State where
  | readMagic
  | readFlagBits
  | readHeader
  | readData
  | invalidData
  deriving DecidableEq, Repr

/-- The part of a reader that the delivery of a message can change: its state,
the handler it owns and the calls made on the handler so far. -/
structure Delivery (σ : Type) where
  state : State
  handler : σ
  calls : List Callback

/-- The buffer is given by its filled part; what was allocated is the
capacity. -/
structure Reader (σ : Type) where
  delivery : Delivery σ
  partialMessageBuffer : Bytes
  partialMessageBufferLengthCapacity : Nat
  needRecovery : Bool
  corruptionReported : Bool
  fileHeader : UlogFileHeader

/-- The arguments `data` and `length` of `readChunk`. The length is negative
after a flag bits message that is longer than the chunk. -/
structure Cursor where
  data : Bytes
  length : Int

namespace Cursor

def ofChunk (chunk : Bytes) : Cursor := ⟨chunk, chunk.length⟩

def advance (cursor : Cursor) (count : Int) : Cursor :=
  ⟨cursor.data.drop count.toNat, cursor.length - count⟩

end Cursor

namespace Delivery

variable {σ : Type} (handler : DataHandlerInterface σ)

def call (callback : Callback) : Exec Stop (Delivery σ) Unit :=
  fun delivery =>
    let outcome := handler.call callback delivery.handler
    (outcome.1.mapError Stop.raised,
      { delivery with
        handler := outcome.2
        calls := delivery.calls ++ [callback] })

def setState (state : State) : Exec Stop (Delivery σ) Unit :=
  Exec.modify fun delivery => { delivery with state }

def readHeaderMessage (message : Bytes) : Exec Stop (Delivery σ) Unit := do
  let msgType ← Exec.lift (readUInt8 message 2)
  match ULogMessageType.ofCode? msgType with
  | some .info => do
      let info ← Exec.lift (MessageInfo.ofMessage message false)
      call handler (.messageInfo info)
  | some .infoMultiple => do
      let info ← Exec.lift (MessageInfo.ofMessage message true)
      call handler (.messageInfo info)
  | some .format => do
      let format ← Exec.lift (MessageFormat.ofMessage message)
      call handler (.messageFormat format)
  | some .parameter => do
      let parameter ← Exec.lift (MessageInfo.ofMessage message false)
      call handler (.parameter parameter)
  | some .parameterDefault => do
      let parameterDefault ← Exec.lift (ParameterDefault.ofMessage message)
      call handler (.parameterDefault parameterDefault)
  | some .addLoggedMsg | some .logging | some .loggingTagged => do
      setState .readData
      call handler .headerComplete
  | _ => pure ()

def readDataMessage (message : Bytes) : Exec Stop (Delivery σ) Unit := do
  let msgType ← Exec.lift (readUInt8 message 2)
  match ULogMessageType.ofCode? msgType with
  | some .info => do
      let info ← Exec.lift (MessageInfo.ofMessage message false)
      call handler (.messageInfo info)
  | some .infoMultiple => do
      let info ← Exec.lift (MessageInfo.ofMessage message true)
      call handler (.messageInfo info)
  | some .parameter => do
      let parameter ← Exec.lift (MessageInfo.ofMessage message false)
      call handler (.parameter parameter)
  | some .parameterDefault => do
      let parameterDefault ← Exec.lift (ParameterDefault.ofMessage message)
      call handler (.parameterDefault parameterDefault)
  | some .addLoggedMsg => do
      let addLogged ← Exec.lift (AddLoggedMessage.ofMessage message)
      call handler (.addLoggedMessage addLogged)
  | some .logging => do
      let logging ← Exec.lift (Logging.ofMessage message false)
      call handler (.logging logging)
  | some .loggingTagged => do
      let logging ← Exec.lift (Logging.ofMessage message true)
      call handler (.logging logging)
  | some .data => do
      let data ← Exec.lift (Data.ofMessage message)
      call handler (.data data)
  | some .dropout => do
      let dropout ← Exec.lift (Dropout.ofMessage message)
      call handler (.dropout dropout)
  | some .sync => do
      let sync ← Exec.lift (Sync.ofMessage message)
      call handler (.sync sync)
  | _ => pure ()

def inState (state : State) (program : Exec Stop (Delivery σ) Unit) :
    Exec Stop (Delivery σ) Unit := do
  let delivery ← Exec.get
  if delivery.state = state then program else pure ()

/-- The body of the `try` block. A message that ends the header is delivered
once more, as the first one of the data section. -/
def deliver (message : Bytes) : Exec Stop (Delivery σ) Unit := do
  inState .readHeader (readHeaderMessage handler message)
  inState .readData (readDataMessage handler message)

end Delivery

namespace Reader

variable {σ : Type} (handler : DataHandlerInterface σ)

def kBufferSizeInit : Nat := 2048

def init (state : σ) : Reader σ where
  delivery := { state := .readMagic, handler := state, calls := [] }
  partialMessageBuffer := []
  partialMessageBufferLengthCapacity := kBufferSizeInit
  needRecovery := false
  corruptionReported := false
  fileHeader := { magic := .replicate 8 0, timestamp := 0 }

def partialMessageBufferLength (reader : Reader σ) : Int :=
  reader.partialMessageBuffer.length

def onDelivery (program : Exec Stop (Delivery σ) α) :
    Exec Stop (Reader σ) α :=
  Exec.focus Reader.delivery
    (fun delivery reader => { reader with delivery }) program

def setState (state : State) : Exec Stop (Reader σ) Unit :=
  onDelivery (Delivery.setState state)

def error (msg : String) (isRecoverable : Bool) :
    Exec Stop (Reader σ) Unit :=
  onDelivery (Delivery.call handler (.error (ascii msg) isRecoverable))

/-! ## The partial message buffer -/

/-- `memcpy` from the chunk to the end of the buffer. -/
def copyToBuffer (cursor : Cursor) (count : Int) :
    Exec Stop (Reader σ) Unit := do
  let bytes ← Exec.lift (readBytes cursor.data 0 count)
  let reader ← Exec.get
  if reader.partialMessageBuffer.length + bytes.length ≤
      reader.partialMessageBufferLengthCapacity then
    Exec.modify fun reader =>
      { reader with
        partialMessageBuffer := reader.partialMessageBuffer ++ bytes }
  else
    Exec.throw .outOfBounds

/-- `memmove` of what follows the first `count` bytes to the front. -/
def discard (count : Int) : Exec Stop (Reader σ) Unit := do
  let reader ← Exec.get
  if 0 ≤ count ∧ count ≤ reader.partialMessageBufferLength then
    Exec.modify fun reader =>
      { reader with
        partialMessageBuffer := reader.partialMessageBuffer.drop count.toNat }
  else
    Exec.throw .outOfBounds

def appendToPartialBuffer (cursor : Cursor) : Exec Stop (Reader σ) Int := do
  let reader ← Exec.get
  let numAppend := min cursor.length
    (reader.partialMessageBufferLengthCapacity -
      reader.partialMessageBufferLength)
  copyToBuffer cursor numAppend
  return numAppend

/-- The resize on overflow. -/
def reserve (required : Int) : Exec Stop (Reader σ) Unit :=
  Exec.modify fun reader =>
    if required > reader.partialMessageBufferLengthCapacity then
      { reader with partialMessageBufferLengthCapacity := required.toNat }
    else reader

/-- `ensure_enough_data_in_partial_buffer` -/
def ensureEnoughData (requiredData : Int) (cursor : Cursor) :
    Exec Stop (Reader σ) (Bool × Cursor) := do
  let reader ← Exec.get
  if reader.partialMessageBufferLength < requiredData then do
    let numAppend :=
      min (requiredData - reader.partialMessageBufferLength) cursor.length
    reserve (reader.partialMessageBufferLength + numAppend)
    copyToBuffer cursor numAppend
    let grown ← Exec.get
    return (decide (requiredData ≤ grown.partialMessageBufferLength),
      cursor.advance numAppend)
  else
    return (true, cursor)

/-! ## One message -/

structure UlogMessage where
  message : Bytes
  clearFromPartialMessageBuffer : Bool

/-- Move what is left of the chunk to the buffer, as far as it fits. -/
def stash (cursor : Cursor) :
    Exec Stop (Reader σ) (Option UlogMessage × Cursor) := do
  let numAppend ← appendToPartialBuffer cursor
  return (none, cursor.advance numAppend)

def directMessage (cursor : Cursor) :
    Exec Stop (Reader σ) (Option UlogMessage × Cursor) :=
  if cursor.length > ulogMsgHeaderLen then do
    let msgSize ← Exec.lift (readUInt16 cursor.data 0)
    let fullMessageLength : Int := msgSize.toNat + ulogMsgHeaderLen
    if cursor.length ≥ fullMessageLength then do
      let message ← Exec.lift (readBytes cursor.data 0 fullMessageLength)
      return (some ⟨message, false⟩, cursor.advance fullMessageLength)
    else
      stash cursor
  else
    stash cursor

/-- The next message out of the buffer. Its size is read before the buffer
may move. -/
def bufferedMessage (cursor : Cursor) :
    Exec Stop (Reader σ) (Option UlogMessage × Cursor) := do
  let (hasHeader, cursor) ← ensureEnoughData ulogMsgHeaderLen cursor
  if hasHeader then do
    let reader ← Exec.get
    let msgSize ← Exec.lift (readUInt16 reader.partialMessageBuffer 0)
    let fullMessageLength : Int := msgSize.toNat + ulogMsgHeaderLen
    let (isComplete, cursor) ← ensureEnoughData fullMessageLength cursor
    if isComplete then do
      let reader ← Exec.get
      let message ← Exec.lift
        (readBytes reader.partialMessageBuffer 0 fullMessageLength)
      return (some ⟨message, true⟩, cursor)
    else
      return (none, cursor)
  else
    return (none, cursor)

def nextMessage (cursor : Cursor) :
    Exec Stop (Reader σ) (Option UlogMessage × Cursor) := do
  let reader ← Exec.get
  if reader.partialMessageBufferLength > 0 then bufferedMessage cursor
  else directMessage cursor

def corruptionDetected : Exec Stop (Reader σ) Unit := do
  let reader ← Exec.get
  if reader.corruptionReported then
    Exec.modify fun reader => { reader with needRecovery := true }
  else do
    error handler "Message corruption detected" true
    Exec.modify fun reader =>
      { reader with corruptionReported := true, needRecovery := true }

/-- `catch (const ParsingException&)` -/
def onParsingException (recovery : Exec Stop (Reader σ) Unit) :
    Stop → Option (Exec Stop (Reader σ) Unit)
  | .raised (.parsing _) => some recovery
  | _ => none

def parseMessage (message : Bytes) : Exec Stop (Reader σ) Unit := do
  let msgSize ← Exec.lift (readUInt16 message 0)
  let msgType ← Exec.lift (readUInt8 message 2)
  if msgSize = 0 ∨ msgType = 0 then
    corruptionDetected handler
  else
    Exec.attempt (onDelivery (Delivery.deliver handler message))
      (onParsingException (corruptionDetected handler))

def handleMessage (ulogMessage : UlogMessage) :
    Exec Stop (Reader σ) Unit := do
  parseMessage handler ulogMessage.message
  if ulogMessage.clearFromPartialMessageBuffer then do
    let msgSize ← Exec.lift (readUInt16 ulogMessage.message 0)
    discard (msgSize.toNat + ulogMsgHeaderLen)
  else
    pure ()

/-- The body of the loop of `readChunk`. -/
def readMessage (cursor : Cursor) : Exec Stop (Reader σ) Cursor := do
  let (ulogMessage, cursor) ← nextMessage cursor
  match ulogMessage with
  | some ulogMessage => do
      handleMessage handler ulogMessage
      return cursor
  | none => return cursor

/-! ## The start of a log -/

def readMagic (cursor : Cursor) : Exec Stop (Reader σ) Int :=
  if cursor.length < UlogFileHeader.size then do
    error handler "Not enough data to read file magic" false
    setState .invalidData
    return 0
  else do
    let header ← Exec.lift (UlogFileHeader.read cursor.data)
    if header.magic.toList.take ulogFileMagicBytes.length ≠
        ulogFileMagicBytes then do
      error handler "Invalid file format (incorrect header bytes)" false
      setState .invalidData
      return 0
    else do
      setState .readFlagBits
      Exec.modify fun reader => { reader with fileHeader := header }
      return UlogFileHeader.size

def hasIncompatFlags (flagBits : UlogMessageFlagBits) : Bool :=
  flagBits.incompatFlags.head &&& ~~~ulogIncompatFlag0DataAppendedMask != 0 ||
    flagBits.incompatFlags.toList.tail.any fun flags => flags != 0

def reportAppendedOffsets (flagBits : UlogMessageFlagBits) :
    Exec Stop (Reader σ) Unit :=
  if flagBits.appendedOffsets.head ≠ 0 then
    error handler "File contains appended offsets - this is not supported" true
  else
    pure ()

def readFlagBits (cursor : Cursor) : Exec Stop (Reader σ) Int :=
  if cursor.length < UlogMessageFlagBits.size then do
    error handler "Not enough data to read file flags" false
    setState .invalidData
    return 0
  else do
    let flagBits ← Exec.lift (UlogMessageFlagBits.read cursor.data)
    if flagBits.msgType = ULogMessageType.flagBits.code then do
      reportAppendedOffsets handler flagBits
      if hasIncompatFlags flagBits then do
        error handler
          "Unknown incompatible flag set: cannot parse the log" false
        setState .invalidData
        return 0
      else do
        let reader ← Exec.get
        onDelivery (Delivery.call handler
          (.fileHeader (.ofFlagBits reader.fileHeader flagBits)))
        setState .readHeader
        return flagBits.msgSize.toNat + ulogMsgHeaderLen
    else do
      let reader ← Exec.get
      onDelivery (Delivery.call handler
        (.fileHeader (.ofHeader reader.fileHeader)))
      setState .readHeader
      return 0

def skipMagic (cursor : Cursor) : Exec Stop (Reader σ) Cursor := do
  let reader ← Exec.get
  if reader.delivery.state = .readMagic then do
    let numRead ← readMagic handler cursor
    return cursor.advance numRead
  else
    return cursor

def skipFlagBits (cursor : Cursor) : Exec Stop (Reader σ) Cursor := do
  let reader ← Exec.get
  if reader.delivery.state = .readFlagBits ∧ cursor.length > 0 then do
    let numRead ← readFlagBits handler cursor
    return cursor.advance numRead
  else
    return cursor

/-! ## Recovery -/

def kKnownMessageTypes : List UInt8 := ULogMessageType.all.map (·.code)

/-- The test on a position of the buffer. -/
def looksSane (buffer : Bytes) (index : Nat) : Except Stop Bool := do
  let msgSize ← readUInt16 buffer index
  let msgType ← readUInt8 buffer (index + 2)
  return msgSize != 0 && msgType != 0 && msgSize < 10000 &&
    kKnownMessageTypes.contains msgType

/-- The `for` loop with the given number of rounds left. -/
def findMessage (buffer : Bytes) : Nat → Nat → Except Stop (Nat × Bool)
  | 0, index => .ok (index, false)
  | rounds + 1, index => do
      if ← looksSane buffer index then return (index, true)
      else findMessage buffer rounds (index + 1)

/-- The places in the code between which control moves. `tryToRecover` and
`readChunk` call each other in tail position only. -/
inductive Point where
  | readChunk
  | readLoop
  | tryToRecover
  deriving DecidableEq

/-- The body of the loop of `tryToRecover`. -/
def recoverRound (cursor : Cursor) :
    Exec Stop (Reader σ) (Point × Cursor) := do
  let numAppend ← appendToPartialBuffer cursor
  let cursor := cursor.advance numAppend
  let reader ← Exec.get
  let buffer := reader.partialMessageBuffer
  if buffer.length ≥ ulogMsgHeaderLen then do
    let start := if numAppend = 0 then 1 else 0
    let (index, found) ← Exec.lift
      (findMessage buffer (buffer.length - ulogMsgHeaderLen - start) start)
    if index > 0 then discard index else pure ()
    if found then do
      Exec.modify fun reader => { reader with needRecovery := false }
      return (.readChunk, cursor)
    else
      return (.tryToRecover, cursor)
  else
    return (.tryToRecover, cursor)

/-! ## The reader -/

def step : Point × Cursor → Exec Stop (Reader σ) (Option (Point × Cursor))
  | (.readChunk, cursor) => do
      let reader ← Exec.get
      if reader.delivery.state = .invalidData then return none
      else do
        let cursor ← skipMagic handler cursor
        let cursor ← skipFlagBits handler cursor
        return some (.readLoop, cursor)
  | (.readLoop, cursor) => do
      let reader ← Exec.get
      if cursor.length > 0 ∧ reader.needRecovery = false then do
        let cursor ← readMessage handler cursor
        return some (.readLoop, cursor)
      else if reader.needRecovery then return some (.tryToRecover, cursor)
      else return none
  | (.tryToRecover, cursor) =>
      if cursor.length > 0 then do
        let next ← recoverRound cursor
        return some next
      else return none

/-- What is left to do: bytes of the chunk weigh more than bytes of the buffer,
and then the three places are ordered. -/
def work : Point × Cursor → Reader σ → Nat
  | (point, cursor), reader =>
      3 * (2 * reader.partialMessageBuffer.length +
        3 * cursor.length.toNat) +
      match point with
      | .tryToRecover => 1
      | .readLoop => 2
      | .readChunk => 3

/-- `Reader::readChunk`, with as many steps as `work` allows. -/
def readChunk (cursor : Cursor) : Exec Stop (Reader σ) Unit :=
  Exec.runLoop .outOfFuel (step handler) work (.readChunk, cursor)

end Reader

end UlogCpp
