import UlogCpp.Data.Order
import UlogCpp.DataContainer.Model
import UlogCpp.Messages.Value
import UlogCpp.Reader.Stream
import UlogCpp.ZzDataLog.Filename

namespace UlogCpp

/-! `ulog_info.cpp` and `ulog_data.cpp`, which print what is in a log. -/

/-! The order of `std::string` is that of the keys of a `std::map`. -/

instance Bytes.isTrans : IsTrans Bytes (· ≤ ·) := inferInstance

instance Bytes.antisymm : Std.Antisymm (α := Bytes) (· ≤ ·) := inferInstance

instance Bytes.total : Std.Total (α := Bytes) (· ≤ ·) := inferInstance

/-- `Logging::logLevelStr`; there is no other level to come to `unknown`. -/
def Logging.logLevelStr (logging : Logging) : Bytes :=
  match logging.logLevel with
  | .emergency => ascii "Emergency"
  | .alert => ascii "Alert"
  | .critical => ascii "Critical"
  | .error => ascii "Error"
  | .warning => ascii "Warning"
  | .notice => ascii "Notice"
  | .info => ascii "Info"
  | .debug => ascii "Debug"

/-- `ParameterDefault::value` and `Value::data` -/
def ParameterDefault.typedValue (parameter : ParameterDefault) :
    Except Stop ValueType :=
  Value.ofField parameter.field parameter.value

namespace Programs

/-- Why a program does not return: what stops the reader or a value, the
exceptions of `at` and `std::get`, and undefined behaviour, of which nothing is
said from there on. -/
inductive Failure where
  | stopped (stop : Stop)
  | outOfRange
  | badVariantAccess
  | undefined
  deriving DecidableEq, Repr

abbrev Program := Exec Failure Bytes

/-- What the standard library is free to choose: the order in which a
`std::unordered_map` is iterated, and where `std::sort` leaves equivalent
elements. -/
structure Choices where
  iterate : Map UInt16 Subscription → List UInt16
  perm : ∀ subscriptions,
    (iterate subscriptions).Perm (subscriptions.keys.sort (· ≤ ·))
  stdSort : StdSort UInt16

namespace Choices

def ascending : Choices where
  iterate subscriptions := subscriptions.keys.sort (· ≤ ·)
  perm _ := List.Perm.refl _
  stdSort := .insertion UInt16

end Choices

/-! ## Printing -/

def printf (text : Bytes) : Program Unit := Exec.modify (· ++ text)

def fromLibrary (result : Except Stop α) : Program α :=
  Exec.lift (result.mapError Failure.stopped)

/-- What `%s` prints of a `std::string`: the text ends before a zero. -/
def cStr (text : Bytes) : Bytes := text.takeWhile (· != 0)

def roundHalfEven (dividend divisor : Nat) : Nat :=
  let quotient := dividend / divisor
  let remainder := dividend % divisor
  if 2 * remainder < divisor then quotient
  else if divisor < 2 * remainder then quotient + 1
  else quotient + quotient % 2

/-- `%.3f` of a `float` with these bits -/
def fixed3 (bits : UInt32) : Bytes :=
  let sign := if bits.toNat / 2 ^ 31 = 1 then ascii "-" else []
  let exponent := bits.toNat / 2 ^ 23 % 256
  let fraction := bits.toNat % 2 ^ 23
  if exponent = 255 then
    sign ++ if fraction = 0 then ascii "inf" else ascii "nan"
  else
    let significand := if exponent = 0 then fraction else fraction + 2 ^ 23
    let thousandths :=
      roundHalfEven (significand * 2 ^ max exponent 1 * 1000) (2 ^ 150)
    sign ++ (decimal (thousandths / 1000) ++ (ascii "." ++
      (decimal (1000 + thousandths % 1000)).drop 1))

/-! ## Loading a file -/

/-- What `fread` fills a buffer with, one time after the other. -/
def freads (size : Nat) : Nat → Bytes → List Bytes
  | 0, _ => []
  | rounds + 1, content =>
      if content = [] then []
      else content.take size :: freads size rounds (content.drop size)

/-- `uint8_t buffer[4048]` -/
def kBufferSize : Nat := 4048

def pieces (content : Bytes) : List Bytes :=
  freads kBufferSize content.length content

def load (content : Bytes) : Program DataContainer :=
  let outcome := Reader.readChunks DataContainer.handler (pieces content)
    (.init { storageConfig := .fullLog })
  fromLibrary (outcome.1.map fun _ => outcome.2.delivery.handler)

def printErrors (dataContainer : DataContainer) : Program Unit :=
  if dataContainer.parsingErrors ≠ [] then do
    printf (ascii "###### File Parsing Errors ######\n")
    dataContainer.parsingErrors.forM fun parsingError =>
      printf (ascii "   " ++ (cStr parsingError ++ ascii "\n"))
  else pure ()

/-- `main`, up to where the two programs differ. A file that cannot be opened
has no content. -/
def main (report : DataContainer → Program Int) (program : Bytes)
    (arguments : List Bytes) (files : Bytes → Option Bytes) : Program Int :=
  match arguments with
  | [] => do
      printf (ascii "Usage: " ++ (cStr program ++ ascii " <file.ulg>\n"))
      return -1
  | path :: _ =>
      match files path with
      | none => do
          printf (ascii "opening file failed\n")
          return -1
      | some content => do
          let dataContainer ← load content
          printErrors dataContainer
          if dataContainer.hadFatalError then do
            printf (ascii "Fatal parsing error, exiting\n")
            return -1
          else
            report dataContainer

end Programs

/-! ## ulog_info -/

namespace UlogInfo

open Programs (Program Choices printf fromLibrary cStr fixed3)

/-- The lambda that `std::accumulate` calls, whose sum is an `int`: an overflow
is undefined. -/
def addDuration (sum : Int) (curr : Dropout) : Program Int :=
  if sum + curr.durationMs.toNat ≤ 2147483647 then
    pure (sum + curr.durationMs.toNat)
  else Exec.throw .undefined

def dropoutsLine (count : Nat) (totalDropoutsMs : Int) : Bytes :=
  ascii "Dropouts: " ++ (decimal count ++ (ascii ", total duration: " ++
    (decimal totalDropoutsMs.toNat ++ ascii " ms\n")))

/-- `print_value`, which also prints what it does not know. -/
def valueText : ValueType → Bytes
  | .string text => cStr text
  | .int32 value => ZzDataLog.toText value
  | .uint32 value => decimal value.toNat
  | .float bits => fixed3 bits
  | _ => ascii "<data>"

def valueLine (name : Bytes) (value : ValueType) : Bytes :=
  ascii " " ++ (cStr name ++ (ascii ": " ++ (valueText value ++ ascii "\n")))

def printValue (name : Bytes) (value : Except Stop ValueType) :
    Program Unit := do
  let value ← fromLibrary value
  printf (valueLine name value)

def multiText (name : Bytes) (messages : List (List MessageInfo)) : Bytes :=
  ascii " [" ++ (cStr name ++ (ascii ": " ++
    (decimal messages.length ++ ascii "],")))

/-- The comparison of two ids. All ids that it is given are in the map, so `at`
does not throw. -/
def comesBefore (subscriptions : Map UInt16 Subscription) (a b : UInt16) :
    Bool :=
  match subscriptions.lookup a, subscriptions.lookup b with
  | some first, some second =>
      if first.addLoggedMessage.messageName =
          second.addLoggedMessage.messageName then
        first.addLoggedMessage.multiId < second.addLoggedMessage.multiId
      else
        first.addLoggedMessage.messageName < second.addLoggedMessage.messageName
  | _, _ => false

def sortedSubscriptionIds (choices : Choices)
    (subscriptions : Map UInt16 Subscription) : List UInt16 :=
  choices.stdSort.sort (comesBefore subscriptions)
    (choices.iterate subscriptions)

def subscriptionLine (subscription : Subscription) : Bytes :=
  ascii " " ++ (cStr subscription.addLoggedMessage.messageName ++
    (ascii " (" ++ (decimal subscription.addLoggedMessage.multiId.toNat ++
      (ascii ")   -  " ++
        (decimal subscription.data.length ++ ascii "\n")))))

def printSubscription (subscriptions : Map UInt16 Subscription) (id : UInt16) :
    Program Unit :=
  match subscriptions.lookup id with
  | some subscription => printf (subscriptionLine subscription)
  | none => Exec.throw .outOfRange

def formatLine (format : MessageFormat) : Bytes :=
  let formatFields := format.fields.flatMap fun field =>
    field.encode ++ ascii ", "
  ascii " " ++ (cStr format.name ++ (ascii ": " ++
    (cStr formatFields ++ ascii "\n")))

def loggingLine (logging : Logging) : Bytes :=
  let tagStr :=
    if logging.hasTag then decimal logging.tag.toNat ++ ascii " " else []
  ascii " " ++ (tagStr ++ (ascii "<" ++ (logging.logLevelStr ++
    (ascii "> " ++ (decimal logging.timestamp.toNat ++ (ascii " " ++
      (cStr logging.message ++ ascii "\n")))))))

def report (choices : Choices) (dataContainer : DataContainer) :
    Program Int := do
  let totalDropoutsMs ← dataContainer.dropouts.foldlM addDuration 0
  printf (dropoutsLine dataContainer.dropouts.length totalDropoutsMs)
  printf (ascii "Info Messages:\n")
  dataContainer.messageInfo.entries.forM fun infoMsg =>
    printValue infoMsg.2.field.name infoMsg.2.typedValue
  printf (ascii "Info Multiple Messages:")
  dataContainer.messageInfoMulti.entries.forM fun infoMsg =>
    printf (multiText infoMsg.1 infoMsg.2)
  printf (ascii "\n")
  printf (ascii "\n")
  printf (ascii "Name (multi id)  - number of data points\n")
  (sortedSubscriptionIds choices dataContainer.subscriptions).forM
    (printSubscription dataContainer.subscriptions)
  printf (ascii "Formats:\n")
  dataContainer.messageFormats.entries.forM fun msgFormat =>
    printf (formatLine msgFormat.2)
  printf (ascii "Logging:\n")
  dataContainer.logging.forM fun logging => printf (loggingLine logging)
  printf (ascii "Default Params:\n")
  dataContainer.defaultParameters.entries.forM fun defaultParam =>
    printValue defaultParam.2.field.name defaultParam.2.typedValue
  printf (ascii "Initial Params:\n")
  dataContainer.initialParameters.entries.forM fun initialParam =>
    printValue initialParam.2.field.name initialParam.2.typedValue
  return 0

end UlogInfo

/-! ## ulog_data -/

namespace UlogData

open Programs (Program Choices printf fromLibrary)

def message : Bytes := ascii "multirotor_motor_limits"

/-- The first eight bytes of a sample, as the first field of its format. A
shorter sample is read beyond its end, which is undefined. -/
def printTimestamp (field : Field) (data : Data) : Program Unit :=
  if data.data.length < 8 then
    Exec.throw .undefined
  else do
    let value ← fromLibrary (Value.ofField field (data.data.take 8))
    match value with
    | .uint64 timestamp => printf (decimal timestamp.toNat ++ ascii ", ")
    | _ => Exec.throw .badVariantAccess

def printSubscriptions (dataContainer : DataContainer) :
    List UInt16 → Program Int
  | [] => do
      printf (ascii "\n")
      return 0
  | id :: ids =>
      match dataContainer.subscriptions.lookup id with
      | none => Exec.throw .outOfRange
      | some subscription =>
          if subscription.addLoggedMessage.messageName = message then
            match dataContainer.messageFormats.lookup message with
            | none => Exec.throw .outOfRange
            | some format =>
                match format.fields with
                | [] => Exec.throw .undefined
                | field :: _ =>
                    if field.name ≠ ascii "timestamp" then do
                      printf (ascii
                        "Error: first field is not 'timestamp'\n")
                      return -1
                    else do
                      subscription.data.forM (printTimestamp field)
                      printSubscriptions dataContainer ids
          else do
            printf (ascii "Error: " ++ (message ++ ascii " not found\n"))
            printSubscriptions dataContainer ids

def report (choices : Choices) (dataContainer : DataContainer) :
    Program Int := do
  printf (message ++ ascii " timestamps: \n")
  printSubscriptions dataContainer
    (choices.iterate dataContainer.subscriptions)

end UlogData

end UlogCpp
