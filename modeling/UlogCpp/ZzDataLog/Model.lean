import UlogCpp.SimpleWriter.Model
import UlogCpp.ZzDataLog.Filename

namespace UlogCpp

/-! `zz_data_log`, the writer that starts a new file when its file has become
too large. -/

namespace ZzDataLog

/-- A `std::FILE*`; a file that has been closed leaves a dangling pointer. -/
inductive FileHandle where
  | null
  | opened (name : Bytes)
  | closed
  deriving DecidableEq

abbrev Entry := SimpleWriter.Call × Except Exception (Option UInt16)

structure LogFile where
  name : Bytes
  content : Bytes
  journal : List Entry
  deriving DecidableEq

structure StructInfo where
  messageName : Bytes
  fields : List Field
  deriving DecidableEq

structure InitParams where
  fileName : Bytes := []
  key : Bytes := []
  keyValue : Bytes := []
  allStructs : List StructInfo := []
  deriving DecidableEq

/-- Why a call does not return. The last three are no exceptions: the use of a
null `_writer`, and a null or closed `_file` that is handed to the library. -/
inductive Failure where
  | stopped (stop : Stop)
  | nullWriter
  | nullFile
  | closedFile
  deriving DecidableEq

def Failure.raised (exception : Exception) : Failure :=
  .stopped (.raised exception)

/-- What the system does during a call: whether `fopen` succeeds, the time that
`currentTimeUs` returns, and whether the static count in `Write`, which all
instances share, comes to ten. -/
structure Env where
  opens : Bool
  timeUs : UInt64
  tenth : Bool
  deriving DecidableEq

def kMaxFileSize : UInt64 := 10 * 1024 * 1024

end ZzDataLog

/-- The bytes that the writer hands to its callback are kept with the writer;
they are put in the file when it is closed. `closedFiles` is what the directory
holds apart from the current file. The journals are history variables, which
nothing reads: they tell how each file has been written. -/
structure ZzDataLog where
  writer : Option Writer := none
  file : ZzDataLog.FileHandle := .null
  headerComplete : Bool := false
  formats : Map Bytes SimpleWriter.Format := ∅
  subscriptions : List SimpleWriter.Subscription := []
  idMap : Map Bytes UInt16 := ∅
  zzDataLogOn : Bool
  currentFileSize : UInt64 := 0
  initParams : ZzDataLog.InitParams := {}
  journal : List ZzDataLog.Entry := []
  closedFiles : List ZzDataLog.LogFile := []

namespace ZzDataLog

open SimpleWriter (InfoValue Call)

abbrev Method := Exec Failure ZzDataLog

def throwUsageIf (condition : Prop) [Decidable condition] (reason : Bytes) :
    Method Unit :=
  if condition then Exec.throw (.raised (.usage reason)) else pure ()

def liftStop (result : Except Stop α) : Method α :=
  Exec.lift (result.mapError .stopped)

def onWriter (handle : Writer.Handle) : Method Unit := fun self =>
  match self.writer with
  | none => (.error .nullWriter, self)
  | some writer =>
      ((handle writer).1.mapError .raised,
        { self with writer := some (handle writer).2 })

/-- `regex_match` with `kFieldNameRegex`, which allows for upper case here -/
def matchesFieldName (name : Bytes) : Bool :=
  name != [] && name.all fun byte =>
    SimpleWriter.isLower byte || SimpleWriter.isUpper byte || isDigit byte ||
      byte == 95

/-- The fields that the class has in common with `SimpleWriter`. -/
def core (self : ZzDataLog) (writer : Writer) : SimpleWriter where
  writer := writer
  headerComplete := self.headerComplete
  formats := self.formats
  subscriptions := self.subscriptions

def withCore (self : ZzDataLog) (core : SimpleWriter) : ZzDataLog :=
  { self with
    writer := some core.writer
    headerComplete := core.headerComplete
    formats := core.formats
    subscriptions := core.subscriptions }

def record (self : ZzDataLog) (call : Call)
    (outcome : Except Exception (Option UInt16)) : ZzDataLog :=
  { self with journal := self.journal ++ [(call, outcome)] }

/-- A method that is the same in `SimpleWriter`. All of them check first, with
a `UsageException` where a check fails, and use `_writer` then. -/
def shared (call : Call) (method : SimpleWriter.Method α)
    (report : α → Option UInt16) : Method α := fun self =>
  match self.writer with
  | some writer =>
      let (outcome, core) := method (self.core writer)
      (outcome.mapError .raised,
        (self.withCore core).record call (outcome.map report))
  | none =>
      match (method (self.core { output := [] })).1 with
      | .error (.usage reason) => (.error (.raised (.usage reason)), self)
      | _ => (.error .nullWriter, self)

namespace Method

/-! ## Files -/

/-- `_file = std::fopen(name, "wb")`, which empties a file of this name. -/
def openFile (opens : Bool) (name : Bytes) : Method Unit := do
  if opens then
    Exec.modify fun self =>
      { self with
        file := .opened name
        closedFiles := self.closedFiles.filter fun file => file.name != name }
  else
    Exec.modify fun self => { self with file := .null }
    Exec.throw (.raised (.parsing (ascii "Failed to open file")))

/-- `std::fclose(_file)` -/
def closeFile (content : Bytes) : Method Unit := do
  let self ← Exec.get
  match self.file with
  | .null => Exec.throw .nullFile
  | .closed => Exec.throw .closedFile
  | .opened name =>
      Exec.modify fun self =>
        { self with
          file := .closed
          closedFiles :=
            self.closedFiles ++ [{ name, content, journal := self.journal }] }

/-- `_writer.reset()` -/
def resetWriter : Method Bytes := do
  let self ← Exec.get
  Exec.modify fun self => { self with writer := none }
  return (self.writer.map Writer.output).getD []

def newWriter (timestampUs : UInt64) : Method Unit := do
  Exec.modify fun self =>
    { self with writer := some { output := [] }, journal := [] }
  onWriter (Writer.Handle.fileHeader (.ofTimestamp timestampUs false))

def fsync : Method Unit := do
  let self ← Exec.get
  match self.file with
  | .closed => Exec.throw .closedFile
  | .null | .opened _ => pure ()

/-! ## Messages -/

def writeInfo (key : Bytes) (value : InfoValue) : Method Unit :=
  shared (.writeInfo key value) (SimpleWriter.Method.writeInfo key value)
    fun _ => none

def writeParameter (key : Bytes) (value : InfoValue) : Method Unit :=
  shared (.writeParameter key value)
    (SimpleWriter.Method.writeParameter key value) fun _ => none

def writeMessageFormat (name : Bytes) (fields : List Field) : Method Unit :=
  shared (.writeMessageFormat name fields)
    (SimpleWriter.Method.writeFormat matchesFieldName (ascii "[a-zA-Z0-9_]+")
      name fields) fun _ => none

def headerComplete : Method Unit :=
  shared .headerComplete SimpleWriter.Method.headerComplete fun _ => none

def writeParameterChange (key : Bytes) (value : InfoValue) : Method Unit :=
  shared (.writeParameterChange key value)
    (SimpleWriter.Method.writeParameterChange key value) fun _ => none

def writeTextMessage (level : Level) (message : Bytes) (timestamp : UInt64) :
    Method Unit :=
  shared (.writeTextMessage level message timestamp)
    (SimpleWriter.Method.writeTextMessage level message timestamp) fun _ => none

def writeAddLoggedMessage (messageFormatName : Bytes) (multiId : UInt8) :
    Method UInt16 :=
  shared (.writeAddLoggedMessage messageFormatName multiId)
    (SimpleWriter.Method.writeAddLoggedMessage messageFormatName multiId) some

/-! ## Init -/

/-- `id_map_[name] = writeAddLoggedMessage(name)` -/
def subscribe (messageName : Bytes) : Method Unit := do
  let id ← writeAddLoggedMessage messageName 0
  Exec.modify fun self =>
    { self with idMap := self.idMap.insert messageName id }

def throwIfUnnamed (struct : StructInfo) : Method Unit :=
  throwUsageIf (struct.messageName = [] ∨ struct.fields = [])
    (ascii "All structs must have a message name and fields.")

def throwIfKeyless (key keyValue : Bytes) : Method Unit :=
  throwUsageIf (key = [] ∨ keyValue = [])
    (ascii "Filename, key and key_value must not be empty.")

/-- `Init(key, key_value, all_structs)`, which keeps its arguments for later
files -/
def init (key keyValue : Bytes) (allStructs : List StructInfo) :
    Method Unit := do
  throwIfKeyless key keyValue
  Exec.modify fun self =>
    { self with initParams := { self.initParams with key, keyValue } }
  writeInfo key (.string keyValue)
  allStructs.forM fun struct => do
    throwIfUnnamed struct
    Exec.modify fun self =>
      { self with initParams :=
        { self.initParams with
          allStructs := self.initParams.allStructs ++ [struct] } }
    writeMessageFormat struct.messageName struct.fields
  headerComplete
  allStructs.forM fun struct => do
    throwIfUnnamed struct
    subscribe struct.messageName

/-- `Init(init_params)` -/
def initWith (initParams : InitParams) : Method Unit := do
  throwIfKeyless initParams.key initParams.keyValue
  writeInfo initParams.key (.string initParams.keyValue)
  initParams.allStructs.forM fun struct =>
    writeMessageFormat struct.messageName struct.fields
  headerComplete
  initParams.allStructs.forM fun struct => subscribe struct.messageName

/-! ## Data -/

/-- `_writer->data(Data(id, data))` -/
def emitData (id : UInt16) (data : Bytes) : Method Unit := fun self =>
  match self.writer with
  | none => (.error .nullWriter, self)
  | some writer =>
      let (outcome, writer) := Writer.Handle.data { msgId := id, data } writer
      (outcome.mapError .raised,
        { self with writer := some writer }.record (.writeData id data)
          (outcome.map fun _ => none))

/-- The rotation in `writeDataImpl` -/
def rotate (env : Env) : Method Unit := do
  let output ← resetWriter
  closeFile output
  Exec.modify fun self =>
    { self with
      headerComplete := false
      subscriptions := []
      formats := ∅
      idMap := ∅ }
  let self ← Exec.get
  let newFilename ←
    liftStop (generateNewPathOrFilename self.initParams.fileName)
  Exec.modify fun self =>
    { self with initParams := { self.initParams with fileName := newFilename } }
  openFile env.opens newFilename
  Exec.modify fun self => { self with currentFileSize := 0 }
  newWriter env.timeUs
  let self ← Exec.get
  initWith self.initParams

def writeDataImpl (env : Env) (id : UInt16) (data : Bytes) (length : UInt32) :
    Method Unit := do
  let self ← Exec.get
  throwUsageIf (self.headerComplete = false) (ascii "Header not yet complete")
  match self.subscriptions[id.toNat]? with
  | none => Exec.throw (.raised (.usage (ascii "Invalid ID")))
  | some { messageSize := expectedSize } => do
      throwUsageIf (length < expectedSize)
        (ascii "sizeof(data) is too small")
      Exec.modify fun self =>
        { self with
          currentFileSize := self.currentFileSize + length.toUInt64 }
      let self ← Exec.get
      if kMaxFileSize ≤ self.currentFileSize then rotate env
      emitData id (data.take expectedSize.toNat)

def writeData (env : Env) (id : UInt16) (data : Bytes) : Method Unit :=
  writeDataImpl env id data (UInt32.ofNat data.length)

/-- `Write`, for an object whose `messageName()` is `messageName` -/
def write (env : Env) (messageName data : Bytes) : Method Unit := do
  let self ← Exec.get
  match self.idMap.lookup messageName with
  | none => Exec.throw (.raised (.usage (ascii "id not found")))
  | some id =>
      if self.zzDataLogOn then do
        writeData env id data
        if env.tenth then fsync

end Method

/-! ## Construction and destruction -/

inductive Constructor where
  | callback (timestampUs : UInt64)
  | fileAt (filename : Bytes) (timestampUs : UInt64)
  | file (filename : Bytes)
  deriving DecidableEq

def Method.construct (env : Env) : Constructor → Method Unit
  | .callback timestampUs => newWriter timestampUs
  | .fileAt filename timestampUs => do
      openFile env.opens filename
      newWriter timestampUs
  | .file filename => do
      throwUsageIf (isValidFilename filename = false)
        (ascii "Invalid filename, please input a valid filename, " ++
          ascii "test.ulg or test.1.ulg or /tmp/test.ulg or /tmp/test.1.ulg")
      Exec.modify fun self =>
        { self with initParams := { self.initParams with fileName := filename } }
      openFile env.opens filename
      newWriter env.timeUs

def Method.destruct : Method Unit := do
  let output ← resetWriter
  let self ← Exec.get
  match self.file with
  | .null => pure ()
  | .closed | .opened _ => closeFile output

/-- `CreateInstance` where there is an instance already -/
def Method.createInstance (filename : Bytes) (zzDataLogOn : Bool) :
    Method Unit := do
  throwUsageIf (filename = []) (ascii "Filename must not be empty.")
  Exec.modify fun self => { self with zzDataLogOn }

/-! ## Requests -/

inductive Request where
  | common (call : Call)
  | init (key keyValue : Bytes) (allStructs : List StructInfo)
  | initWith (initParams : InitParams)
  | write (messageName data : Bytes)
  | fsync
  | createInstance (filename : Bytes) (zzDataLogOn : Bool)
  | generateNewFilename (filename : Bytes)
  | generateNewPathOrFilename (pathOrFilename : Bytes)
  deriving DecidableEq

def performCommon (env : Env) : Call → Method (Option UInt16)
  | .writeInfo key value => do
      Method.writeInfo key value
      return none
  | .writeParameter key value => do
      Method.writeParameter key value
      return none
  | .writeMessageFormat name fields => do
      Method.writeMessageFormat name fields
      return none
  | .headerComplete => do
      Method.headerComplete
      return none
  | .writeParameterChange key value => do
      Method.writeParameterChange key value
      return none
  | .writeAddLoggedMessage messageFormatName multiId => do
      let id ← Method.writeAddLoggedMessage messageFormatName multiId
      return some id
  | .writeTextMessage level message timestamp => do
      Method.writeTextMessage level message timestamp
      return none
  | .writeData id data => do
      Method.writeData env id data
      return none

def perform : Env × Request → Method (Option UInt16)
  | (env, .common call) => performCommon env call
  | (_, .init key keyValue allStructs) => do
      Method.init key keyValue allStructs
      return none
  | (_, .initWith initParams) => do
      Method.initWith initParams
      return none
  | (env, .write messageName data) => do
      Method.write env messageName data
      return none
  | (_, .fsync) => do
      Method.fsync
      return none
  | (_, .createInstance filename zzDataLogOn) => do
      Method.createInstance filename zzDataLogOn
      return none
  | (_, .generateNewFilename filename) => do
      let _ ← liftStop (ZzDataLog.generateNewFilename filename)
      return none
  | (_, .generateNewPathOrFilename pathOrFilename) => do
      let _ ← liftStop (ZzDataLog.generateNewPathOrFilename pathOrFilename)
      return none

end ZzDataLog

end UlogCpp
