import UlogCpp.Data.Map
import UlogCpp.Handler

namespace UlogCpp

/-! `DataContainer`, the handler that keeps what it is given. -/

inductive StorageConfig where
  | header
  | fullLog
  deriving DecidableEq

structure Subscription where
  addLoggedMessage : AddLoggedMessage
  data : List Data
  deriving DecidableEq

structure DataContainer where
  storageConfig : StorageConfig
  headerComplete : Bool := false
  hadFatalError : Bool := false
  parsingErrors : List Bytes := []
  fileHeader : FileHeader := .ofTimestamp 0 false
  messageInfo : Map Bytes MessageInfo := ∅
  messageInfoMulti : Map Bytes (List (List MessageInfo)) := ∅
  messageFormats : Map Bytes MessageFormat := ∅
  initialParameters : Map Bytes Parameter := ∅
  defaultParameters : Map Bytes ParameterDefault := ∅
  changedParameters : List Parameter := []
  subscriptions : Map UInt16 Subscription := ∅
  logging : List Logging := []
  dropouts : List Dropout := []

namespace DataContainer

abbrev Handle := Exec Exception DataContainer Unit

def throwParsing (reason : String) : Handle :=
  Exec.throw (.parsing (ascii reason))

/-- `_header_complete && _storage_config == StorageConfig::Header` -/
def skips (container : DataContainer) : Bool :=
  container.headerComplete && container.storageConfig == .header

/-- A callback that returns at once when the container holds the header only
and the header is complete. -/
def unlessSkipped (handle : Handle) : Handle := do
  let container ← Exec.get
  if container.skips then pure () else handle

/-- `messages[messages.size() - 1].push_back(message)` -/
def appendToLast (info : MessageInfo) (messages : List (List MessageInfo)) :
    List (List MessageInfo) :=
  messages.modify (messages.length - 1) fun group => group ++ [info]

namespace Handle

def error (msg : Bytes) (isRecoverable : Bool) : Handle :=
  Exec.modify fun container =>
    { container with
      hadFatalError := container.hadFatalError || !isRecoverable
      parsingErrors := container.parsingErrors ++ [msg] }

def headerComplete : Handle :=
  Exec.modify fun container => { container with headerComplete := true }

def fileHeader (header : FileHeader) : Handle :=
  Exec.modify fun container => { container with fileHeader := header }

/-- A continued message leaves the entry that `operator[]` has created behind
when it throws. -/
def messageInfo (info : MessageInfo) : Handle :=
  unlessSkipped
    (if info.isMulti then
      if info.continued then do
        Exec.modify fun container =>
          { container with
            messageInfoMulti :=
              container.messageInfoMulti.update info.field.name [] id }
        let container ← Exec.get
        if container.messageInfoMulti.lookup info.field.name = some [] then
          throwParsing "info_multi msg is continued, but no previous"
        else
          Exec.modify fun container =>
            { container with
              messageInfoMulti :=
                container.messageInfoMulti.update info.field.name []
                  (appendToLast info) }
      else
        Exec.modify fun container =>
          { container with
            messageInfoMulti :=
              container.messageInfoMulti.update info.field.name []
                (· ++ [[info]]) }
    else
      Exec.modify fun container =>
        { container with
          messageInfo :=
            container.messageInfo.insertNew info.field.name info })

def messageFormat (format : MessageFormat) : Handle := do
  let container ← Exec.get
  if format.name ∈ container.messageFormats then
    throwParsing "Duplicate message format"
  else
    Exec.modify fun container =>
      { container with
        messageFormats := container.messageFormats.insertNew format.name format }

def parameter (parameter : Parameter) : Handle :=
  unlessSkipped
    (Exec.modify fun container =>
      if container.headerComplete then
        { container with
          changedParameters := container.changedParameters ++ [parameter] }
      else
        { container with
          initialParameters :=
            container.initialParameters.insertNew parameter.field.name
              parameter })

def parameterDefault (parameterDefault : ParameterDefault) : Handle :=
  Exec.modify fun container =>
    { container with
      defaultParameters :=
        container.defaultParameters.insertNew parameterDefault.field.name
          parameterDefault }

def addLoggedMessage (addLogged : AddLoggedMessage) : Handle :=
  unlessSkipped do
    let container ← Exec.get
    if addLogged.msgId ∈ container.subscriptions then
      throwParsing "Duplicate AddLoggedMessage message ID"
    else
      Exec.modify fun container =>
        { container with
          subscriptions :=
            container.subscriptions.insertNew addLogged.msgId
              { addLoggedMessage := addLogged, data := [] } }

def logging (logging : Logging) : Handle :=
  unlessSkipped
    (Exec.modify fun container =>
      { container with logging := container.logging ++ [logging] })

def data (data : Data) : Handle := do
  let container ← Exec.get
  if container.storageConfig = .header then
    pure ()
  else
    match container.subscriptions.lookup data.msgId with
    | none => throwParsing "Invalid subscription"
    | some subscription =>
        Exec.modify fun container =>
          { container with
            subscriptions :=
              container.subscriptions.insert data.msgId
                { subscription with data := subscription.data ++ [data] } }

def dropout (dropout : Dropout) : Handle :=
  unlessSkipped
    (Exec.modify fun container =>
      { container with dropouts := container.dropouts ++ [dropout] })

end Handle

/-- The callbacks; `sync` is inherited and does nothing. -/
def handler : DataHandlerInterface DataContainer where
  call
    | .error msg isRecoverable => Handle.error msg isRecoverable
    | .headerComplete => Handle.headerComplete
    | .fileHeader header => Handle.fileHeader header
    | .messageInfo info => Handle.messageInfo info
    | .messageFormat format => Handle.messageFormat format
    | .parameter parameter => Handle.parameter parameter
    | .parameterDefault parameter => Handle.parameterDefault parameter
    | .addLoggedMessage addLogged => Handle.addLoggedMessage addLogged
    | .logging logging => Handle.logging logging
    | .data data => Handle.data data
    | .dropout dropout => Handle.dropout dropout
    | .sync _ => pure ()

/-! ## A container for the full log -/

theorem unlessSkipped_kept {container : DataContainer}
    (kept : container.skips = false) (handle : Handle) :
    unlessSkipped handle container = handle container := by
  unfold unlessSkipped
  rw [Exec.get_bind_apply, kept]
  rfl

theorem unlessSkipped_skipped {container : DataContainer}
    (skipped : container.skips = true) (handle : Handle) :
    unlessSkipped handle container = (.ok (), container) := by
  unfold unlessSkipped
  rw [Exec.get_bind_apply, skipped]
  rfl

section FullLog

variable {container : DataContainer}
  (fullLog : container.storageConfig = .fullLog)

include fullLog

theorem skips_fullLog : container.skips = false := by
  rw [skips, fullLog]
  exact Bool.and_false _

theorem unlessSkipped_fullLog (handle : Handle) :
    unlessSkipped handle container = handle container :=
  unlessSkipped_kept (skips_fullLog fullLog) handle

theorem call_messageInfo {info : MessageInfo} (single : info.isMulti = false) :
    handler.call (.messageInfo info) container = (.ok (), { container with
      messageInfo :=
        container.messageInfo.insertNew info.field.name info }) := by
  refine (unlessSkipped_fullLog fullLog _).trans ?_
  rw [single]
  rfl

omit fullLog in
theorem call_messageFormat {format : MessageFormat}
    (fresh : container.messageFormats.lookup format.name = none) :
    handler.call (.messageFormat format) container =
      (.ok (), { container with
        messageFormats :=
          container.messageFormats.insertNew format.name format }) := by
  change Handle.messageFormat format container = _
  unfold Handle.messageFormat
  rw [Exec.get_bind_apply, if_neg (Finmap.lookup_eq_none.mp fresh)]
  rfl

theorem call_addLoggedMessage {addLogged : AddLoggedMessage}
    (fresh : container.subscriptions.lookup addLogged.msgId = none) :
    handler.call (.addLoggedMessage addLogged) container =
      (.ok (), { container with
        subscriptions := container.subscriptions.insertNew addLogged.msgId
          { addLoggedMessage := addLogged, data := [] } }) := by
  refine (unlessSkipped_fullLog fullLog _).trans ?_
  rw [Exec.get_bind_apply, if_neg (Finmap.lookup_eq_none.mp fresh)]
  rfl

theorem call_logging (logging : Logging) :
    handler.call (.logging logging) container = (.ok (), { container with
      logging := container.logging ++ [logging] }) :=
  unlessSkipped_fullLog fullLog _

theorem call_data {data : Data} {subscription : Subscription}
    (found : container.subscriptions.lookup data.msgId = some subscription) :
    handler.call (.data data) container = (.ok (), { container with
      subscriptions := container.subscriptions.insert data.msgId
        { subscription with data := subscription.data ++ [data] } }) := by
  change Handle.data data container = _
  unfold Handle.data
  rw [Exec.get_bind_apply, if_neg (by rw [fullLog]; decide), found]
  rfl

end FullLog

end DataContainer

end UlogCpp
