import UlogCpp.Messages.Model

namespace UlogCpp

inductive Callback where
  | headerComplete
  | error (msg : Bytes) (isRecoverable : Bool)
  | fileHeader (header : FileHeader)
  | messageInfo (messageInfo : MessageInfo)
  | messageFormat (messageFormat : MessageFormat)
  | parameter (parameter : Parameter)
  | parameterDefault (parameterDefault : ParameterDefault)
  | addLoggedMessage (addLoggedMessage : AddLoggedMessage)
  | logging (logging : Logging)
  | data (data : Data)
  | dropout (dropout : Dropout)
  | sync (sync : Sync)
  deriving DecidableEq

/-- A handler: what each call does to the state of the object, and what it
throws. -/
structure DataHandlerInterface (σ : Type) where
  call : Callback → Exec Exception σ Unit

namespace DataHandlerInterface

def base : DataHandlerInterface Unit where
  call _ := pure ()

def Accepts (handler : DataHandlerInterface σ) (callback : Callback) : Prop :=
  ∀ state, ∃ reached, handler.call callback state = (.ok (), reached)

end DataHandlerInterface

end UlogCpp
