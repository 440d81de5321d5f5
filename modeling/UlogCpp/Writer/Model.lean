import UlogCpp.Handler

namespace UlogCpp

/-- `Writer`, with the bytes that its callback has been given. -/
structure Writer where
  output : Bytes
  headerComplete : Bool := false
  deriving DecidableEq

namespace Writer

abbrev Handle := Exec Exception Writer Unit

def emit (program : Emit) : Handle :=
  Exec.focus Writer.output (fun output writer => { writer with output }) program

namespace Handle

def headerComplete : Handle :=
  Exec.modify fun writer => { writer with headerComplete := true }

def fileHeader (header : FileHeader) : Handle := emit header.serialize

def messageInfo (info : MessageInfo) : Handle := emit (info.serialize .info)

def messageFormat (format : MessageFormat) : Handle := do
  let writer ← Exec.get
  if writer.headerComplete then
    Exec.throw (.parsing (ascii "Header completed, cannot write formats"))
  else
    emit format.serialize

def parameter (parameter : Parameter) : Handle :=
  emit (parameter.serialize .parameter)

def parameterDefault (parameter : ParameterDefault) : Handle :=
  emit parameter.serialize

def addLoggedMessage (addLogged : AddLoggedMessage) : Handle := do
  let writer ← Exec.get
  if writer.headerComplete then
    emit addLogged.serialize
  else
    Exec.throw (.parsing (ascii
      "Header not yet completed, cannot write AddLoggedMessage"))

def logging (logging : Logging) : Handle := emit logging.serialize

def data (data : Data) : Handle := emit data.serialize

def dropout (dropout : Dropout) : Handle := emit dropout.serialize

def sync (sync : Sync) : Handle := emit sync.serialize

end Handle

/-- The callbacks; `error` is inherited and does nothing. -/
def handler : DataHandlerInterface Writer where
  call
    | .error _ _ => pure ()
    | .headerComplete => Handle.headerComplete
    | .fileHeader header => Handle.fileHeader header
    | .messageInfo info => Handle.messageInfo info
    | .messageFormat format => Handle.messageFormat format
    | .parameter parameter => Handle.parameter parameter
    | .parameterDefault parameter => Handle.parameterDefault parameter
    | .addLoggedMessage addLogged => Handle.addLoggedMessage addLogged
    | .logging logging => Handle.logging logging
    | .data data => Handle.data data
    | .dropout dropout => Handle.dropout dropout
    | .sync sync => Handle.sync sync

theorem emit_ok {program : Emit} {writer : Writer} {bytes : Bytes}
    (returned : program writer.output = (.ok (), writer.output ++ bytes)) :
    emit program writer =
      (.ok (), { writer with output := writer.output ++ bytes }) := by
  unfold emit Exec.focus
  rw [returned]

theorem emit_eq_ok {program : Emit} {writer reached : Writer}
    (returned : emit program writer = (.ok (), reached)) :
    ∃ output, program writer.output = (.ok (), output) ∧
      reached = { writer with output } := by
  obtain ⟨outcome, state⟩ := Prod.mk.inj returned
  exact ⟨_, Prod.ext outcome rfl, state.symm⟩

namespace Handle

theorem messageFormat_ok {format : MessageFormat} {writer reached : Writer}
    (returned : messageFormat format writer = (.ok (), reached)) :
    emit format.serialize writer = (.ok (), reached) := by
  unfold messageFormat at returned
  rw [Exec.get_bind_apply] at returned
  cases complete : writer.headerComplete with
  | true =>
      rw [complete] at returned
      cases returned
  | false =>
      rw [complete] at returned
      exact returned

theorem addLoggedMessage_ok {addLogged : AddLoggedMessage}
    {writer reached : Writer}
    (returned : addLoggedMessage addLogged writer = (.ok (), reached)) :
    emit addLogged.serialize writer = (.ok (), reached) := by
  unfold addLoggedMessage at returned
  rw [Exec.get_bind_apply] at returned
  cases complete : writer.headerComplete with
  | true =>
      rw [complete] at returned
      exact returned
  | false =>
      rw [complete] at returned
      cases returned

end Handle

end Writer

end UlogCpp
