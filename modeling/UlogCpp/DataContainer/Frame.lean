import UlogCpp.DataContainer.Model

namespace UlogCpp.DataContainer

/-! What the callbacks leave alone in a container. -/

def KeepsView {τ : Type} (view : DataContainer → τ) (handle : Handle) : Prop :=
  ∀ kept, Exec.Triple (fun container => view container = kept) handle
    (fun _ container => view container = kept)
    (fun _ container => view container = kept)

namespace KeepsView

variable {τ : Type} {view : DataContainer → τ} {first next : Handle}

theorem pure : KeepsView view (Pure.pure ()) :=
  fun _ => .pure () fun _ => id

theorem modify {change : DataContainer → DataContainer}
    (same : ∀ container, view (change container) = view container) :
    KeepsView view (Exec.modify change) :=
  fun _ => .modify fun container held => (same container).trans held

theorem throwParsing (reason : String) : KeepsView view (throwParsing reason) :=
  fun _ => .throw fun _ => id

theorem bind (earlier : KeepsView view first) (later : KeepsView view next) :
    KeepsView view (first >>= fun _ => next) :=
  fun kept => .bind (earlier kept) fun _ => later kept

theorem inspect {next : DataContainer → Handle}
    (later : ∀ container, KeepsView view (next container)) :
    KeepsView view (Exec.get >>= next) :=
  fun kept => .bind (.get fun _ => id) fun container => later container kept

theorem ite {condition : Prop} [Decidable condition]
    (positive : KeepsView view first) (negative : KeepsView view next) :
    KeepsView view (if condition then first else next) :=
  fun kept => .ite (fun _ => positive kept) fun _ => negative kept

theorem unlessSkipped (keeps : KeepsView view next) :
    KeepsView view (unlessSkipped next) :=
  inspect fun _ => ite pure keeps

theorem outcome (keeps : KeepsView view next) (container : DataContainer) :
    view (next container).2 = view container := by
  have kept := keeps (view container) container rfl
  split at kept
  all_goals
    next called =>
      rw [called]
      exact kept

end KeepsView

/-- The view does not depend on the fields that the callback writes. -/
def Spares {τ : Type} (view : DataContainer → τ) : Callback → Prop
  | .error _ _ => ∀ container hadFatalError parsingErrors,
      view { container with hadFatalError, parsingErrors } = view container
  | .headerComplete => ∀ container headerComplete,
      view { container with headerComplete } = view container
  | .fileHeader _ => ∀ container fileHeader,
      view { container with fileHeader } = view container
  | .messageInfo info =>
      (info.isMulti = true → ∀ container messageInfoMulti,
        view { container with messageInfoMulti } = view container) ∧
      (info.isMulti = false → ∀ container messageInfo,
        view { container with messageInfo } = view container)
  | .messageFormat _ => ∀ container messageFormats,
      view { container with messageFormats } = view container
  | .parameter _ => ∀ container initialParameters changedParameters,
      view { container with initialParameters, changedParameters } =
        view container
  | .parameterDefault _ => ∀ container defaultParameters,
      view { container with defaultParameters } = view container
  | .addLoggedMessage _ | .data _ => ∀ container subscriptions,
      view { container with subscriptions } = view container
  | .logging _ => ∀ container logging,
      view { container with logging } = view container
  | .dropout _ => ∀ container dropouts,
      view { container with dropouts } = view container
  | .sync _ => True

theorem KeepsView.call {τ : Type} {view : DataContainer → τ}
    {callback : Callback} (spares : Spares view callback) :
    KeepsView view (handler.call callback) := by
  cases callback with
  | error => exact .modify fun _ => spares _ _ _
  | headerComplete | fileHeader | parameterDefault =>
      exact .modify fun _ => spares _ _
  | messageInfo info =>
      obtain ⟨multi, single⟩ := spares
      apply KeepsView.unlessSkipped
      cases kind : info.isMulti with
      | false => exact .modify fun _ => single kind _ _
      | true =>
          have spared := multi kind
          rw [if_pos rfl]
          refine .ite ?_ (.modify fun _ => spared _ _)
          exact .bind (.modify fun _ => spared _ _) (.inspect fun _ =>
            .ite (.throwParsing _) (.modify fun _ => spared _ _))
  | messageFormat format =>
      exact .inspect fun _ =>
        .ite (.throwParsing _) (.modify fun _ => spares _ _)
  | parameter parameter =>
      apply KeepsView.unlessSkipped
      apply KeepsView.modify
      intro container
      split
      · exact spares container container.initialParameters _
      · exact spares container _ container.changedParameters
  | addLoggedMessage addLogged =>
      exact .unlessSkipped (.inspect fun _ =>
        .ite (.throwParsing _) (.modify fun _ => spares _ _))
  | logging | dropout => exact .unlessSkipped (.modify fun _ => spares _ _)
  | data data =>
      refine .inspect fun container => .ite .pure ?_
      cases container.subscriptions.lookup data.msgId with
      | none => exact .throwParsing _
      | some subscription => exact .modify fun _ => spares _ _
  | sync => exact .pure

structure ParameterStore where
  storageConfig : StorageConfig
  headerComplete : Bool
  defaultParameters : Map Bytes ParameterDefault
  initialParameters : Map Bytes Parameter
  changedParameters : List Parameter

def parameterStore (container : DataContainer) : ParameterStore where
  storageConfig := container.storageConfig
  headerComplete := container.headerComplete
  defaultParameters := container.defaultParameters
  initialParameters := container.initialParameters
  changedParameters := container.changedParameters

theorem call_keepsParameters (callback : Callback)
    (other : callback ≠ .headerComplete ∧
      (∀ parameter, callback ≠ .parameter parameter) ∧
      ∀ parameter, callback ≠ .parameterDefault parameter) :
    KeepsView parameterStore (handler.call callback) := by
  apply KeepsView.call
  cases callback with
  | error => exact fun _ _ _ => rfl
  | fileHeader | messageFormat | addLoggedMessage | logging | data | dropout =>
      exact fun _ _ => rfl
  | messageInfo => exact ⟨fun _ _ _ => rfl, fun _ _ _ => rfl⟩
  | sync => trivial
  | headerComplete => exact absurd rfl other.1
  | parameter parameter => exact absurd rfl (other.2.1 parameter)
  | parameterDefault parameter => exact absurd rfl (other.2.2 parameter)

end UlogCpp.DataContainer
