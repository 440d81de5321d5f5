import UlogCpp.DataContainer.Model
import UlogCpp.Reader.Escape
import UlogCpp.Reader.Prologue

namespace UlogCpp.DataContainer

/-! A container throws parsing exceptions only, so what escapes from a reader
that owns one are the exceptions of the number conversion in field texts. -/

def ThrowsParsing (handle : Handle) : Prop :=
  Exec.Triple (fun _ => True) handle (fun _ _ => True)
    (fun exception _ => exception.IsParsing)

namespace ThrowsParsing

theorem modify (change : DataContainer → DataContainer) :
    ThrowsParsing (Exec.modify change) :=
  Exec.Triple.modify fun _ => id

theorem throwParsing (reason : String) : ThrowsParsing (throwParsing reason) :=
  Exec.Triple.throw fun _ _ => trivial

theorem skip : ThrowsParsing (pure ()) :=
  Exec.Triple.pure () fun _ => id

theorem bind {first next : Handle} (earlier : ThrowsParsing first)
    (later : ThrowsParsing next) : ThrowsParsing (first >>= fun _ => next) :=
  Exec.Triple.bind earlier fun _ => later

theorem inspect {next : DataContainer → Handle}
    (rest : ∀ container, ThrowsParsing (next container)) :
    ThrowsParsing (Exec.get >>= next) :=
  Exec.Triple.bind (Exec.Triple.get fun _ => id) rest

theorem ite {condition : Prop} [Decidable condition]
    {whenTrue whenFalse : Handle} (positive : ThrowsParsing whenTrue)
    (negative : ThrowsParsing whenFalse) :
    ThrowsParsing (if condition then whenTrue else whenFalse) :=
  Exec.Triple.ite (fun _ => positive) fun _ => negative

theorem unlessSkipped {handle : Handle} (throws : ThrowsParsing handle) :
    ThrowsParsing (unlessSkipped handle) :=
  .inspect fun _ => .ite .skip throws

end ThrowsParsing

theorem call_throwsParsing (callback : Callback) :
    ThrowsParsing (handler.call callback) := by
  cases callback with
  | error | headerComplete | fileHeader | parameterDefault => exact .modify _
  | messageInfo info =>
      refine .unlessSkipped (.ite (.ite ?_ (.modify _)) (.modify _))
      exact .bind (.modify _)
        (.inspect fun _ => .ite (.throwParsing _) (.modify _))
  | messageFormat format =>
      exact .inspect fun _ => .ite (.throwParsing _) (.modify _)
  | parameter | logging | dropout => exact .unlessSkipped (.modify _)
  | addLoggedMessage addLogged =>
      exact .unlessSkipped (.inspect fun _ => .ite (.throwParsing _) (.modify _))
  | data data =>
      refine .inspect fun container => .ite .skip ?_
      cases container.subscriptions.lookup data.msgId with
      | none => exact .throwParsing _
      | some subscription => exact .modify _
  | sync => exact .skip

theorem handler_contained : Delivery.Contained handler where
  parsing := by
    rintro exception ⟨callback, container, thrown⟩
    exact (call_throwsParsing callback).error trivial (Prod.ext thrown rfl)
  early := by
    intro callback early container
    cases callback with
    | error | fileHeader => exact ⟨_, rfl⟩
    | _ => exact early.elim

open Reader

/-- Every call of `readChunk` returns if and only if no message that the reader
comes to parse has an array length that `stoi` rejects. -/
theorem readChunks_returns_iff (container : DataContainer)
    (chunks : List Bytes) :
    (∃ reached,
      readChunks handler chunks (init container) = (.ok (), reached)) ↔
      ∀ point inside message,
        Visits handler chunks (init container) point inside →
        Parses point inside message →
          ¬ Delivery.RejectsField inside.delivery.state message :=
  readChunks_returns handler_contained (init_safe container) chunks

def emptyLengthFrame : Frame where
  msgType := 73
  payload := [5, 97, 91, 93, 32, 98]
  typed := by decide
  nonempty := by decide
  bounded := by decide

theorem readChunks_emptyLength :
    (readChunks handler
      [(Prologue.ofTimestamp 0).toBytes ++ emptyLengthFrame.toBytes]
      (init { storageConfig := .fullLog })).1 =
        .error (.raised .invalidArgument) := by
  rfl

end UlogCpp.DataContainer
