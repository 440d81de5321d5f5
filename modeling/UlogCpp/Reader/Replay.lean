import UlogCpp.Reader.Invariant
import UlogCpp.Reader.Dispatch

namespace UlogCpp

/-! A handler is what the calls that have been made on it make of it. -/

namespace Delivery

variable {σ : Type} {handler : DataHandlerInterface σ}
  {property : Delivery σ → Prop}

/-- Make the calls on a handler, whether they return or throw. -/
def replay (handler : DataHandlerInterface σ) (start : σ)
    (calls : List Callback) : σ :=
  calls.foldl (fun state callback => (handler.call callback state).2) start

theorem replay_append (start : σ) (calls more : List Callback) :
    replay handler start (calls ++ more) =
      replay handler (replay handler start calls) more :=
  List.foldl_append

section Kept

variable (called : ∀ callback delivery, property delivery →
    property (call handler callback delivery).2)
  (entered : ∀ state delivery, property delivery →
    property { delivery with state })

include called in
theorem call_keeps (callback : Callback) :
    Exec.Keeps property (fun _ => True) (call handler callback) :=
  .intro fun delivery held => ⟨fun _ _ => trivial, called callback delivery held⟩

include called entered in
theorem decoded_keeps (decoding : Except Stop (Option Callback)) :
    Exec.Keeps property (fun _ => True)
      (Exec.lift decoding >>= react handler) := by
  refine .bind (.lift fun _ _ => trivial) fun callback => ?_
  rcases callback with _ | callback
  · exact .pure ()
  by_cases complete : callback = .headerComplete
  · subst complete
    exact .bind (.modify fun delivery => entered .readData delivery)
      fun _ => call_keeps called _
  · rw [react_of_ne complete]
    exact call_keeps called callback

include called entered in
theorem deliver_keeps (message : Bytes) :
    Exec.Keeps property (fun _ => True) (deliver handler message) := by
  refine .bind (.get_bind fun _ => .ite ?_ (.pure ()))
    fun _ => .get_bind fun _ => .ite ?_ (.pure ())
  · rw [readHeaderMessage_eq]
    exact decoded_keeps called entered _
  · rw [readDataMessage_eq]
    exact decoded_keeps called entered _

include called entered in
theorem invariant_of_calls : Reader.DeliveryInvariant handler property where
  error _ _ delivery held _ := called _ delivery held
  deliver message _ held := ((deliver_keeps called entered message).outcome held).2
  magic delivery held _ := entered _ delivery held
  invalid delivery held _ := entered _ delivery held
  fileHeader header delivery held _ := by
    have after := called (.fileHeader header) delivery held
    split
    next ran =>
      rw [ran] at after
      exact entered .readHeader _ after
    next ran => rwa [ran] at after

end Kept

end Delivery

namespace Reader

variable {σ : Type} {handler : DataHandlerInterface σ} {start : σ}
  {reader : Reader σ}

theorem Reachable.replays (reachable : Reachable handler start reader) :
    reader.delivery.handler =
      Delivery.replay handler start reader.delivery.calls := by
  have invariant := @Delivery.invariant_of_calls _ handler
    (fun delivery => delivery.handler =
      Delivery.replay handler start delivery.calls)
    (fun callback delivery held => by
      rw [Delivery.call, Delivery.replay_append, ← held]
      rfl)
    (fun _ _ held => held)
  exact invariant.reachable rfl reachable

end Reader

end UlogCpp
