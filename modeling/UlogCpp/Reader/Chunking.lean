import UlogCpp.Reader.Prologue

namespace UlogCpp

/-! The callbacks of a log do not depend on how it is cut into chunks. -/

namespace Frame

/-- The calls for frames that are dispatched one at a time. -/
def callbacks : State → List Frame → List Callback
  | _, [] => []
  | state, frame :: frames =>
      Delivery.callbacks state frame.toBytes ++
        callbacks (Delivery.nextState state frame.toBytes) frames

def finalState (state : State) (frames : List Frame) : State :=
  frames.foldl (fun state frame => Delivery.nextState state frame.toBytes) state

/-- The constructors that the sections apply accept the frames. -/
def Decode : State → List Frame → Prop
  | _, [] => True
  | state, frame :: frames =>
      Delivery.Decodes state frame.toBytes ∧
        Decode (Delivery.nextState state frame.toBytes) frames

end Frame

namespace Delivery

variable {σ : Type} {handler : DataHandlerInterface σ}

theorem answer_kind {decoding : Except Stop (Option Callback)}
    {callback : Callback} (mem : callback ∈ answer decoding) :
    decoding = .ok (some callback) := by
  rcases decoding with stop | _ | answered
  · cases mem
  · cases mem
  · rw [List.mem_singleton.mp mem]

theorem callbacks_kind {state : State} {message : Bytes} {callback : Callback}
    (mem : callback ∈ callbacks state message) :
    callback.kind ≠ .error ∧ callback.kind ≠ .fileHeader := by
  have inData : callback ∈ answer (decodeData message) →
      callback.kind ≠ .error ∧ callback.kind ≠ .fileHeader := by
    intro answered
    rcases decodeData_kind (answer_kind answered) with kind | kind
    all_goals exact ⟨by rw [kind]; nofun, by rw [kind]; nofun⟩
  cases state with
  | readHeader =>
      by_cases ends : decodeHeader message = .ok (some .headerComplete)
      · rw [(header_complete ends).1, List.mem_cons] at mem
        rcases mem with rfl | answered
        · exact ⟨nofun, nofun⟩
        · exact inData answered
      · rw [(header_ordinary rfl ends).1] at mem
        rcases decodeHeader_kind (answer_kind mem) with rfl | kind | kind
        · exact ⟨nofun, nofun⟩
        all_goals exact ⟨by rw [kind]; nofun, by rw [kind]; nofun⟩
  | readData => exact inData mem
  | readMagic | readFlagBits | invalidData => cases mem

/-- What the delivery of a message adds to the calls, whatever comes of it. -/
theorem deliver_calls (message : Bytes) (delivery : Delivery σ) :
    ∃ added, (deliver handler message delivery).2.calls =
        delivery.calls ++ added ∧
      ∀ callback ∈ added,
        callback.kind ≠ .error ∧ callback.kind ≠ .fileHeader := by
  rcases (@deliver_progress _ handler message delivery).calls_eq with
    calls | ⟨_, calls, _⟩
  · exact ⟨_, calls, fun _ mem => callbacks_kind mem⟩
  · refine ⟨_, calls, fun callback mem => ?_⟩
    rw [List.mem_singleton.mp mem]
    exact ⟨nofun, nofun⟩

/-- Frames that are all delivered lead to the calls of each, in order. -/
theorem deliverAll_calls {frames : List Frame} {delivery final : Delivery σ}
    (delivered : deliverAll handler frames delivery = (.ok (), final)) :
    final.calls = delivery.calls ++ Frame.callbacks delivery.state frames ∧
      final.state = Frame.finalState delivery.state frames := by
  induction frames generalizing delivery with
  | nil =>
      cases delivered
      exact ⟨(List.append_nil _).symm, rfl⟩
  | cons frame frames ih =>
      obtain ⟨reached, first, rest⟩ := deliverAll_cons_eq_ok.mp delivered
      have progress := @deliver_progress _ handler frame.toBytes delivery
      rw [first] at progress
      have state : reached.state = nextState delivery.state frame.toBytes :=
        progress.state_eq
      have calls : reached.calls =
          delivery.calls ++ callbacks delivery.state frame.toBytes :=
        progress.calls_eq.resolve_right fun thrown => thrown.1 rfl
      obtain ⟨after, last⟩ := ih rest
      rw [state] at after last
      refine ⟨?_, last⟩
      rw [after, calls, List.append_assoc]
      rfl

theorem deliverAll_accepted {frames : List Frame} {delivery : Delivery σ}
    (accepts : ∀ callback, handler.Accepts callback)
    (decode : Frame.Decode delivery.state frames) :
    ∃ final, deliverAll handler frames delivery = (.ok (), final) := by
  induction frames generalizing delivery with
  | nil => exact ⟨delivery, rfl⟩
  | cons frame frames ih =>
      obtain ⟨decodes, rest⟩ := decode
      have progress := @deliver_progress _ handler frame.toBytes delivery
      have returned := deliver_accepted accepts decodes
      rcases ran : deliver handler frame.toBytes delivery with
        ⟨outcome, reached⟩
      rw [ran] at returned progress
      cases returned
      rw [← progress.state_eq] at rest
      obtain ⟨final, delivered⟩ := ih rest
      exact ⟨final, deliverAll_cons_eq_ok.mpr ⟨reached, ran, delivered⟩⟩

end Delivery

namespace Frame

theorem callbacks_kind {state : State} {frames : List Frame}
    {callback : Callback} (mem : callback ∈ callbacks state frames) :
    callback.kind ≠ .error := by
  induction frames generalizing state with
  | nil => cases mem
  | cons frame frames ih =>
      rcases List.mem_append.mp mem with here | later
      · exact (Delivery.callbacks_kind here).1
      · exact ih later

end Frame

theorem Prologue.calls_kind {prologue : Prologue} {callback : Callback}
    (mem : callback ∈ prologue.calls) (error : callback.kind = .error) :
    callback = Reader.appendedOffsetsError := by
  rcases List.mem_append.mp mem with warning | header
  · unfold warnings at warning
    split at warning
    · split at warning
      · exact List.mem_singleton.mp warning
      · cases warning
    · cases warning
  · rw [List.mem_singleton.mp header] at error
    cases error

namespace Reader

variable {σ : Type} {handler : DataHandlerInterface σ}

/-- Without flag bits in the prologue the first frame is not read as such. -/
def Unambiguous (prologue : Prologue) (frames : List Frame) : Prop :=
  prologue.flagBits = none →
    ∀ frame ∈ frames.head?, frame.msgType ≠ ULogMessageType.flagBits.code

theorem Unambiguous.msgType {prologue : Prologue} {frames : List Frame}
    (unambiguous : Unambiguous prologue frames)
    (absent : prologue.flagBits = none) :
    UlogCpp.msgType (Frame.stream frames) ≠ ULogMessageType.flagBits.code :=
  Frame.msgType_stream (by decide) (unambiguous absent)

/-- A log whose messages are all accepted, from the first chunk on. -/
theorem readChunks_log {prologue : Prologue} {frames : List Frame}
    {first future : Bytes} {chunks : List Bytes} {state : σ}
    {opened final : Delivery σ} (sized : 59 ≤ first.length)
    (unambiguous : Unambiguous prologue frames)
    (layout : first ++ chunks.flatten ++ future =
      prologue.toBytes ++ Frame.stream frames)
    (opens : prologue.deliver handler (init state).delivery =
      (.ok (), opened))
    (delivered : Delivery.deliverAll handler frames opened =
      (.ok (), final)) :
    ∃ reached arrived,
      readChunks handler (first :: chunks) (init state) = (.ok (), reached) ∧
        first ++ chunks.flatten = prologue.toBytes ++ arrived ∧
        Progressed handler frames arrived future opened false reached := by
  rw [List.append_assoc] at layout
  obtain ⟨rest, start, after, follows, same⟩ :=
    readChunks_prologue sized layout unambiguous.msgType opens
  obtain ⟨reached, reads, progressed⟩ :=
    @readChunks_frames _ handler start [] future opened final false frames
      (rest :: chunks) follows (Frame.unfinished_nil frames)
      (by rwa [List.nil_append, List.flatten_cons, List.append_assoc]) delivered
  refine ⟨reached, rest ++ chunks.flatten, (same chunks).trans reads, ?_,
    progressed⟩
  rw [← after, ← List.append_assoc, ← List.append_assoc,
    ← List.append_assoc] at layout
  rw [← List.append_assoc]
  exact List.append_cancel_right layout

theorem Progressed.complete {frames : List Frame} {arrived : Bytes}
    {start : Delivery σ} {reported : Bool} {reader : Reader σ}
    (progressed : Progressed handler frames arrived [] start reported reader) :
    Delivery.deliverAll handler frames start = (.ok (), reader.delivery) := by
  obtain ⟨complete, remaining, pending, delivery, rfl, _, after, unfinished,
    delivered, follows⟩ := progressed
  rw [List.append_nil] at after
  have nothing := unfinished.nil_of_complete after
  rw [nothing, List.append_nil, follows.delivery_eq]
  exact delivered

/-- However a log is cut into chunks, reading it delivers its frames as if they
were handed over one at a time, and every one of them once. -/
theorem readChunks_dispatch {prologue : Prologue} {frames : List Frame}
    {first : Bytes} {chunks : List Bytes} (state : σ)
    (accepts : ∀ callback, handler.Accepts callback)
    (decode : Frame.Decode .readHeader frames)
    (unambiguous : Unambiguous prologue frames)
    (layout : (first :: chunks).flatten =
      prologue.toBytes ++ Frame.stream frames)
    (sized : 59 ≤ first.length) :
    ∃ reached,
      readChunks handler (first :: chunks) (init state) = (.ok (), reached) ∧
      (do
        prologue.deliver handler
        Delivery.deliverAll handler frames) (init state).delivery =
          (.ok (), reached.delivery) ∧
      reached.delivery.calls =
        prologue.calls ++ Frame.callbacks .readHeader frames ∧
      ∀ callback ∈ reached.delivery.calls, callback.kind = .error →
        callback = appendedOffsetsError := by
  obtain ⟨opened, opens⟩ :=
    Prologue.deliver_accepted accepts prologue (init state).delivery
  obtain ⟨header, calls⟩ := Prologue.deliver_ok opens
  obtain ⟨final, delivered⟩ :=
    @Delivery.deliverAll_accepted _ handler frames opened accepts
      (by rw [header]; exact decode)
  obtain ⟨reached, arrived, reads, _, progressed⟩ :=
    readChunks_log sized unambiguous
      (by rw [List.append_nil]; exact layout) opens delivered
  have complete := progressed.complete
  have all : reached.delivery.calls =
      prologue.calls ++ Frame.callbacks .readHeader frames := by
    rw [(Delivery.deliverAll_calls complete).1, header, calls]
    rfl
  refine ⟨reached, reads, (Exec.bind_ok opens _).trans complete, all, ?_⟩
  intro callback mem error
  rw [all] at mem
  rcases List.mem_append.mp mem with start | later
  · exact Prologue.calls_kind start error
  · exact absurd error (Frame.callbacks_kind later)

def incompatibleFrame : Frame where
  msgType := 66
  payload := List.replicate 8 0 ++ 2 :: List.replicate 31 0
  typed := by decide
  nonempty := by decide
  bounded := by decide

theorem readChunks_dispatch_base :
    ∃ reached,
      readChunks DataHandlerInterface.base
        [(Prologue.ofTimestamp 0).toBytes, incompatibleFrame.toBytes.take 2,
          [], incompatibleFrame.toBytes.drop 2] (init ()) =
            (.ok (), reached) ∧
      reached.delivery.calls = (Prologue.ofTimestamp 0).calls ++
        Frame.callbacks .readHeader [incompatibleFrame] := by
  obtain ⟨reached, reads, _, calls, _⟩ :=
    @readChunks_dispatch _ DataHandlerInterface.base (.ofTimestamp 0)
      [incompatibleFrame] (Prologue.ofTimestamp 0).toBytes
      [incompatibleFrame.toBytes.take 2, [], incompatibleFrame.toBytes.drop 2]
      () (fun _ state => ⟨state, rfl⟩) ⟨⟨none, rfl⟩, trivial⟩ nofun (by simp)
      (by decide)
  exact ⟨reached, reads, calls⟩

/-- Without the flag bits message a frame of its type in the first place is
taken for it. -/
theorem readChunks_incompatibleFrame :
    (∀ callback, DataHandlerInterface.base.Accepts callback) ∧
      Frame.Decode .readHeader [incompatibleFrame] ∧
      59 ≤ ((Prologue.bare 0).toBytes ++
        Frame.stream [incompatibleFrame]).length ∧
      (readChunks DataHandlerInterface.base
        [(Prologue.bare 0).toBytes ++ Frame.stream [incompatibleFrame]]
          (init ())).2.delivery.calls ≠
        (Prologue.bare 0).calls ++
          Frame.callbacks .readHeader [incompatibleFrame] := by
  refine ⟨fun _ state => ⟨state, rfl⟩, ⟨⟨none, rfl⟩, trivial⟩, by decide, ?_⟩
  decide +kernel

end Reader

end UlogCpp
