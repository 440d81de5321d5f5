import UlogCpp.Reader.Recovery

namespace UlogCpp

/-! What a log loses when the reader runs into something that it takes for
corruption. -/

namespace Frame

/-- The search of the reader stops at the frame. -/
def Recognizable (frame : Frame) : Prop :=
  frame.msgType ∈ Reader.kKnownMessageTypes ∧ frame.payload.length ≤ 9999

theorem toNat_msgSize_append (frame : Frame) (tail : Bytes) :
    (msgSize (frame.toBytes ++ tail)).toNat = frame.payload.length := by
  have full := toNat_msgSize (frame.toBytes ++ tail)
  rw [frame.isMessage.fullMessageLength_append, length_toBytes] at full
  omega

theorem msgType_append (frame : Frame) (tail : Bytes) :
    UlogCpp.msgType (frame.toBytes ++ tail) = frame.msgType := by
  simp [UlogCpp.msgType, toBytes, leBytes]

theorem Recognizable.resumable {frame : Frame} (known : frame.Recognizable)
    (tail : Bytes) : Reader.resumable (frame.toBytes ++ tail) = true := by
  obtain ⟨type, small⟩ := known
  have long := frame.length_pos
  have size := frame.toNat_msgSize_append tail
  have nonzero : msgSize (frame.toBytes ++ tail) ≠ 0 := by
    intro zero
    rw [zero, UInt16.toNat_zero] at size
    omega
  have below : msgSize (frame.toBytes ++ tail) < 10000 := by
    rw [UInt16.lt_iff_toNat_lt, size]
    exact Nat.lt_succ_of_le small
  simp only [Reader.resumable, Reader.sane, msgType_append, Bool.and_eq_true,
    decide_eq_true_eq, bne_iff_ne, ne_eq, List.contains_iff_mem,
    List.length_append, length_toBytes]
  exact ⟨by omega, ⟨⟨nonzero, frame.typed⟩, below⟩, type⟩

theorem firstFrom_stream {frames : List Frame}
    (known : ∀ frame ∈ frames.head?, frame.Recognizable) :
    firstFrom Reader.resumable (stream frames) = stream? frames := by
  cases frames with
  | nil => rfl
  | cons frame frames =>
      have here := (known frame rfl).resumable (stream frames)
      exact firstFrom_head (List.ne_nil_of_length_pos (by
        rw [stream_cons, List.length_append, length_toBytes]
        omega)) here

theorem callbacks_append (state : State) (frames more : List Frame) :
    callbacks state (frames ++ more) =
      callbacks state frames ++ callbacks (finalState state frames) more := by
  induction frames generalizing state with
  | nil => rfl
  | cons frame frames ih =>
      rw [List.cons_append, callbacks, ih, callbacks, List.append_assoc]
      rfl

end Frame

namespace Reader

variable {σ : Type} {handler : DataHandlerInterface σ}

/-! ## Zero bytes -/

theorem resumable_zeros (tail : Bytes) :
    resumable (0 :: 0 :: tail) = false := by
  simp [resumable, sane, msgSize, leNat]

/-- The high byte of a size below 10000 is no message type. -/
theorem high_byte_unknown {size : Nat} (small : size ≤ 9999) :
    kKnownMessageTypes.contains (UInt8.ofNat (size / 256 % 256)) = false := by
  have unknown : ∀ high < 40,
      kKnownMessageTypes.contains (UInt8.ofNat high) = false := by decide
  exact unknown _ (by omega)

theorem resumable_zero_frame {frame : Frame} (small : frame.payload.length ≤ 9999)
    (tail : Bytes) : resumable (0 :: (frame.toBytes ++ tail)) = false := by
  have type : msgType (0 :: (frame.toBytes ++ tail)) =
      UInt8.ofNat (frame.payload.length / 256 % 256) := by
    simp [msgType, Frame.toBytes, leBytes]
  simp only [resumable, sane, type, high_byte_unknown small, Bool.and_false]

/-- No window over zero bytes and the size of the next frame is taken for a
header. -/
theorem firstFrom_zeros {next : Frame} (known : next.Recognizable)
    (count : Nat) (after : List Frame) :
    firstFrom resumable
      (List.replicate count 0 ++ Frame.stream (next :: after)) =
        some (Frame.stream (next :: after)) := by
  induction count with
  | zero => exact Frame.firstFrom_stream (by rintro _ ⟨⟩; exact known)
  | succ count ih =>
      rw [List.replicate_succ, List.cons_append, firstFrom_tail, ih]
      cases count with
      | zero => exact resumable_zero_frame known.2 _
      | succ count => exact resumable_zeros _

/-! ## Interrupted logs -/

section Logs

variable {prologue : Prologue} {before rest : List Frame}
  {message junk first future : Bytes} {chunks : List Bytes} {state : σ}
  {opened middle struck final : Delivery σ}

theorem readChunks_interrupted (sized : 59 ≤ first.length)
    (unambiguous : prologue.flagBits = none →
      msgType (Frame.stream before ++ (message ++ (junk ++ Frame.stream rest)))
        ≠ ULogMessageType.flagBits.code)
    (layout : (first :: chunks).flatten ++ future = prologue.toBytes ++
      (Frame.stream before ++ (message ++ (junk ++ Frame.stream rest))))
    (opens : prologue.deliver handler (init state).delivery = (.ok (), opened))
    (delivered : Delivery.deliverAll handler before opened = (.ok (), middle))
    (interruption : Interruption handler middle struck message junk rest)
    (accepted : Delivery.deliverAll handler rest struck = (.ok (), final)) :
    ∃ reached,
      readChunks handler (first :: chunks) (init state) = (.ok (), reached) ∧
        Stage handler middle struck message junk rest future reached := by
  rw [List.flatten_cons, List.append_assoc] at layout
  obtain ⟨start, between, after, follows, same⟩ :=
    readChunks_prologue sized layout unambiguous opens
  rw [← List.append_assoc, ← List.flatten_cons] at after
  have stage : Stage handler middle struck message junk rest
      ((start :: chunks).flatten ++ future) between :=
    .approaching follows delivered after (Frame.unfinished_nil before)
      fun _ => .inr (Nat.zero_le 3)
  obtain ⟨reached, reads, stage'⟩ := stage.readChunks interruption accepted
  exact ⟨reached, (same chunks).trans reads, stage'⟩

/-- A reader is past the message of the interruption when it has arrived. -/
theorem approaching_passed {remaining : List Frame} {pending more : Bytes}
    (whole : IsMessage message)
    (layout : pending ++ future = Frame.stream remaining ++ (message ++ more))
    (unfinished : Frame.Unfinished pending remaining)
    (last : remaining = [] → ¬ HasMessage pending ∨ pending.length ≤ 3)
    (arrived : (Frame.stream remaining).length + message.length ≤
      pending.length)
    (long : (Frame.stream remaining).length + 3 < pending.length) : False := by
  by_cases none : remaining = []
  · subst none
    rw [Frame.stream_nil, List.nil_append] at layout
    simp only [Frame.stream_nil, List.length_nil, Nat.zero_add] at arrived long
    rcases last rfl with waits | few
    · obtain ⟨more, rfl⟩ := layout_prefix layout arrived
      exact waits (whole.hasMessage_append more)
    · exact Nat.not_lt_of_le few long
  · have short := unfinished.length_lt none
    omega

/-- When four bytes of what follows the interruption have arrived the reader
has found it. -/
theorem Stage.resumed_of_arrived {reader : Reader σ} {next : Frame}
    {after : List Frame} (whole : IsMessage message)
    (stage : Stage handler middle struck message junk (next :: after) future
      reader)
    (arrived : future.length + 4 ≤ (Frame.stream (next :: after)).length) :
    ∃ complete remaining pending delivery,
      next :: after = complete ++ remaining ∧
        Delivery.deliverAll handler complete struck = (.ok (), delivery) ∧
        reader.Follows pending delivery true ∧
        pending ++ future = Frame.stream remaining := by
  cases stage with
  | approaching follows _ layout unfinished last =>
      have lengths := congrArg List.length layout
      simp only [List.length_append] at lengths
      exact (approaching_passed whole layout unfinished last (by omega)
        (by omega)).elim
  | searching recovers scanned target within =>
      exfalso
      obtain ⟨skipped, split⟩ := firstFrom_suffix target
      have lengths := congrArg List.length split
      simp only [List.length_append] at lengths
      have here := firstFrom_holds target
      rw [← @List.drop_left _ skipped (Frame.stream (next :: after)),
        split, List.drop_append_of_le_length (by omega),
        resumable_lookahead.stable future (by rw [List.length_drop]; omega),
        firstFrom_none_drop resumable_lookahead.empty scanned] at here
      cases here
  | resumed split delivered follows layout =>
      exact ⟨_, _, _, _, split, delivered, follows, layout⟩

/-- The calls that an interrupted log leads to, `own` of them at the
interruption. -/
theorem interrupted_calls {complete : List Frame} {delivery : Delivery σ}
    {own : List Callback}
    (opens : prologue.deliver handler (init state).delivery = (.ok (), opened))
    (delivered : Delivery.deliverAll handler before opened = (.ok (), middle))
    (calls : struck.calls = middle.calls ++ own)
    (sameState : struck.state = middle.state)
    (resumed : Delivery.deliverAll handler complete struck =
      (.ok (), delivery)) :
    delivery.calls = prologue.calls ++
      (Frame.callbacks .readHeader before ++ (own ++
        Frame.callbacks (Frame.finalState .readHeader before) complete)) := by
  obtain ⟨header, first⟩ := Prologue.deliver_ok opens
  obtain ⟨second, middleState⟩ := Delivery.deliverAll_calls delivered
  obtain ⟨last, _⟩ := Delivery.deliverAll_calls resumed
  rw [header] at second middleState
  rw [last, calls, second, first, sameState, middleState]
  simp only [init, List.nil_append, List.append_assoc]

theorem Interruption.zeros {next : Frame} {after : List Frame} {count : Nat}
    (known : next.Recognizable) (inLog : middle.state.InLog)
    (reports : Delivery.call handler corruptionError middle =
      (.ok (), struck)) :
    Interruption handler middle struck [0, 0, 0] (List.replicate count 0)
      (next :: after) where
  whole := rfl
  parsed reader here silent := by
    rw [parseMessage_corrupt (by decide) (by decide),
      corruptionDetected_first silent (by rw [here]; exact reports)]
  inLog := by
    have same := @Delivery.call_state _ handler corruptionError middle
    rw [reports] at same
    rwa [same]
  search := firstFrom_zeros known count after

/-- Zero bytes between two frames cost no frame. -/
theorem readChunks_zeros {bits : UlogMessageFlagBits} {next : Frame}
    {after : List Frame} {zeros : Nat} {last : Bytes}
    (present : prologue.flagBits = some bits)
    (unappended : bits.appendedOffsets.head = 0)
    (enough : 3 ≤ zeros) (known : next.Recognizable)
    (opens : prologue.deliver handler (init state).delivery = (.ok (), opened))
    (delivered : Delivery.deliverAll handler before opened = (.ok (), middle))
    (reports : Delivery.call handler corruptionError middle = (.ok (), struck))
    (accepted : Delivery.deliverAll handler (next :: after) struck =
      (.ok (), final))
    (layout : (first :: chunks).flatten ++ last ++ future = prologue.toBytes ++
      (Frame.stream before ++ (List.replicate zeros 0 ++
        Frame.stream (next :: after))))
    (sized : 59 ≤ first.length)
    (fourth : (prologue.toBytes ++ (Frame.stream before ++
      List.replicate zeros 0)).length + 4 ≤ (first :: chunks).flatten.length)
    (nonempty : last ≠ []) :
    ∃ reached complete remaining pending earlier later,
      readChunks handler (first :: chunks ++ [last]) (init state) =
        (.ok (), reached) ∧
      next :: after = complete ++ remaining ∧
      (first :: chunks).flatten ++ last = prologue.toBytes ++
        (Frame.stream before ++ (List.replicate zeros 0 ++
          (Frame.stream complete ++ pending))) ∧
      Frame.Unfinished pending remaining ∧
      reached.delivery.calls = .fileHeader prologue.fileHeader ::
        (earlier ++ corruptionError :: later) ∧
      earlier ++ later = Frame.callbacks .readHeader (before ++ complete) := by
  obtain ⟨count, rfl⟩ : ∃ count, zeros = count + 3 := ⟨zeros - 3, by omega⟩
  obtain ⟨header, calls⟩ := Prologue.deliver_ok opens
  obtain ⟨middleCalls, middleState⟩ := Delivery.deliverAll_calls delivered
  have inLog := Delivery.deliverAll_inLog (.inl header) delivered
  have split : List.replicate (count + 3) (0 : UInt8) =
      [0, 0, 0] ++ List.replicate count 0 := by
    rw [Nat.add_comm, List.replicate_add]
    rfl
  have layout' := layout
  rw [split, List.append_assoc [0, 0, 0], List.append_assoc] at layout'
  have interruption :=
    @Interruption.zeros _ handler _ _ _ after count known inLog reports
  obtain ⟨between, reads, stage⟩ :=
    readChunks_interrupted sized (by rw [present]; nofun) layout' opens
      delivered interruption accepted
  have lengths := congrArg List.length layout
  simp only [List.length_append] at lengths fourth
  obtain ⟨complete, waiting, pending, delivery, rest, delivered', follows,
      after'⟩ :=
    Stage.resumed_of_arrived interruption.whole stage
      (by rw [List.length_append]; omega)
  rw [rest] at accepted
  obtain ⟨_, again, later⟩ := Delivery.deliverAll_append_eq_ok.mp accepted
  rw [delivered'] at again
  cases again
  obtain ⟨reached, read, more, remaining, pending', delivery', rfl, arrived,
      after'', unfinished, delivered'', follows'⟩ :=
    readLoop_progress follows (fun empty => absurd empty nonempty)
      (by rw [List.append_assoc]; exact after') later
  rw [← follows.readChunk] at read
  refine ⟨reached, complete ++ more, remaining, pending',
    Frame.callbacks .readHeader before,
    Frame.callbacks (Frame.finalState .readHeader before) (complete ++ more),
    ?_, rest.trans (List.append_assoc _ _ _).symm, ?_, unfinished, ?_,
    (Frame.callbacks_append _ _ _).symm⟩
  · rw [readChunks_append, Exec.bind_ok reads, readChunks_cons,
      Exec.bind_ok read]
    rfl
  · rw [rest, Frame.stream_append, Frame.stream_append, ← after''] at layout
    apply @List.append_cancel_right _ _ future
    simp only [layout, Frame.stream_append, List.append_assoc]
  · have quiet : prologue.calls = [.fileHeader prologue.fileHeader] := by
      simp [Prologue.calls, Prologue.warnings, present, unappended]
    have calls := interrupted_calls opens delivered
      (congrArg (fun outcome => outcome.2.calls) reports).symm
      (congrArg (fun outcome => outcome.2.state) reports).symm
      (Delivery.deliverAll_append_eq_ok.mpr ⟨_, delivered', delivered''⟩)
    rw [follows'.delivery_eq, calls, quiet]
    rfl

theorem readChunks_zeros_base :
    ∃ reached earlier later,
      readChunks DataHandlerInterface.base
        [(Prologue.ofTimestamp 0).toBytes ++ (Frame.stream [] ++
            (List.replicate 3 0 ++ incompatibleFrame.toBytes.take 4)),
          incompatibleFrame.toBytes.drop 4] (init ()) = (.ok (), reached) ∧
      reached.delivery.calls =
        .fileHeader (Prologue.ofTimestamp 0).fileHeader ::
          (earlier ++ corruptionError :: later) := by
  obtain ⟨reached, _, _, _, earlier, later, reads, _, _, _, calls, _⟩ :=
    @readChunks_zeros _ DataHandlerInterface.base (.ofTimestamp 0) []
      ((Prologue.ofTimestamp 0).toBytes ++ (Frame.stream [] ++
        (List.replicate 3 0 ++ incompatibleFrame.toBytes.take 4))) [] []
      () _ _ _ _ _ incompatibleFrame [] 3 (incompatibleFrame.toBytes.drop 4)
      rfl rfl (by decide) ⟨by decide, by decide⟩ rfl rfl rfl rfl (by simp)
      (by decide) (by decide) (by decide)
  exact ⟨reached, earlier, later, reads, calls⟩

theorem Interruption.rejected {rejected : Frame} {reason : Bytes}
    {hurt : Delivery σ} (inLog : middle.state.InLog)
    (rejects : Delivery.deliver handler rejected.toBytes middle =
      (.error (.raised (.parsing reason)), hurt))
    (sameState : hurt.state = middle.state)
    (reports : Delivery.call handler corruptionError hurt = (.ok (), struck))
    (known : ∀ next ∈ rest.head?, next.Recognizable) :
    Interruption handler middle struck rejected.toBytes [] rest where
  whole := rejected.isMessage
  parsed reader here silent := by
    have rejects' : Delivery.deliver handler rejected.toBytes reader.delivery =
        (.error (.raised (.parsing reason)), hurt) := by rw [here]; exact rejects
    rw [parseMessage_rejected rejected.isMessage.header_le
        (frame_not_corrupt rejected) rejects',
      @corruptionDetected_first _ handler { reader with delivery := hurt } _
        silent reports]
  inLog := by
    have same := @Delivery.call_state _ handler corruptionError hurt
    rw [reports] at same
    rwa [same, sameState]
  search := Frame.firstFrom_stream known

end Logs

/-! The restrictions on a rejected frame and the frame after it are needed. -/

end Reader

end UlogCpp
