import UlogCpp.Reader.Answered

namespace UlogCpp

/-! How often a reader reports errors. -/

namespace Reader

variable {σ : Type} {handler : DataHandlerInterface σ}

def startErrors (calls : List Callback) : List Callback :=
  calls.filter fun callback =>
    callback.kind == .error && callback != corruptionError

def corruptionErrors (calls : List Callback) : List Callback :=
  calls.filter (· == corruptionError)

/-- The errors about the start of a log that a reader may have reported by the
time it is in a state. -/
def MayReport : State → List Callback → Prop
  | .readMagic, errors | .readFlagBits, errors => errors = []
  | .readHeader, errors | .readData, errors =>
      errors = [] ∨ errors = [appendedOffsetsError]
  | .invalidData, errors => ∃ msg,
      errors = [.error msg false] ∨
        errors = [appendedOffsetsError, .error msg false]

structure Reported (state : State) (errors : List Callback)
    (front : Front σ) : Prop where
  state : front.delivery.state = state
  start : startErrors front.delivery.calls = errors
  corruption : corruptionErrors front.delivery.calls =
    if front.corruptionReported then [corruptionError] else []

def Reports (front : Front σ) : Prop :=
  ∃ state errors, MayReport state errors ∧ Reported state errors front

/-! ## Calls -/

theorem startErrors_append (calls more : List Callback) :
    startErrors (calls ++ more) = startErrors calls ++ startErrors more :=
  List.filter_append ..

theorem corruptionErrors_append (calls more : List Callback) :
    corruptionErrors (calls ++ more) =
      corruptionErrors calls ++ corruptionErrors more :=
  List.filter_append ..

theorem startErrors_error {msg : Bytes} {isRecoverable : Bool}
    (other : Callback.error msg isRecoverable ≠ corruptionError) :
    startErrors [.error msg isRecoverable] = [.error msg isRecoverable] ∧
      corruptionErrors [.error msg isRecoverable] = [] := by
  simp [startErrors, corruptionErrors, Callback.kind, other]

theorem errors_nil {calls : List Callback}
    (others : ∀ callback ∈ calls, callback.kind ≠ .error) :
    startErrors calls = [] ∧ corruptionErrors calls = [] := by
  constructor
  · apply List.filter_eq_nil_iff.mpr
    intro callback mem
    simp [others callback mem]
  · apply List.filter_eq_nil_iff.mpr
    intro callback mem same
    rw [eq_of_beq same] at mem
    exact others _ mem rfl

section Calls

variable {state : State} {errors : List Callback} {front : Front σ}

theorem Reported.add (reported : Reported state errors front)
    {delivery : Delivery σ} {calls more : List Callback}
    (added : delivery.calls = front.delivery.calls ++ calls)
    (start : startErrors calls = more) (clean : corruptionErrors calls = []) :
    Reported delivery.state (errors ++ more) { front with delivery } where
  state := rfl
  start := by rw [added, startErrors_append, reported.start, start]
  corruption := by
    rw [added, corruptionErrors_append, reported.corruption, clean,
      List.append_nil]

theorem Reported.called (reported : Reported state errors front)
    {delivery : Delivery σ} {calls : List Callback}
    (added : delivery.calls = front.delivery.calls ++ calls)
    (others : ∀ callback ∈ calls, callback.kind ≠ .error) :
    Reported delivery.state errors { front with delivery } := by
  have after := reported.add added (errors_nil others).1 (errors_nil others).2
  rwa [List.append_nil] at after

def Has (state : State) (errors : List Callback) (reader : Reader σ) : Prop :=
  Reported state errors reader.front

variable (accepts : ∀ callback : Callback, callback.Early →
  handler.Accepts callback)

theorem accepted_call {callback : Callback} (accepts : handler.Accepts callback)
    (delivery : Delivery σ) :
    ∃ reached, Delivery.call handler callback delivery = (.ok (), reached) ∧
      reached.state = delivery.state ∧
      reached.calls = delivery.calls ++ [callback] :=
  ⟨_, Prod.ext (Delivery.call_accepted accepts) rfl, rfl, rfl⟩

include accepts in
theorem error_reported {msg : String} {isRecoverable : Bool}
    (other : Callback.error (ascii msg) isRecoverable ≠ corruptionError) :
    Exec.Triple (Has state errors) (error handler msg isRecoverable)
      (fun _ => Has state (errors ++ [.error (ascii msg) isRecoverable]))
      (fun _ _ => False) := by
  intro reader reported
  obtain ⟨reached, called, same, added⟩ :=
    accepted_call (accepts (.error (ascii msg) isRecoverable) trivial)
      reader.delivery
  have after := Reported.add reported added (startErrors_error other).1
    (startErrors_error other).2
  rw [error, onDelivery_eq called]
  exact ⟨same.trans reported.state, after.start, after.corruption⟩

def Fine (_ : α) (reader : Reader σ) : Prop := Reports reader.front

theorem Has.fine {reader : Reader σ} (may : MayReport state errors) (value : α)
    (reported : Has state errors reader) : Fine value reader :=
  ⟨state, errors, may, reported⟩

theorem has_lift (result : Except Stop α) (may : MayReport state errors) :
    Exec.Triple (Has state errors) (Exec.lift result : Exec Stop (Reader σ) α)
      (fun _ => Has state errors) Fine :=
  .lift (fun _ _ _ => id) fun stop _ _ reported => reported.fine may stop

theorem setState_reported (next : State) :
    Exec.Triple (Has state errors)
      (setState next : Exec Stop (Reader σ) Unit)
      (fun _ => Has next errors) (fun _ _ => False) :=
  fun _ reported => ⟨rfl, reported.start, reported.corruption⟩

include accepts in
theorem giveUp_reported {msg : String} (value : α)
    (other : Callback.error (ascii msg) false ≠ corruptionError)
    (may : MayReport .invalidData (errors ++ [.error (ascii msg) false])) :
    Exec.Triple (Has state errors)
      (do
        error handler msg false
        setState .invalidData
        return value) Fine Fine := by
  refine .bind ((error_reported accepts other).consequence (fun _ => id)
    (fun _ _ => id) fun _ _ => False.elim) fun _ => ?_
  refine .bind ((setState_reported .invalidData).consequence (fun _ => id)
    (fun _ _ => id) fun _ _ => False.elim) fun _ => ?_
  exact .pure value fun _ reported => reported.fine may value

include accepts in
theorem readMagic_reported (cursor : Cursor) :
    Exec.Triple (Has .readMagic []) (readMagic handler cursor) Fine Fine := by
  refine .ite (fun _ => ?_) fun _ => .bind (has_lift _ rfl) fun header =>
    .ite (fun _ => ?_) fun _ => ?_
  · exact giveUp_reported accepts _ (by decide) ⟨_, .inl rfl⟩
  · exact giveUp_reported accepts _ (by decide) ⟨_, .inl rfl⟩
  · intro reader reported
    exact ⟨.readFlagBits, [], rfl, rfl, reported.start, reported.corruption⟩

include accepts in
theorem enterHeader_reported (header : UlogFileHeader → FileHeader)
    (value : Int) (may : MayReport .readHeader errors) :
    Exec.Triple (Has state errors)
      (do
        let reader ← Exec.get
        onDelivery
          (Delivery.call handler (.fileHeader (header reader.fileHeader)))
        setState .readHeader
        return value) Fine Fine := by
  intro reader reported
  obtain ⟨reached, called, _, added⟩ :=
    accepted_call (accepts (.fileHeader (header reader.fileHeader)) trivial)
      reader.delivery
  have after := Reported.called reported added (by
    intro callback mem
    rw [List.mem_singleton.mp mem]
    nofun)
  rw [Exec.get_bind_apply, Exec.bind_ok (onDelivery_eq called)]
  exact ⟨.readHeader, errors, may, rfl, after.start, after.corruption⟩

include accepts in
theorem reportAppendedOffsets_reported (flagBits : UlogMessageFlagBits) :
    Exec.Triple (Has .readFlagBits []) (reportAppendedOffsets handler flagBits)
      (fun _ reader => ∃ errors, MayReport .readHeader errors ∧
        Has .readFlagBits errors reader) Fine :=
  .ite
    (fun _ => (error_reported accepts (by decide)).consequence (fun _ => id)
      (fun _ _ reported => ⟨_, .inr rfl, reported⟩) fun _ _ => False.elim)
    fun _ => .pure _ fun _ reported => ⟨_, .inl rfl, reported⟩

include accepts in
theorem readFlagBits_reported (cursor : Cursor) :
    Exec.Triple (Has .readFlagBits []) (readFlagBits handler cursor) Fine
      Fine := by
  refine .ite (fun _ => ?_) fun _ => .bind (has_lift _ rfl) fun flagBits =>
    .ite (fun _ => .bind (reportAppendedOffsets_reported accepts _) fun _ => ?_)
      fun _ => enterHeader_reported accepts .ofHeader _ (.inl rfl)
  · exact giveUp_reported accepts _ (by decide) ⟨_, .inl rfl⟩
  · rintro reader ⟨errors, may, reported⟩
    refine Exec.Triple.ite (fun _ => ?_) (fun _ => ?_) reader reported
    · refine giveUp_reported accepts _ (by decide) ?_
      rcases may with rfl | rfl
      · exact ⟨_, .inl rfl⟩
      · exact ⟨_, .inr rfl⟩
    · exact enterHeader_reported accepts (.ofFlagBits · flagBits) _ may

include accepts in
theorem skipMagic_reported (cursor : Cursor) :
    Exec.Triple (fun reader : Reader σ => Reports reader.front)
      (skipMagic handler cursor) Fine Fine := by
  rintro reader reports
  unfold skipMagic
  rw [Exec.get_bind_apply]
  by_cases here : reader.delivery.state = .readMagic
  · rw [if_pos here]
    obtain ⟨state, errors, may, reported⟩ := reports
    obtain rfl : state = .readMagic := reported.state.symm.trans here
    obtain rfl : errors = [] := may
    exact Exec.Triple.bind (readMagic_reported accepts cursor)
      (fun count => .pure (cursor.advance count) fun _ => id) reader reported
  · rw [if_neg here]
    exact reports

include accepts in
theorem skipFlagBits_reported (cursor : Cursor) :
    Exec.Triple (fun reader : Reader σ => Reports reader.front)
      (skipFlagBits handler cursor) Fine Fine := by
  rintro reader reports
  unfold skipFlagBits
  rw [Exec.get_bind_apply]
  by_cases here : reader.delivery.state = .readFlagBits ∧ cursor.length > 0
  · rw [if_pos here]
    obtain ⟨state, errors, may, reported⟩ := reports
    obtain rfl : state = .readFlagBits := reported.state.symm.trans here.1
    obtain rfl : errors = [] := may
    exact Exec.Triple.bind (readFlagBits_reported accepts cursor)
      (fun count => .pure (cursor.advance count) fun _ => id) reader reported
  · rw [if_neg here]
    exact reports

include accepts in
theorem step_readChunk_reported (cursor : Cursor) :
    Exec.Triple (fun reader : Reader σ => Reports reader.front)
      (step handler (.readChunk, cursor)) Fine Fine := by
  have read : Exec.Triple (fun reader : Reader σ => Reports reader.front)
      (Exec.get : Exec Stop (Reader σ) _) Fine Fine := .get fun _ => id
  exact .bind read fun _ => .ite (fun _ => .pure _ fun _ => id) fun _ =>
    .bind (skipMagic_reported accepts cursor) fun cursor =>
      .bind (skipFlagBits_reported accepts cursor) fun _ =>
        .pure _ fun _ => id

/-! ## Messages -/

include accepts in
theorem corruptionDetected_reports {reader : Reader σ}
    (reports : Reports reader.front) :
    Reports (corruptionDetected handler reader).2.front := by
  obtain ⟨state, errors, may, reported⟩ := reports
  cases silent : reader.corruptionReported with
  | true =>
      rw [corruptionDetected_again silent]
      exact ⟨state, errors, may, reported⟩
  | false =>
      obtain ⟨reached, called, same, added⟩ :=
        accepted_call (accepts corruptionError trivial) reader.delivery
      rw [corruptionDetected_first silent called]
      have start : startErrors [corruptionError] = [] := by decide
      have corruption : corruptionErrors reader.delivery.calls = [] := by
        have all := reported.corruption
        rwa [show reader.front.corruptionReported = false from silent] at all
      refine ⟨state, errors, may, same.trans reported.state, ?_, ?_⟩
      · change startErrors reached.calls = errors
        rw [added, startErrors_append, start, List.append_nil]
        exact reported.start
      · change corruptionErrors reached.calls = [corruptionError]
        rw [added, corruptionErrors_append, corruption]
        decide

theorem deliver_reports {message : Bytes} {reader : Reader σ}
    (reports : Reports reader.front) :
    Reports { reader.front with
      delivery := (Delivery.deliver handler message reader.delivery).2 } := by
  obtain ⟨state, errors, may, reported⟩ := reports
  have progress := @Delivery.deliver_progress _ handler message reader.delivery
  have allowed : MayReport (Delivery.nextState state message) errors := by
    cases state with
    | readHeader =>
        rcases Delivery.nextState_inLog (.inl rfl) message with same | same <;>
          rw [same] <;> exact may
    | readMagic | readFlagBits | readData | invalidData => exact may
  have quiet : ∀ callback ∈ Delivery.callbacks reader.delivery.state message,
      callback.kind ≠ .error := by
    intro callback mem
    rw [← Delivery.callbacks_fromMessage] at mem
    have fromMessage := (List.mem_filter.mp mem).2
    simp only [Callback.fromMessage, Bool.and_eq_true, bne_iff_ne] at fromMessage
    exact fromMessage.1
  have next := progress.state_eq.trans
    (congrArg (Delivery.nextState · message) reported.state)
  rcases progress.calls_eq with all | ⟨_, one, others, ends⟩
  · have after := reported.called all quiet
    exact ⟨_, errors, allowed, next, after.start, after.corruption⟩
  · have after := reported.called one fun callback mem => quiet callback (by
      rw [List.mem_singleton.mp mem, ends]
      exact List.mem_cons_self)
    exact ⟨_, errors, allowed, next, after.start, after.corruption⟩

include accepts in
theorem parseMessage_reports {message : Bytes} {reader : Reader σ}
    (sized : 3 ≤ message.length) (reports : Reports reader.front) :
    Reports (parseMessage handler message reader).2.front := by
  by_cases corrupt : Corrupt message
  · rw [parseMessage_corrupt sized corrupt]
    exact corruptionDetected_reports accepts reports
  · have after := @deliver_reports _ handler message _ reports
    rcases ran : Delivery.deliver handler message reader.delivery with
      ⟨stop | _, delivery⟩
    · rw [ran] at after
      by_cases parsing : ∃ reason, stop = .raised (.parsing reason)
      · obtain ⟨reason, rfl⟩ := parsing
        rw [parseMessage_rejected sized corrupt ran]
        exact corruptionDetected_reports accepts after
      · rw [parseMessage_escaped sized corrupt
          (fun reason same => parsing ⟨reason, same⟩) ran]
        exact after
    · rw [ran] at after
      rw [parseMessage_delivered sized corrupt ran]
      exact after

include accepts in
theorem reports_invariant : FrontInvariant handler (@Reports σ) where
  starts {cursor reader} _ reports := by
    have after := step_readChunk_reported accepts cursor reader reports
    rcases ran : step handler (.readChunk, cursor) reader with
      ⟨stop | value, reached⟩
    all_goals
      rw [ran] at after
      exact after
  parses whole reports := parseMessage_reports accepts whole.header_le reports

theorem MayReport.length_le {state : State} {errors : List Callback}
    (may : MayReport state errors) : errors.length ≤ 2 := by
  cases state with
  | readMagic | readFlagBits =>
      rw [show errors = [] from may]
      decide
  | readHeader | readData =>
      rcases may with rfl | rfl <;> decide
  | invalidData =>
      obtain ⟨msg, rfl | rfl⟩ := may <;> simp

theorem length_errors (calls : List Callback) :
    calls.countP (·.kind == .error) =
      (startErrors calls).length + (corruptionErrors calls).length := by
  induction calls with
  | nil => rfl
  | cons callback calls ih =>
      have split : startErrors (callback :: calls) =
            startErrors [callback] ++ startErrors calls ∧
          corruptionErrors (callback :: calls) =
            corruptionErrors [callback] ++ corruptionErrors calls :=
        ⟨startErrors_append [callback] calls,
          corruptionErrors_append [callback] calls⟩
      have single : (if callback.kind == .error then 1 else 0) =
          (startErrors [callback]).length +
            (corruptionErrors [callback]).length := by
        by_cases corrupt : callback = corruptionError
        · rw [corrupt]
          decide
        · by_cases kind : callback.kind = .error <;>
            simp [startErrors, corruptionErrors, corrupt, kind]
      rw [List.countP_cons, ih, split.1, split.2, single, List.length_append,
        List.length_append]
      omega

include accepts in
/-- A damaged log leads to few reports: one for corruption, and one or two for
the start of the log. -/
theorem errors_limited {start : σ} {reader : Reader σ}
    (reachable : Reachable handler start reader) :
    MayReport reader.delivery.state (startErrors reader.delivery.calls) ∧
      (corruptionErrors reader.delivery.calls).length ≤ 1 ∧
      reader.delivery.calls.countP (·.kind == .error) ≤ 3 := by
  have initial : Reports (init start).front :=
    ⟨.readMagic, [], rfl, rfl, rfl, rfl⟩
  obtain ⟨state, errors, may, reported⟩ :=
    (reports_invariant accepts).reachable initial reachable
  have start : startErrors reader.delivery.calls = errors := reported.start
  have state : reader.delivery.state = state := reported.state
  have once : (corruptionErrors reader.delivery.calls).length ≤ 1 := by
    rw [show corruptionErrors reader.delivery.calls = _ from reported.corruption]
    split <;> simp
  have few := may.length_le
  refine ⟨by rw [state, start]; exact may, once, ?_⟩
  rw [length_errors, start]
  omega

theorem errors_limited_zeros :
    let reader := (readChunk DataHandlerInterface.base
      (.ofChunk [0, 0, 0, 0]) (init ())).2
    MayReport reader.delivery.state (startErrors reader.delivery.calls) ∧
      (corruptionErrors reader.delivery.calls).length ≤ 1 ∧
      reader.delivery.calls.countP (·.kind == .error) ≤ 3 :=
  errors_limited (fun _ _ state => ⟨state, rfl⟩)
    (.readChunk .init (Cursor.ofChunk_valid _))

end Calls

end Reader

end UlogCpp
