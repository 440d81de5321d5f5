import UlogCpp.Data.Run
import UlogCpp.Reader.Dispatch
import UlogCpp.Reader.Step

namespace UlogCpp.Reader

variable {σ : Type} {handler : DataHandlerInterface σ}

/-! The invariant of the reader and the progress that every step makes, for any
handler and any bytes. -/

def Raised (stop : Stop) : Prop := ∃ exception, stop = .raised exception

section Safe

variable {reader : Reader σ}

theorem init_live (state : σ) : (init state).delivery.state ≠ .invalidData :=
  nofun

theorem init_safe (state : σ) : (init state).Safe where
  fits := Nat.zero_le _
  roomy := Nat.le_refl _
  recovering := nofun

end Safe

/-! ## The start of a log -/

structure SameBuffer (base reader : Reader σ) : Prop where
  buffer : reader.partialMessageBuffer = base.partialMessageBuffer
  capacity : reader.partialMessageBufferLengthCapacity =
    base.partialMessageBufferLengthCapacity
  needRecovery : reader.needRecovery = base.needRecovery

theorem SameBuffer.refl (reader : Reader σ) : SameBuffer reader reader :=
  ⟨rfl, rfl, rfl⟩

theorem SameBuffer.safe {base reader : Reader σ}
    (same : SameBuffer base reader) (safe : base.Safe) : reader.Safe where
  fits := by rw [same.buffer, same.capacity]; exact safe.fits
  roomy := by rw [same.capacity]; exact safe.roomy
  recovering := by
    rw [same.needRecovery, same.buffer, same.capacity]
    exact safe.recovering

section Prologue

variable {base : Reader σ}

def StopsWith (handler : DataHandlerInterface σ) (base : Reader σ) (stop : Stop)
    (reader : Reader σ) : Prop :=
  SameBuffer base reader ∧ ∃ exception callback, stop = .raised exception ∧
    callback.Early ∧ Delivery.ThrowsFrom handler callback exception

theorem onDelivery_keeps {program : Exec Stop (Delivery σ) α}
    (raises : ∀ delivery stop reached,
      program delivery = (.error stop, reached) →
        ∃ exception callback, stop = .raised exception ∧ callback.Early ∧
          Delivery.ThrowsFrom handler callback exception) :
    Exec.Triple (SameBuffer base) (onDelivery program)
      (fun _ => SameBuffer base) (StopsWith handler base) := by
  intro reader same
  rcases ran : program reader.delivery with ⟨stop | value, reached⟩
  · rw [onDelivery_eq ran]
    exact ⟨⟨same.buffer, same.capacity, same.needRecovery⟩,
      raises _ _ _ ran⟩
  · rw [onDelivery_eq ran]
    exact ⟨same.buffer, same.capacity, same.needRecovery⟩

theorem call_keeps {callback : Callback} (early : callback.Early) :
    Exec.Triple (SameBuffer base)
      (onDelivery (Delivery.call handler callback))
      (fun _ => SameBuffer base) (StopsWith handler base) := by
  refine onDelivery_keeps fun _ _ _ stopped => ?_
  obtain ⟨exception, raised, throws⟩ := Delivery.call_stops stopped
  exact ⟨exception, callback, raised, early, throws⟩

theorem setState_keeps (state : State) :
    Exec.Triple (SameBuffer base) (setState state)
      (fun _ => SameBuffer base) (StopsWith handler base) :=
  onDelivery_keeps nofun

theorem error_keeps (msg : String) (isRecoverable : Bool) :
    Exec.Triple (SameBuffer base) (error handler msg isRecoverable)
      (fun _ => SameBuffer base) (StopsWith handler base) :=
  call_keeps trivial

theorem giveUp_keeps (msg : String) (value : α) {after : α → Reader σ → Prop}
    (holds : ∀ reader, SameBuffer base reader → after value reader) :
    Exec.Triple (SameBuffer base)
      (do
        error handler msg false
        setState .invalidData
        return value) after (StopsWith handler base) :=
  .bind (error_keeps _ _) fun _ => .bind (setState_keeps _) fun _ =>
    .pure _ holds

def Takes (base : Reader σ) (numRead : Int) (reader : Reader σ) : Prop :=
  SameBuffer base reader ∧ 0 ≤ numRead

variable {cursor : Cursor}

theorem readMagic_keeps (valid : cursor.Valid) :
    Exec.Triple (SameBuffer base) (readMagic handler cursor) (Takes base)
      (StopsWith handler base) := by
  unfold readMagic
  refine .ite (fun _ => ?_) fun enough => ?_
  · exact giveUp_keeps _ _ fun _ same => ⟨same, Int.le_refl _⟩
  · obtain ⟨header, headerRead⟩ := @UlogFileHeader.read_ok cursor.data (by
      simp only [UlogFileHeader.size, Cursor.Valid] at valid enough ⊢
      omega)
    rw [headerRead, Exec.lift_ok_bind]
    refine .ite (fun _ => ?_) fun _ => ?_
    · exact giveUp_keeps _ _ fun _ same => ⟨same, Int.le_refl _⟩
    · refine .bind (setState_keeps _) fun _ => .bind (.modify ?_) fun _ =>
        .pure _ fun _ same => ⟨same, by decide⟩
      exact fun _ same => ⟨same.buffer, same.capacity, same.needRecovery⟩

theorem reportAppendedOffsets_keeps (flagBits : UlogMessageFlagBits) :
    Exec.Triple (SameBuffer base) (reportAppendedOffsets handler flagBits)
      (fun _ => SameBuffer base) (StopsWith handler base) := by
  unfold reportAppendedOffsets
  exact .ite (fun _ => error_keeps _ _) fun _ => .pure _ fun _ => id

theorem enterHeader_keeps (header : UlogFileHeader → FileHeader)
    {numRead : Int} (positive : 0 ≤ numRead) :
    Exec.Triple (SameBuffer base)
      (do
        let reader ← Exec.get
        onDelivery (Delivery.call handler (.fileHeader (header reader.fileHeader)))
        setState .readHeader
        return numRead) (Takes base) (StopsWith handler base) := by
  refine .bind (.get fun reader same => same) fun reader => ?_
  exact .bind (call_keeps trivial) fun _ => .bind (setState_keeps _) fun _ =>
    .pure _ fun _ same => ⟨same, positive⟩

theorem readFlagBits_keeps (valid : cursor.Valid) :
    Exec.Triple (SameBuffer base) (readFlagBits handler cursor) (Takes base)
      (StopsWith handler base) := by
  unfold readFlagBits
  refine .ite (fun _ => ?_) fun enough => ?_
  · exact giveUp_keeps _ _ fun _ same => ⟨same, Int.le_refl _⟩
  · obtain ⟨flagBits, flagBitsRead, _⟩ := @UlogMessageFlagBits.read_ok cursor.data
      (by
        simp only [UlogMessageFlagBits.size, Cursor.Valid] at valid enough ⊢
        omega)
    rw [flagBitsRead, Exec.lift_ok_bind]
    refine .ite (fun _ => ?_) fun _ => ?_
    · refine .bind (reportAppendedOffsets_keeps _) fun _ => ?_
      refine .ite (fun _ => ?_) fun _ => ?_
      · exact giveUp_keeps _ _ fun _ same => ⟨same, Int.le_refl _⟩
      · exact enterHeader_keeps (.ofFlagBits · flagBits) (by omega)
    · exact enterHeader_keeps .ofHeader (Int.le_refl _)

def Shrinks (base : Reader σ) (cursor rest : Cursor) (reader : Reader σ) :
    Prop :=
  SameBuffer base reader ∧ rest.Valid ∧ rest.length ≤ cursor.length

theorem advance_shrinks (valid : cursor.Valid) {program : Exec Stop (Reader σ) Int}
    (keeps : Exec.Triple (SameBuffer base) program (Takes base)
      (StopsWith handler base)) :
    Exec.Triple (SameBuffer base)
      (do
        let numRead ← program
        return cursor.advance numRead) (Shrinks base cursor)
      (StopsWith handler base) := by
  refine .bind keeps fun numRead => .pure _ ?_
  rintro reader ⟨same, positive⟩
  refine ⟨same, valid.advance positive, ?_⟩
  simp only [Cursor.advance]
  omega

theorem skipMagic_shrinks (valid : cursor.Valid) :
    Exec.Triple (SameBuffer base) (skipMagic handler cursor)
      (Shrinks base cursor) (StopsWith handler base) := by
  refine .bind (.get fun reader same => same) fun reader => ?_
  refine .ite (fun _ => advance_shrinks valid (readMagic_keeps valid)) fun _ => ?_
  exact .pure _ fun _ same => ⟨same, valid, Int.le_refl _⟩

theorem skipFlagBits_shrinks (valid : cursor.Valid) :
    Exec.Triple (SameBuffer base) (skipFlagBits handler cursor)
      (Shrinks base cursor) (StopsWith handler base) := by
  refine .bind (.get fun reader same => same) fun reader => ?_
  refine .ite (fun _ => advance_shrinks valid (readFlagBits_keeps valid))
    fun _ => ?_
  exact .pure _ fun _ same => ⟨same, valid, Int.le_refl _⟩

end Prologue

/-! ## Parsing a message -/

section Parsing

variable {reader reached : Reader σ} {message : Bytes} {stop : Stop}

theorem corruptionDetected_stops
    (stopped : corruptionDetected handler reader = (.error stop, reached)) :
    reached.needRecovery = reader.needRecovery ∧
      ∃ exception, stop = .raised exception ∧
        Delivery.ThrowsFrom handler corruptionError exception := by
  cases reported : reader.corruptionReported with
  | true =>
      rw [corruptionDetected_again reported] at stopped
      cases stopped
  | false =>
      rcases called : Delivery.call handler corruptionError reader.delivery with
        ⟨inner | _, delivery⟩
      · rw [corruptionDetected_escaped reported called] at stopped
        cases stopped
        exact ⟨rfl, Delivery.call_stops called⟩
      · rw [corruptionDetected_first reported called] at stopped
        cases stopped

def MayEscape (handler : DataHandlerInterface σ) (state : State)
    (message : Bytes) (exception : Exception) : Prop :=
  Delivery.RejectsField state message ∨
    Delivery.ThrowsFrom handler corruptionError exception ∨
    Delivery.Throws handler exception ∧ ¬ exception.IsParsing

theorem parseMessage_stops (whole : IsMessage message)
    (stopped : parseMessage handler message reader = (.error stop, reached)) :
    reached.needRecovery = reader.needRecovery ∧
      ∃ exception, stop = .raised exception ∧
        MayEscape handler reader.delivery.state message exception := by
  have sized := whole.header_le
  by_cases corrupt : Corrupt message
  · rw [parseMessage_corrupt sized corrupt] at stopped
    obtain ⟨same, exception, raised, throws⟩ := corruptionDetected_stops stopped
    exact ⟨same, exception, raised, .inr (.inl throws)⟩
  · rcases delivered : Delivery.deliver handler message reader.delivery with
      ⟨inner | _, delivery⟩
    · by_cases parsing : ∃ reason, inner = .raised (.parsing reason)
      · obtain ⟨reason, rfl⟩ := parsing
        rw [parseMessage_rejected sized corrupt delivered] at stopped
        obtain ⟨same, exception, raised, throws⟩ :=
          corruptionDetected_stops stopped
        exact ⟨same, exception, raised, .inr (.inl throws)⟩
      · rw [parseMessage_escaped sized corrupt
          (fun reason same => parsing ⟨reason, same⟩) delivered] at stopped
        cases stopped
        obtain ⟨exception, raised, cause⟩ :=
          Delivery.deliver_stops whole delivered
        have foreign : ¬ exception.IsParsing := by
          cases exception with
          | parsing reason => exact absurd ⟨reason, raised⟩ parsing
          | _ => exact id
        refine ⟨rfl, exception, raised, ?_⟩
        exact (cause.resolve_left foreign).imp_right fun throws =>
          .inr ⟨throws, foreign⟩
    · rw [parseMessage_delivered sized corrupt delivered] at stopped
      cases stopped

end Parsing

/-! ## Steps -/

structure Ready (point : Point × Cursor) (reader : Reader σ) : Prop where
  safe : reader.Safe
  valid : point.2.Valid
  recovers : point.1 = .tryToRecover → reader.needRecovery = true

section Ready

variable {reader : Reader σ} {cursor : Cursor}

theorem readChunk_ready (safe : reader.Safe) (valid : cursor.Valid) :
    Ready (.readChunk, cursor) reader :=
  ⟨safe, valid, nofun⟩

theorem readLoop_ready (safe : reader.Safe) (valid : cursor.Valid) :
    Ready (.readLoop, cursor) reader :=
  ⟨safe, valid, nofun⟩

end Ready

/-- The bytes that have arrived and that no parsed message has taken. -/
def pendingBytes (point : Point × Cursor) (reader : Reader σ) : Nat :=
  point.2.length.toNat + reader.partialMessageBuffer.length

/-- What any step does: it returns, moves on with less work left, or passes an
exception on. No step makes pending bytes. -/
def StepSound (point : Point × Cursor) (reader : Reader σ) :
    Except Stop (Option (Point × Cursor)) × Reader σ → Prop
  | (.ok none, reached) => reached = reader
  | (.ok (some next), reached) =>
      Ready next reached ∧ work next reached < work point reader ∧
        pendingBytes next reached ≤ pendingBytes point reader
  | (.error stop, reached) => reached.Safe ∧ Raised stop

theorem step_readChunk_sound {cursor : Cursor} {reader : Reader σ}
    (ready : Ready (.readChunk, cursor) reader) :
    StepSound (.readChunk, cursor) reader
      (step handler (.readChunk, cursor) reader) := by
  have safe := ready.safe
  by_cases invalid : reader.delivery.state = .invalidData
  · rw [step_readChunk_invalid invalid]
    rfl
  · rw [step_readChunk_live invalid]
    have magic := @skipMagic_shrinks _ handler reader cursor ready.valid
    rcases first : skipMagic handler cursor reader with ⟨stop | rest, middle⟩
    · obtain ⟨same, exception, _, raised, _⟩ :=
        magic.error (.refl reader) first
      rw [Exec.bind_error first]
      exact ⟨same.safe safe, exception, raised⟩
    · obtain ⟨same, valid, shorter⟩ := magic.ok (.refl reader) first
      have flagBits := @skipFlagBits_shrinks _ handler reader rest valid
      rw [Exec.bind_ok first]
      rcases second : skipFlagBits handler rest middle with ⟨stop | last, final⟩
      · obtain ⟨same, exception, _, raised, _⟩ := flagBits.error same second
        rw [Exec.bind_error second]
        exact ⟨same.safe safe, exception, raised⟩
      · obtain ⟨same, valid, shorter'⟩ := flagBits.ok same second
        rw [Exec.bind_ok second]
        refine ⟨readLoop_ready (same.safe safe) valid, ?_, ?_⟩
        · simp only [work, same.buffer]
          omega
        · simp only [pendingBytes, same.buffer]
          omega

inductive Turn (reader : Reader σ) (cursor : Cursor) : Prop
  | complete (chunk : Bytes) (here : cursor = .ofChunk chunk) (more : chunk ≠ [])
      (normal : reader.needRecovery = false)
      (whole : HasMessage (reader.partialMessageBuffer ++ chunk))
      (long : reader.partialMessageBuffer ≠ [] ∨ 3 < chunk.length)
  | waiting (chunk : Bytes) (here : cursor = .ofChunk chunk) (more : chunk ≠ [])
      (normal : reader.needRecovery = false)
      (short : ¬ HasMessage (reader.partialMessageBuffer ++ chunk) ∨
        reader.partialMessageBuffer = [] ∧ chunk.length ≤ 3)
  | leaves (idle : ¬ (cursor.length > 0 ∧ reader.needRecovery = false))

theorem turn {cursor : Cursor} (valid : cursor.Valid) (reader : Reader σ) :
    Turn reader cursor := by
  by_cases reads : cursor.length > 0 ∧ reader.needRecovery = false
  · obtain ⟨positive, normal⟩ := reads
    obtain ⟨chunk, rfl⟩ : ∃ chunk, cursor = .ofChunk chunk :=
      ⟨_, valid.eq_ofChunk positive⟩
    have more : chunk ≠ [] := by
      rintro rfl
      exact absurd positive (by decide)
    by_cases found : HasMessage (reader.partialMessageBuffer ++ chunk) ∧
        (reader.partialMessageBuffer ≠ [] ∨ 3 < chunk.length)
    · exact .complete chunk rfl more normal found.1 found.2
    · refine .waiting chunk rfl more normal ?_
      by_cases complete : HasMessage (reader.partialMessageBuffer ++ chunk)
      · have few := not_or.mp fun long => found ⟨complete, long⟩
        exact .inr ⟨Classical.not_not.mp few.1, Nat.le_of_not_lt few.2⟩
      · exact .inl complete
  · exact .leaves reads

theorem step_readLoop_sound {cursor : Cursor} {reader : Reader σ}
    (ready : Ready (.readLoop, cursor) reader) :
    StepSound (.readLoop, cursor) reader
      (step handler (.readLoop, cursor) reader) := by
  have safe := ready.safe
  cases turn ready.valid reader with
  | complete chunk here more normal complete long =>
      subst here
      generalize arrivedEq : reader.partialMessageBuffer ++ chunk = arrived at *
      have arrivedLength : arrived.length =
          reader.partialMessageBuffer.length + chunk.length := by
        rw [← arrivedEq, List.length_append]
      have header := header_le_fullMessageLength arrived
      have within : fullMessageLength arrived ≤ arrived.length := complete
      obtain ⟨left, rest, content, capacity, split, shorter, _, room, fits,
          larger, _, parsed⟩ :=
        @step_complete _ handler _ _ _ safe normal arrivedEq.symm more complete
          long
      have roomy := Nat.le_trans safe.roomy larger
      rcases outcome : parseMessage handler
          (arrived.take (fullMessageLength arrived)) reader with
        ⟨stop | _, reached⟩
      · obtain ⟨same, exception, raised, _⟩ :=
          parseMessage_stops complete.isMessage outcome
        rw [parsed _ _ outcome]
        refine ⟨⟨fits, roomy, fun recovery => ?_⟩, exception, raised⟩
        rw [stored_needRecovery, same, normal] at recovery
        cases recovery
      · rw [parsed _ _ outcome]
        have lengths := congrArg List.length split
        simp only [List.length_append, List.length_drop] at lengths
        refine ⟨readLoop_ready ⟨Nat.le_of_lt room, roomy, fun _ => room⟩
          (Cursor.ofChunk_valid rest), ?_, ?_⟩
        · simp only [work, stored_partialMessageBuffer, Cursor.length_ofChunk,
            Int.toNat_natCast]
          omega
        · simp only [pendingBytes, stored_partialMessageBuffer,
            Cursor.length_ofChunk, Int.toNat_natCast]
          omega
  | waiting chunk here more normal short =>
      subst here
      obtain ⟨count, grows, within, _, stepped⟩ :=
        @step_waiting _ handler _ _ _ safe normal rfl more short
      rw [List.length_append] at within
      rw [stepped]
      refine ⟨readLoop_ready (safe.buffered normal _) (Cursor.ofChunk_valid _),
        ?_, ?_⟩
      · simp only [work, buffered_partialMessageBuffer, Cursor.length_ofChunk,
          Int.toNat_natCast, List.length_take, List.length_drop,
          List.length_append]
        omega
      · simp only [pendingBytes, buffered_partialMessageBuffer,
          Cursor.length_ofChunk, Int.toNat_natCast, List.length_take,
          List.length_drop, List.length_append]
        omega
  | leaves idle =>
      cases recovering : reader.needRecovery with
      | true =>
          rw [step_recovers recovering]
          refine ⟨⟨safe, ready.valid, fun _ => recovering⟩, ?_,
            Nat.le_refl _⟩
          simp only [work]
          omega
      | false =>
          rw [step_leaves recovering fun more => idle ⟨more, recovering⟩]
          rfl

theorem step_tryToRecover_sound {cursor : Cursor} {reader : Reader σ}
    (ready : Ready (.tryToRecover, cursor) reader) :
    StepSound (.tryToRecover, cursor) reader
      (step handler (.tryToRecover, cursor) reader) := by
  have safe := ready.safe
  have recovering := ready.recovers rfl
  by_cases positive : cursor.length > 0
  · obtain ⟨chunk, rfl⟩ : ∃ chunk, cursor = .ofChunk chunk :=
      ⟨_, ready.valid.eq_ofChunk positive⟩
    have more : chunk ≠ [] := by
      rintro rfl
      exact absurd positive (by decide)
    obtain ⟨count, some, within, fits, _, round⟩ :=
      recoverRound_ofChunk safe recovering more
    have taken : (reader.partialMessageBuffer ++ chunk.take count).length =
        reader.partialMessageBuffer.length + count := by
      rw [List.length_append, List.length_take, Nat.min_eq_left within]
    have roomy := safe.roomy
    simp only [kBufferSizeInit] at roomy
    cases scanned : firstFrom resumable
        (reader.partialMessageBuffer ++ chunk.take count) with
    | none =>
        rw [scanned] at round
        rw [step_tryToRecover more round]
        refine ⟨⟨⟨?_, roomy, fun _ => ?_⟩, Cursor.ofChunk_valid _,
          fun _ => recovering⟩, ?_, ?_⟩
        · simp only [List.length_drop, taken]
          omega
        · simp only [List.length_drop, taken]
          omega
        · simp only [work, List.length_drop, taken, Cursor.length_ofChunk,
            Int.toNat_natCast]
          omega
        · simp only [pendingBytes, List.length_drop, taken,
            Cursor.length_ofChunk, Int.toNat_natCast]
          omega
    | some found =>
        have shorter := (firstFrom_suffix scanned).length_le
        rw [scanned] at round
        rw [step_tryToRecover more round]
        refine ⟨readChunk_ready (.ofNormal ?_ roomy rfl)
          (Cursor.ofChunk_valid _), ?_, ?_⟩
        · simp only
          omega
        · simp only [work, List.length_drop, Cursor.length_ofChunk,
            Int.toNat_natCast]
          omega
        · simp only [pendingBytes, List.length_drop, Cursor.length_ofChunk,
            Int.toNat_natCast]
          omega
  · rw [step_searched positive]
    rfl

theorem step_sound {point : Point × Cursor} {reader : Reader σ}
    (ready : Ready point reader) :
    StepSound point reader (step handler point reader) := by
  obtain ⟨_ | _ | _, cursor⟩ := point
  · exact step_readChunk_sound ready
  · exact step_readLoop_sound ready
  · exact step_tryToRecover_sound ready

/-- The loops of the reader come with a measure. -/
theorem step_variant : Exec.Variant (step handler) Ready work where
  keeps ready moved := by
    have sound := @step_sound _ handler _ _ ready
    rw [moved] at sound
    exact sound.1
  decreases ready moved := by
    have sound := @step_sound _ handler _ _ ready
    rw [moved] at sound
    exact sound.2.1

theorem pendingBytes_reaches {start point : Point × Cursor}
    {reader reached : Reader σ} (ready : Ready start reader)
    (reaches : Exec.Reaches (step handler) start reader point reached) :
    pendingBytes point reached ≤ pendingBytes start reader := by
  induction reaches with
  | refl => exact Nat.le_refl _
  | tail before moved ih =>
      have sound := @step_sound _ handler _ _
        (before.keeps step_variant ready)
      rw [moved] at sound
      exact Nat.le_trans sound.2.2 ih

/-! ## Runs -/

theorem readChunk_ends {reader : Reader σ} (safe : reader.Safe)
    {cursor : Cursor} (valid : cursor.Valid) :
    ∃ last inside,
      Exec.Reaches (step handler) (.readChunk, cursor) reader last inside ∧
        Exec.EndsAt (step handler) last inside
          (readChunk handler cursor reader) :=
  step_variant.runLoop_ends (readChunk_ready safe valid)

/-- A call returns, or an exception of a constructor or of the handler escapes
from it. -/
theorem readChunk_sound {reader : Reader σ} (safe : reader.Safe)
    {cursor : Cursor} (valid : cursor.Valid) :
    (readChunk handler cursor reader).2.Safe ∧
      ∀ stop, (readChunk handler cursor reader).1 = .error stop →
        Raised stop := by
  obtain ⟨last, inside, reaches, ends⟩ :=
    @readChunk_ends _ handler _ safe _ valid
  have sound := @step_sound _ handler _ _
    (reaches.keeps step_variant (readChunk_ready safe valid))
  have safe := (reaches.keeps step_variant (readChunk_ready safe valid)).safe
  generalize readChunk handler cursor reader = outcome at ends ⊢
  cases ends with
  | done returned =>
      rw [returned] at sound
      cases sound
      exact ⟨safe, nofun⟩
  | stop stopped =>
      rw [stopped] at sound
      exact ⟨sound.1, fun _ same => by cases same; exact sound.2⟩

inductive Reachable (handler : DataHandlerInterface σ) (state : σ) :
    Reader σ → Prop
  | init : Reachable handler state (init state)
  | readChunk {reader : Reader σ} {cursor : Cursor}
      (before : Reachable handler state reader) (valid : cursor.Valid) :
      Reachable handler state (readChunk handler cursor reader).2

theorem Reachable.safe {state : σ} {reader : Reader σ}
    (reachable : Reachable handler state reader) : reader.Safe := by
  induction reachable with
  | init => exact init_safe state
  | readChunk _ valid ih => exact (readChunk_sound ih valid).1

def readEach (handler : DataHandlerInterface σ) (chunk : Bytes) :
    Exec Stop (Reader σ) Unit :=
  readChunk handler (.ofChunk chunk)

theorem Reachable.readEach {state : σ} {reader : Reader σ}
    (before : Reachable handler state reader) (chunks : List Bytes) :
    Reachable handler state (Exec.final (Reader.readEach handler) chunks reader) :=
  Exec.final_invariant
    (fun _ reachable => reachable.readChunk (Cursor.ofChunk_valid _)) before

def zerosLog : List Bytes :=
  [ulogFileMagicBytes ++ [1] ++ leBytes 8 7 ++ List.replicate 43 0,
    [4, 0, 65, 0, 7, 0, 97, 2], [0, 79, 5, 0]]

/-- Between any two steps of any call the buffer holds no more than was
allocated for it, and no step reads or writes outside an object. -/
theorem readChunk_inBounds {state : σ} {reader : Reader σ}
    (reachable : Reachable handler state reader) {cursor : Cursor}
    (valid : cursor.Valid) :
    (∀ point inside,
      Exec.Reaches (step handler) (.readChunk, cursor) reader point inside →
        0 ≤ inside.partialMessageBufferLength ∧
        inside.partialMessageBufferLength ≤
          inside.partialMessageBufferLengthCapacity ∧
        (step handler point inside).1 ≠ .error .outOfBounds) ∧
      0 ≤ (readChunk handler cursor reader).2.partialMessageBufferLength ∧
      (readChunk handler cursor reader).2.partialMessageBufferLength ≤
        (readChunk handler cursor
          reader).2.partialMessageBufferLengthCapacity ∧
      (readChunk handler cursor reader).1 ≠ .error .outOfBounds := by
  have safe := reachable.safe
  refine ⟨fun point inside reaches => ?_, ?_⟩
  · have ready := reaches.keeps step_variant (readChunk_ready safe valid)
    have sound := @step_sound _ handler _ _ ready
    refine ⟨Int.natCast_nonneg _, Int.ofNat_le.mpr ready.safe.fits, ?_⟩
    intro stopped
    rw [show step handler point inside = (.error .outOfBounds, _) from
      Prod.ext stopped rfl] at sound
    obtain ⟨_, exception, same⟩ := sound
    cases same
  · obtain ⟨kept, raised⟩ := @readChunk_sound _ handler _ safe _ valid
    refine ⟨Int.natCast_nonneg _, Int.ofNat_le.mpr kept.fits, ?_⟩
    intro stopped
    obtain ⟨exception, same⟩ := raised _ stopped
    cases same

theorem readChunk_inBounds_zeros :
    (readChunk DataHandlerInterface.base (.ofChunk [0, 79, 5, 0])
      (Exec.final (readEach DataHandlerInterface.base) zerosLog.dropLast
        (init ()))).1 ≠ .error .outOfBounds :=
  (readChunk_inBounds (Reachable.init.readEach _) (Cursor.ofChunk_valid _)).2.2.2

/-- Every call ends: it reaches a step at which it returns or throws, no matter
how many steps are allowed beyond the bound, and every step lowers `work`, so
that nothing is visited twice. -/
theorem readChunk_terminates {state : σ} {reader : Reader σ}
    (reachable : Reachable handler state reader) {cursor : Cursor}
    (valid : cursor.Valid) :
    (∃ last inside,
      Exec.Reaches (step handler) (.readChunk, cursor) reader last inside ∧
        Exec.EndsAt (step handler) last inside
          (readChunk handler cursor reader)) ∧
      (readChunk handler cursor reader).1 ≠ .error .outOfFuel ∧
      (∀ fuel, work (.readChunk, cursor) reader < fuel →
        Exec.iterate .outOfFuel (step handler) fuel (.readChunk, cursor)
          reader = readChunk handler cursor reader) ∧
      ∀ point next inside moved,
        Exec.Reaches (step handler) (.readChunk, cursor) reader point inside →
        step handler point inside = (.ok (some next), moved) →
          work next moved < work point inside ∧
            ¬ Exec.Reaches (step handler) next moved point inside := by
  have safe := reachable.safe
  have ready := readChunk_ready safe valid
  refine ⟨readChunk_ends safe valid, ?_, ?_, ?_⟩
  · intro stopped
    obtain ⟨exception, same⟩ :=
      (@readChunk_sound _ handler _ safe _ valid).2 _ stopped
    cases same
  · intro fuel enough
    exact step_variant.iterate_fuel ready enough (Nat.lt_succ_self _)
  · intro point next inside moved reaches stepped
    have here := reaches.keeps step_variant ready
    exact ⟨step_variant.decreases here stepped,
      step_variant.never_returns here stepped⟩

theorem readChunk_terminates_zeros :
    (readChunk DataHandlerInterface.base (.ofChunk [0, 79, 5, 0])
      (Exec.final (readEach DataHandlerInterface.base) zerosLog.dropLast
        (init ()))).1 ≠ .error .outOfFuel :=
  (readChunk_terminates (Reachable.init.readEach _) (Cursor.ofChunk_valid _)).2.1

end UlogCpp.Reader
