import UlogCpp.Reader.Recovery
import UlogCpp.Reader.Skip

namespace UlogCpp

namespace Reader

variable {σ : Type} {handler : DataHandlerInterface σ}

/-! What holds of a reader in the middle of a call and between calls, apart from
the bounds of its buffer. -/

def Early (state : State) : Prop := state = .readMagic ∨ state = .readFlagBits

theorem inLog_of_live {state : State} (late : ¬ Early state)
    (live : state ≠ .invalidData) : state.InLog := by
  cases state with
  | readMagic => exact absurd (.inl rfl) late
  | readFlagBits => exact absurd (.inr rfl) late
  | readHeader => exact .inl rfl
  | readData => exact .inr rfl
  | invalidData => exact absurd rfl live

structure AtRest (reader : Reader σ) : Prop where
  safe : reader.Safe
  reported : reader.needRecovery = true → reader.corruptionReported = true
  early : Early reader.delivery.state →
    reader.partialMessageBuffer = [] ∧ reader.needRecovery = false
  scanned : reader.needRecovery = true →
    firstFrom resumable reader.partialMessageBuffer = none

structure Tidy (point : Point × Cursor) (reader : Reader σ) : Prop where
  ready : Ready point reader
  reported : reader.needRecovery = true → reader.corruptionReported = true
  early : Early reader.delivery.state →
    reader.partialMessageBuffer = [] ∧ reader.needRecovery = false ∧
      (point.1 ≠ .readChunk → ¬ point.2.length > 0)
  scanned : reader.needRecovery = true →
    (point.1 = .readChunk ∨ ¬ point.2.length > 0) →
    firstFrom resumable reader.partialMessageBuffer = none

def StepTidy : Except Stop (Option (Point × Cursor)) × Reader σ → Prop
  | (.ok (some next), reached) => Tidy next reached
  | (.ok none, reached) => AtRest reached
  | (.error _, reached) => AtRest reached

theorem AtRest.tidy {reader : Reader σ} (rest : reader.AtRest) {cursor : Cursor}
    (valid : cursor.Valid) : Tidy (.readChunk, cursor) reader where
  ready := readChunk_ready rest.safe valid
  reported := rest.reported
  early early := ⟨(rest.early early).1, (rest.early early).2,
    fun other => absurd rfl other⟩
  scanned recovering _ := rest.scanned recovering

theorem init_atRest (start : σ) : (init start).AtRest :=
  ⟨init_safe start, nofun, fun _ => ⟨rfl, rfl⟩, nofun⟩

theorem AtRest.normal {reader : Reader σ} (safe : reader.Safe)
    (normal : reader.needRecovery = false)
    (early : Early reader.delivery.state → reader.partialMessageBuffer = []) :
    reader.AtRest where
  safe := safe
  reported recovering := by
    rw [normal] at recovering
    cases recovering
  early early' := ⟨early early', normal⟩
  scanned recovering := by
    rw [normal] at recovering
    cases recovering

theorem Tidy.normal {reader : Reader σ} {point : Point × Cursor}
    (ready : Ready point reader) (normal : reader.needRecovery = false)
    (early : Early reader.delivery.state → reader.partialMessageBuffer = [] ∧
      (point.1 ≠ .readChunk → ¬ point.2.length > 0)) :
    Tidy point reader where
  ready := ready
  reported recovering := by
    rw [normal] at recovering
    cases recovering
  early early' := ⟨(early early').1, normal, (early early').2⟩
  scanned recovering := by
    rw [normal] at recovering
    cases recovering

theorem Tidy.atRest {reader : Reader σ} {point : Point × Cursor}
    (tidy : Tidy point reader) (spent : ¬ point.2.length > 0) :
    reader.AtRest where
  safe := tidy.ready.safe
  reported := tidy.reported
  early early := ⟨(tidy.early early).1, (tidy.early early).2.1⟩
  scanned recovering := tidy.scanned recovering (.inr spent)

/-! ## The start of a log -/

section Start

variable {before : Reader σ → Prop} {cursor : Cursor}

theorem trivially (program : Exec Stop (Reader σ) α) :
    Exec.Triple before program (fun _ _ => True) (fun _ _ => True) := by
  intro reader _
  split <;> trivial

theorem enters (property : State → Prop) (program : Exec Stop (Reader σ) Unit)
    {state : State} (holds : property state) (value : α) :
    Exec.Triple before
      (do
        program
        Reader.setState state
        return value)
      (fun _ reader => property reader.delivery.state) (fun _ _ => True) :=
  .bind (trivially program) fun _ _ _ => holds

theorem readMagic_leaves :
    Exec.Triple before (readMagic handler cursor)
      (fun _ reader => reader.delivery.state ≠ .readMagic)
      (fun _ _ => True) := by
  have invalid : State.invalidData ≠ .readMagic := nofun
  refine .ite (fun _ => enters (· ≠ .readMagic) _ invalid _) fun _ => ?_
  refine .bind (trivially _) fun header => ?_
  refine .ite (fun _ => enters (· ≠ .readMagic) _ invalid _) fun _ => ?_
  exact fun _ _ => nofun

theorem readFlagBits_leaves :
    Exec.Triple before (readFlagBits handler cursor)
      (fun _ reader => ¬ Early reader.delivery.state) (fun _ _ => True) := by
  have invalid : ¬ Early .invalidData := nofun
  have header : ¬ Early .readHeader := nofun
  refine .ite (fun _ => enters (¬ Early ·) _ invalid _) fun _ => ?_
  refine .bind (trivially _) fun flagBits => .ite (fun _ => ?_) fun _ => ?_
  · refine .bind (trivially _) fun _ => ?_
    refine .ite (fun _ => enters (¬ Early ·) _ invalid _) fun _ => ?_
    exact .bind (trivially _) fun _ => enters (¬ Early ·) _ header _
  · exact .bind (trivially _) fun _ => enters (¬ Early ·) _ header _

theorem skipMagic_leaves :
    Exec.Triple before (skipMagic handler cursor)
      (fun _ reader => reader.delivery.state ≠ .readMagic)
      (fun _ _ => True) := by
  intro reader holds
  rw [skipMagic, Exec.get_bind_apply]
  by_cases magic : reader.delivery.state = .readMagic
  · rw [if_pos magic]
    exact Exec.Triple.bind readMagic_leaves (fun _ _ left => left) reader holds
  · rw [if_neg magic]
    exact magic

theorem skipFlagBits_leaves :
    Exec.Triple (fun reader => reader.delivery.state ≠ .readMagic)
      (skipFlagBits handler cursor)
      (fun rest reader => Early reader.delivery.state → ¬ rest.length > 0)
      (fun _ _ => True) := by
  intro reader left
  rw [skipFlagBits, Exec.get_bind_apply]
  by_cases reads : reader.delivery.state = .readFlagBits ∧ cursor.length > 0
  · rw [if_pos reads]
    refine Exec.Triple.bind
      (@readFlagBits_leaves _ handler (fun _ => True) cursor) (fun _ => ?_)
      reader trivial
    exact .pure _ fun _ late early => absurd early late
  · rw [if_neg reads]
    rintro (magic | flagBits) positive
    · exact left magic
    · exact reads ⟨flagBits, positive⟩

theorem Tidy.step_readChunk {reader : Reader σ}
    (tidy : Tidy (.readChunk, cursor) reader) :
    StepTidy (step handler (.readChunk, cursor) reader) := by
  have sound := @step_sound _ handler _ _ tidy.ready
  by_cases early : Early reader.delivery.state
  · obtain ⟨empty, normal, _⟩ := tidy.early early
    have shrinks := @skipMagic_shrinks _ handler reader cursor tidy.ready.valid
    have valid : reader.delivery.state ≠ .invalidData := by
      rcases early with state | state <;> rw [state] <;> nofun
    rw [step_readChunk_live valid] at sound ⊢
    rcases first : skipMagic handler cursor reader with ⟨stop | rest, middle⟩
    · rw [Exec.bind_error first] at sound ⊢
      obtain ⟨same, _⟩ := shrinks.error (.refl reader) first
      exact .normal sound.1 (same.needRecovery.trans normal)
        fun _ => same.buffer.trans empty
    · rw [Exec.bind_ok first] at sound ⊢
      obtain ⟨same, valid, _⟩ := shrinks.ok (.refl reader) first
      have left := (@skipMagic_leaves _ handler (fun _ => True) cursor).ok trivial
        first
      have shrinks' := @skipFlagBits_shrinks _ handler reader rest valid
      rcases second : skipFlagBits handler rest middle with ⟨stop | last, final⟩
      · rw [Exec.bind_error second] at sound ⊢
        obtain ⟨same, _⟩ := shrinks'.error same second
        exact .normal sound.1 (same.needRecovery.trans normal)
          fun _ => same.buffer.trans empty
      · rw [Exec.bind_ok second] at sound ⊢
        obtain ⟨same, _, _⟩ := shrinks'.ok same second
        refine .normal sound.1 (same.needRecovery.trans normal) fun early' => ?_
        exact ⟨same.buffer.trans empty,
          fun _ => skipFlagBits_leaves.ok left second early'⟩
  · by_cases invalid : reader.delivery.state = .invalidData
    · rw [step_readChunk_invalid invalid]
      exact ⟨tidy.ready.safe, tidy.reported, fun early' => absurd early' early,
        fun recovering => tidy.scanned recovering (.inl rfl)⟩
    · rw [step_readChunk_inLog (inLog_of_live early invalid)]
      exact ⟨readLoop_ready tidy.ready.safe tidy.ready.valid, tidy.reported,
        fun early' => absurd early' early,
        fun recovering _ => tidy.scanned recovering (.inl rfl)⟩

end Start

/-! ## The loops -/

section Loops

variable {cursor : Cursor} {reader reached : Reader σ} {message : Bytes}

theorem late_invariant :
    DeliveryInvariant handler fun delivery => ¬ Early delivery.state where
  error _ _ _ late _ := late
  deliver message delivery late := by
    have next := (@Delivery.deliver_progress _ handler message
      delivery).state_eq
    rw [next]
    cases state : delivery.state with
    | readMagic => exact absurd (.inl state) late
    | readFlagBits => exact absurd (.inr state) late
    | readHeader =>
        rcases Delivery.nextState_inLog (.inl rfl) message with same | same <;>
          rw [same] <;> nofun
    | readData | invalidData => nofun
  magic _ late magic := absurd (.inl magic) late
  invalid _ late early := absurd early late
  fileHeader _ _ late flagBits := absurd (.inr flagBits) late

theorem corruptionDetected_ok
    (returned : corruptionDetected handler reader = (.ok (), reached)) :
    reached.corruptionReported = true := by
  cases reported : reader.corruptionReported with
  | true =>
      rw [corruptionDetected_again reported] at returned
      cases returned
      exact reported
  | false =>
      rcases called : Delivery.call handler corruptionError reader.delivery with
        ⟨stop | _, delivery⟩
      · rw [corruptionDetected_escaped reported called] at returned
        cases returned
      · rw [corruptionDetected_first reported called] at returned
        cases returned
        rfl

theorem parseMessage_ok (sized : 3 ≤ message.length)
    (parsed : parseMessage handler message reader = (.ok (), reached)) :
    reached.needRecovery = reader.needRecovery ∨
      reached.corruptionReported = true := by
  by_cases corrupt : Corrupt message
  · rw [parseMessage_corrupt sized corrupt] at parsed
    exact .inr (corruptionDetected_ok parsed)
  · rcases delivered : Delivery.deliver handler message reader.delivery with
      ⟨stop | _, delivery⟩
    · by_cases parsing : ∃ reason, stop = .raised (.parsing reason)
      · obtain ⟨reason, rfl⟩ := parsing
        rw [parseMessage_rejected sized corrupt delivered] at parsed
        exact .inr (corruptionDetected_ok parsed)
      · rw [parseMessage_escaped sized corrupt
          (fun reason same => parsing ⟨reason, same⟩) delivered] at parsed
        cases parsed
    · rw [parseMessage_delivered sized corrupt delivered] at parsed
      cases parsed
      exact .inl rfl

theorem readLoop_ne : ((.readLoop, cursor) : Point × Cursor).1 ≠ .readChunk :=
  nofun

theorem tryToRecover_ne :
    ((.tryToRecover, cursor) : Point × Cursor).1 ≠ .readChunk :=
  nofun

theorem Tidy.late {chunk : Bytes}
    (tidy : Tidy (.readLoop, .ofChunk chunk) reader) (more : chunk ≠ []) :
    ¬ Early reader.delivery.state := fun early =>
  (tidy.early early).2.2 readLoop_ne
    (Int.ofNat_lt.mpr (List.length_pos_iff.mpr more))

theorem Tidy.step_readLoop (tidy : Tidy (.readLoop, cursor) reader) :
    StepTidy (step handler (.readLoop, cursor) reader) := by
  have sound := @step_sound _ handler _ _ tidy.ready
  have safe := tidy.ready.safe
  cases turn tidy.ready.valid reader with
  | complete chunk here more normal complete long =>
      subst here
      have late := tidy.late more
      obtain ⟨left, rest, content, capacity, _, _, used, _, _, _, _, parsed⟩ :=
        @step_complete _ handler _ _ _ safe normal rfl more complete long
      have whole := complete.isMessage
      generalize (reader.partialMessageBuffer ++ chunk).take _ = message
        at parsed whole
      have stays := ((@late_invariant _ handler).parseMessage message).outcome late
      rcases outcome : parseMessage handler message reader with ⟨stop | _, reached⟩
      · rw [outcome] at stays
        obtain ⟨same, _⟩ := parseMessage_stops whole outcome
        rw [parsed _ _ outcome] at sound ⊢
        exact .normal sound.1 (same.trans normal) fun early => absurd early stays
      · rw [outcome] at stays
        rw [parsed _ _ outcome] at sound ⊢
        refine ⟨sound.1, fun recovering => ?_, fun early => absurd early stays,
          fun _ spent => ?_⟩
        · rcases parseMessage_ok whole.header_le outcome with same | reported
          · rw [stored_needRecovery, same, normal] at recovering
            cases recovering
          · exact reported
        · have nothing : rest = [] := by
            rcases spent with other | spent
            · cases other
            · exact List.length_eq_zero_iff.mp
                (Nat.eq_zero_of_not_pos fun some => spent (Int.ofNat_lt.mpr some))
          rw [stored_partialMessageBuffer, used nothing]
          rfl
  | waiting chunk here more normal short =>
      subst here
      have late := tidy.late more
      obtain ⟨count, _, _, _, stepped⟩ :=
        @step_waiting _ handler _ _ _ safe normal rfl more short
      rw [stepped] at sound ⊢
      exact .normal sound.1 normal fun early => absurd early late
  | leaves idle =>
      cases recovering : reader.needRecovery with
      | true =>
          rw [step_recovers recovering] at sound ⊢
          exact ⟨sound.1, tidy.reported, fun early => ⟨(tidy.early early).1,
            (tidy.early early).2.1, fun _ => (tidy.early early).2.2 readLoop_ne⟩,
            fun recovering spent => tidy.scanned recovering
              (.inr (spent.resolve_left tryToRecover_ne))⟩
      | false =>
          rw [step_leaves recovering fun more => idle ⟨more, recovering⟩]
          exact .normal safe recovering fun early => (tidy.early early).1

theorem Tidy.step_tryToRecover (tidy : Tidy (.tryToRecover, cursor) reader) :
    StepTidy (step handler (.tryToRecover, cursor) reader) := by
  have sound := @step_sound _ handler _ _ tidy.ready
  have recovering := tidy.ready.recovers rfl
  have late : ¬ Early reader.delivery.state := fun early => by
    rw [(tidy.early early).2.1] at recovering
    cases recovering
  by_cases positive : cursor.length > 0
  · obtain ⟨chunk, rfl⟩ : ∃ chunk, cursor = .ofChunk chunk :=
      ⟨_, tidy.ready.valid.eq_ofChunk positive⟩
    have more : chunk ≠ [] := by
      rintro rfl
      exact absurd positive (by decide)
    obtain ⟨count, _, _, _, _, round⟩ :=
      recoverRound_ofChunk tidy.ready.safe recovering more
    cases scan : firstFrom resumable
        (reader.partialMessageBuffer ++ chunk.take count) with
    | some found =>
        rw [scan] at round
        rw [step_tryToRecover more round] at sound ⊢
        exact .normal sound.1 rfl fun early => absurd early late
    | none =>
        rw [scan] at round
        rw [step_tryToRecover more round] at sound ⊢
        refine ⟨sound.1, tidy.reported, fun early => absurd early late,
          fun _ _ => firstFrom_eq_none fun skipped _ =>
            resumable_lookahead.short ?_⟩
        simp only [List.length_drop, List.length_append, List.length_take]
        omega
  · rw [step_searched positive]
    exact tidy.atRest positive

theorem Tidy.step {point : Point × Cursor} (tidy : Tidy point reader) :
    StepTidy (step handler point reader) := by
  obtain ⟨_ | _ | _, cursor⟩ := point
  · exact tidy.step_readChunk
  · exact tidy.step_readLoop
  · exact tidy.step_tryToRecover

theorem Tidy.reaches {start point : Point × Cursor} (tidy : Tidy start reader)
    (reaches : Exec.Reaches (Reader.step handler) start reader point reached) :
    Tidy point reached := by
  induction reaches with
  | refl => exact tidy
  | tail _ moved ih =>
      have kept := @Tidy.step _ handler _ _ ih
      rw [moved] at kept
      exact kept

theorem Tidy.recovers (tidy : Tidy (.tryToRecover, cursor) reader)
    (live : reader.delivery.state ≠ .invalidData) :
    reader.Recovers reader.partialMessageBuffer reader.delivery := by
  have recovering := tidy.ready.recovers rfl
  refine ⟨tidy.ready.safe, recovering, inLog_of_live ?_ live, rfl, rfl,
    tidy.reported recovering⟩
  intro early
  rw [(tidy.early early).2.1] at recovering
  cases recovering

theorem AtRest.readChunk (rest : reader.AtRest) (valid : cursor.Valid) :
    (readChunk handler cursor reader).2.AtRest := by
  obtain ⟨last, inside, reaches, ends⟩ :=
    @readChunk_ends _ handler _ rest.safe _ valid
  have kept := @Tidy.step _ handler _ _ ((rest.tidy valid).reaches reaches)
  generalize Reader.readChunk handler cursor reader = outcome at ends ⊢
  cases ends with
  | done returned =>
      rw [returned] at kept
      exact kept
  | stop stopped =>
      rw [stopped] at kept
      exact kept

theorem Reachable.atRest {start : σ} (reachable : Reachable handler start reader) :
    reader.AtRest := by
  induction reachable with
  | init => exact init_atRest start
  | readChunk _ valid ih => exact ih.readChunk valid

end Loops

end Reader

end UlogCpp
