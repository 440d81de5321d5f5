import UlogCpp.Data.Run
import UlogCpp.Reader.Tidy

namespace UlogCpp

namespace Reader

variable {σ : Type} {handler : DataHandlerInterface σ}

/-! What a call leaves in the buffer. -/

/-- The bytes begin with a complete message that is not corruption. -/
def Holds (bytes : Bytes) : Prop := HasMessage bytes ∧ ¬ Corrupt bytes

instance (bytes : Bytes) : Decidable (Holds bytes) :=
  inferInstanceAs (Decidable (_ ∧ _))

/-- No message waits in the buffer, unless the reader needs recovery or has given
up the log. -/
def NothingWaits (reader : Reader σ) : Prop :=
  reader.needRecovery = false → reader.delivery.state ≠ .invalidData →
    ¬ Holds reader.partialMessageBuffer

/-- An empty chunk comes before the messages only. -/
def Supplies (reader : Reader σ) (chunk : Bytes) : Prop :=
  chunk = [] → Early reader.delivery.state

/-- The exception has come out of the parsing of the message with which the
buffer begins. -/
def Interrupted (handler : DataHandlerInterface σ) (point : Point × Cursor)
    (inside reached : Reader σ) (stop : Stop) : Prop :=
  ∃ message left after, reached.partialMessageBuffer = message ++ left ∧
    Parses point inside message ∧
    parseMessage handler message inside = (.error stop, after)

/-- After the call no message waits that has not been handed on. -/
def Drains (handler : DataHandlerInterface σ) (reader : Reader σ)
    (chunk : Bytes) : Prop :=
  Supplies reader chunk → ∀ outcome reached,
    readChunk handler (.ofChunk chunk) reader = (outcome, reached) →
    match outcome with
    | .ok () => NothingWaits reached
    | .error stop => NothingWaits reached ∨ ∃ point inside,
        Exec.Reaches (step handler) (.readChunk, .ofChunk chunk) reader point
          inside ∧
        Interrupted handler point inside reached stop

/-- A round of recovery does not go wrong: where it takes in all that is left of
the chunk, the message that it finds is not complete. -/
def RoundSettles (reader : Reader σ) (rest : Bytes) : Prop :=
  rest ≠ [] → reader.delivery.state ≠ .invalidData →
    reader.partialMessageBuffer.length + rest.length ≤
      reader.partialMessageBufferLengthCapacity →
    ∀ found,
      firstFrom resumable (reader.partialMessageBuffer ++ rest) = some found →
      ¬ HasMessage found

def RoundsSettle (handler : DataHandlerInterface σ) (reader : Reader σ)
    (chunk : Bytes) : Prop :=
  Supplies reader chunk → ∀ rest inside,
    Exec.Reaches (step handler) (.readChunk, .ofChunk chunk) reader
      (.tryToRecover, .ofChunk rest) inside →
    RoundSettles inside rest

section Holds

variable {bytes : Bytes}

theorem not_holds_nil : ¬ Holds [] := by decide

theorem not_holds_short (few : bytes.length ≤ 3) : ¬ Holds bytes := by
  rintro ⟨complete, clean⟩
  have full := toNat_msgSize bytes
  unfold HasMessage at complete
  refine clean (.inl (UInt16.toNat_inj.mp ?_))
  rw [UInt16.toNat_zero]
  omega

theorem not_corrupt_resumable (found : resumable bytes = true) :
    ¬ Corrupt bytes := by
  simp only [resumable, sane, Bool.and_eq_true, bne_iff_ne] at found
  exact not_or.mpr ⟨found.2.1.1.1, found.2.1.1.2⟩

end Holds

theorem NothingWaits.nil {reader : Reader σ}
    (empty : reader.partialMessageBuffer = []) : NothingWaits reader := by
  intro _ _
  rw [empty]
  exact not_holds_nil

/-! ## Within a call -/

def Swept (point : Point × Cursor) (reader : Reader σ) : Prop :=
  point.1 ≠ .tryToRecover → ¬ point.2.length > 0 → NothingWaits reader

def StepSwept (handler : DataHandlerInterface σ) (point : Point × Cursor)
    (reader : Reader σ) :
    Except Stop (Option (Point × Cursor)) × Reader σ → Prop
  | (.ok (some next), reached) => Swept next reached
  | (.ok none, reached) => NothingWaits reached
  | (.error stop, reached) =>
      NothingWaits reached ∨ Interrupted handler point reader reached stop

section Steps

variable {reader reached : Reader σ} {cursor : Cursor} {chunk : Bytes}
  {point : Point × Cursor}

theorem Swept.nothing (swept : Swept (.readLoop, cursor) reader)
    (spent : ¬ cursor.length > 0) : NothingWaits reader :=
  swept nofun spent

theorem not_positive :
    ¬ (Cursor.ofChunk chunk).length > 0 ↔ chunk = [] := by
  rw [Cursor.length_ofChunk, ← List.length_eq_zero_iff]
  omega

theorem prologue_keeps (valid : cursor.Valid) :
    Exec.Triple (SameBuffer reader)
      (do
        let cursor ← skipMagic handler cursor
        let cursor ← skipFlagBits handler cursor
        return some (Point.readLoop, cursor))
      (fun next reached => next.isSome ∧ SameBuffer reader reached)
      (StopsWith handler reader) := by
  refine .bind (skipMagic_shrinks valid) fun rest => ?_
  rintro middle ⟨same, valid, _⟩
  refine Exec.Triple.bind (skipFlagBits_shrinks valid) (fun last => ?_) middle
    same
  exact .pure _ fun _ shrinks => ⟨rfl, shrinks.1⟩

theorem swept_readChunk (tidy : Tidy (.readChunk, cursor) reader)
    (swept : Swept (.readChunk, cursor) reader) :
    StepSwept handler (.readChunk, cursor) reader
      (step handler (.readChunk, cursor) reader) := by
  by_cases invalid : reader.delivery.state = .invalidData
  · rw [step_readChunk_invalid invalid]
    exact fun _ live => absurd invalid live
  · by_cases early : Early reader.delivery.state
    · have kept := @prologue_keeps _ handler _ _ tidy.ready.valid reader (.refl _)
      rw [step_readChunk_live invalid]
      generalize (do
        let cursor ← skipMagic handler cursor
        let cursor ← skipFlagBits handler cursor
        return some (Point.readLoop, cursor)) reader = outcome at kept ⊢
      rcases outcome with ⟨stop | _ | next, reached⟩
      · exact .inl (.nil (kept.1.buffer.trans (tidy.early early).1))
      · cases kept.1
      · exact fun _ _ =>
          .nil (kept.2.buffer.trans (tidy.early early).1)
    · rw [step_readChunk_inLog (inLog_of_live early invalid)]
      exact fun _ spent => swept nofun spent

theorem swept_readLoop (tidy : Tidy (.readLoop, cursor) reader)
    (swept : Swept (.readLoop, cursor) reader) :
    StepSwept handler (.readLoop, cursor) reader
      (step handler (.readLoop, cursor) reader) := by
  have safe := tidy.ready.safe
  cases turn tidy.ready.valid reader with
  | complete chunk here more normal complete long =>
      subst here
      obtain ⟨left, rest, content, _, _, _, used, _, _, _, kept, parsed⟩ :=
        @step_complete _ handler _ _ _ safe normal rfl more complete long
      rcases outcome : parseMessage handler _ reader with ⟨stop | _, after⟩
      · rw [parsed _ _ outcome]
        rcases kept with nothing | begins
        · exact .inl (.nil nothing)
        · exact .inr ⟨_, left, after, begins,
            (parses_iff tidy.ready).mpr ⟨chunk, rfl, more, normal, complete,
              long, rfl⟩, outcome⟩
      · rw [parsed _ _ outcome]
        exact fun _ spent => .nil (used (not_positive.mp spent))
  | waiting chunk here more normal short =>
      subst here
      obtain ⟨count, _, _, _, stepped⟩ :=
        @step_waiting _ handler _ _ _ safe normal rfl more short
      rw [stepped]
      intro _ spent _ _
      rw [buffered_partialMessageBuffer, List.take_of_length_le
        (List.drop_eq_nil_iff.mp (not_positive.mp spent))]
      rcases short with incomplete | ⟨empty, few⟩
      · exact fun holds => incomplete holds.1
      · rw [empty]
        exact not_holds_short few
  | leaves idle =>
      cases recovering : reader.needRecovery with
      | true =>
          rw [step_recovers recovering]
          exact fun other => absurd rfl other
      | false =>
          have nothing : ¬ cursor.length > 0 :=
            fun more => idle ⟨more, recovering⟩
          rw [step_leaves recovering nothing]
          exact swept.nothing nothing

/-- Only here a message can be left. -/
theorem swept_tryToRecover (tidy : Tidy (.tryToRecover, cursor) reader)
    (settles : ∀ rest, cursor = .ofChunk rest → RoundSettles reader rest) :
    StepSwept handler (.tryToRecover, cursor) reader
      (step handler (.tryToRecover, cursor) reader) := by
  have recovering := tidy.ready.recovers rfl
  by_cases positive : cursor.length > 0
  · obtain ⟨chunk, rfl⟩ : ∃ chunk, cursor = .ofChunk chunk :=
      ⟨_, tidy.ready.valid.eq_ofChunk positive⟩
    have more : chunk ≠ [] := fun empty => not_positive.mpr empty positive
    obtain ⟨count, _, within, fits, _, round⟩ :=
      recoverRound_ofChunk tidy.ready.safe recovering more
    cases scan : firstFrom resumable
        (reader.partialMessageBuffer ++ chunk.take count) with
    | some found =>
        rw [scan] at round
        rw [step_tryToRecover more round]
        intro _ spent _ live holds
        have all : chunk.length ≤ count :=
          List.drop_eq_nil_iff.mp (not_positive.mp spent)
        rw [List.take_of_length_le all] at scan
        exact settles chunk rfl more live (by omega) found scan holds.1
    | none =>
        rw [scan] at round
        rw [step_tryToRecover more round]
        exact fun other => absurd rfl other
  · rw [step_searched positive]
    intro normal
    rw [recovering] at normal
    cases normal

theorem swept_step (tidy : Tidy point reader) (swept : Swept point reader)
    (settles : ∀ rest, point = (.tryToRecover, .ofChunk rest) →
      RoundSettles reader rest) :
    StepSwept handler point reader (step handler point reader) := by
  obtain ⟨_ | _ | _, cursor⟩ := point
  · exact swept_readChunk tidy swept
  · exact swept_readLoop tidy swept
  · exact swept_tryToRecover tidy fun rest here => settles rest (by rw [here])

end Steps

/-! ## Whole calls -/

section Calls

variable {reader reached inside : Reader σ} {chunk rest : Bytes}
  {point : Point × Cursor}

theorem swept_reaches (atRest : reader.AtRest) (supplies : Supplies reader chunk)
    (settle : ∀ rest inside,
      Exec.Reaches (step handler) (.readChunk, .ofChunk chunk) reader
        (.tryToRecover, .ofChunk rest) inside →
      RoundSettles inside rest)
    (reaches : Exec.Reaches (step handler) (.readChunk, .ofChunk chunk) reader
      point inside) :
    Swept point inside := by
  induction reaches with
  | refl =>
      exact fun _ spent =>
        .nil (atRest.early (supplies (not_positive.mp spent))).1
  | @tail middle _ inside _ before moved ih =>
      have tidy := (atRest.tidy (Cursor.ofChunk_valid chunk)).reaches before
      have swept := @swept_step _ handler _ _ tidy ih
        fun rest here => settle rest inside (here ▸ before)
      rw [moved] at swept
      exact swept

theorem RoundsSettle.drains (atRest : reader.AtRest)
    (settle : RoundsSettle handler reader chunk) :
    Drains handler reader chunk := by
  intro supplies outcome reached ran
  have valid := Cursor.ofChunk_valid chunk
  obtain ⟨last, inside, reaches, ends⟩ :=
    @readChunk_ends _ handler _ atRest.safe _ valid
  have tidy := (atRest.tidy valid).reaches reaches
  have swept := @swept_step _ handler _ _ tidy
    (swept_reaches atRest supplies (settle supplies) reaches)
    fun rest here => settle supplies rest inside (here ▸ reaches)
  rw [ran] at ends
  cases ends with
  | done returned =>
      rw [returned] at swept
      exact swept
  | stop stopped =>
      rw [stopped] at swept
      exact swept.imp_right fun interrupted =>
        ⟨last, inside, reaches, interrupted⟩

/-- After a round that does not settle the loop is not entered again. -/
theorem leaves_waiting (tidy : Tidy (.tryToRecover, .ofChunk rest) inside)
    (unsettled : ¬ RoundSettles inside rest) :
    ∃ reached,
      Exec.runLoop .outOfFuel (step handler) work (.tryToRecover, .ofChunk rest)
        inside = (.ok (), reached) ∧
      ¬ NothingWaits reached := by
  obtain ⟨more, live, room, found, scan, complete⟩ :
      rest ≠ [] ∧ inside.delivery.state ≠ .invalidData ∧
        inside.partialMessageBuffer.length + rest.length ≤
          inside.partialMessageBufferLengthCapacity ∧
        ∃ found, firstFrom resumable (inside.partialMessageBuffer ++ rest) =
          some found ∧ HasMessage found := by
    simpa only [RoundSettles, Classical.not_imp, not_forall, Classical.not_not]
      using unsettled
  have recovers := tidy.recovers live
  obtain ⟨count, _, _, _, all, round⟩ :=
    recoverRound_ofChunk recovers.safe recovers.recovering more
  rw [all room, List.take_length, List.drop_length, scan] at round
  have stepped := @step_tryToRecover _ _ _ handler _ _ more round
  have kept := step_variant.keeps tidy.ready stepped
  have inLog : inside.delivery.state.InLog := recovers.inLog
  have entered := @step_readChunk_inLog _ handler
    { inside with partialMessageBuffer := found, needRecovery := false } inLog
    (.ofChunk [])
  refine ⟨{ inside with partialMessageBuffer := found, needRecovery := false },
    ?_, fun nothing => nothing rfl live
      ⟨complete, not_corrupt_resumable (firstFrom_holds scan)⟩⟩
  calc Exec.runLoop .outOfFuel (step handler) work (.tryToRecover, .ofChunk rest)
        inside
      = _ := step_variant.runLoop_next tidy.ready stepped
    _ = _ := step_variant.runLoop_next kept entered
    _ = _ := Exec.runLoop_done (step_leaves rfl (by decide))

theorem Drains.settles (atRest : reader.AtRest)
    (drains : Drains handler reader chunk) :
    RoundsSettle handler reader chunk := by
  intro supplies rest inside reaches
  by_contra unsettled
  have ready := readChunk_ready atRest.safe (Cursor.ofChunk_valid chunk)
  have tidy := (atRest.tidy (Cursor.ofChunk_valid chunk)).reaches reaches
  obtain ⟨reached, ran, waits⟩ := leaves_waiting tidy unsettled
  exact waits (drains supplies (.ok ()) reached
    ((step_variant.runLoop_reaches ready reaches).trans ran))

/-- In a run of which every round of recovery settles, no message is left waiting
after any call, and in no other. -/
theorem readChunk_drains (handler : DataHandlerInterface σ) (start : σ)
    (chunks : List Bytes) :
    Exec.Throughout (fun chunk => readChunk handler (.ofChunk chunk))
        (Drains handler) chunks (init start) ↔
      Exec.Throughout (fun chunk => readChunk handler (.ofChunk chunk))
        (RoundsSettle handler) chunks (init start) :=
  Exec.throughout_iff
    (fun _ atRest => ⟨fun drains => drains.settles atRest,
      fun settle => settle.drains atRest⟩)
    (fun _ atRest _ => atRest.readChunk (Cursor.ofChunk_valid _))
    (init_atRest start)

/-- A log that begins with zeros, and an `ADD_LOGGED_MSG` that is too short. -/
def waitingChunk : Bytes :=
  ulogFileMagicBytes ++ [1] ++ leBytes 8 7 ++ List.replicate 43 0 ++
    [1, 0, 65, 7]

theorem waitingChunk_waits :
    ¬ Exec.Throughout
      (fun chunk => readChunk DataHandlerInterface.base (.ofChunk chunk))
      (Drains DataHandlerInterface.base) [waitingChunk] (init ()) := by
  rintro ⟨drains, _⟩
  have returned : readChunk DataHandlerInterface.base (.ofChunk waitingChunk)
      (init ()) = (.ok (), _) :=
    Prod.ext (by decide +kernel) rfl
  refine drains nofun _ _ returned ?_ ?_ ?_
  · decide +kernel
  · decide +kernel
  · decide +kernel

end Calls

end Reader

end UlogCpp
