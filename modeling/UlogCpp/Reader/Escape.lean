import UlogCpp.Reader.Stream

namespace UlogCpp

/-! Which exceptions get past the reader to its caller. -/

namespace Delivery

variable {σ : Type} {handler : DataHandlerInterface σ}

/-- The handler throws only what the reader catches, and not from the calls
that the reader makes outside of its `try` block. -/
structure Contained (handler : DataHandlerInterface σ) : Prop where
  parsing : ∀ exception, Throws handler exception → exception.IsParsing
  early : ∀ callback : Callback, callback.Early → handler.Accepts callback

theorem Contained.not_early (contained : Contained handler)
    {callback : Callback} {exception : Exception}
    (throws : ThrowsFrom handler callback exception) : ¬ callback.Early := by
  intro early
  obtain ⟨state, thrown⟩ := throws
  obtain ⟨reached, returned⟩ := contained.early callback early state
  rw [returned] at thrown
  cases thrown

theorem RejectsKeyOf.sized {message : Bytes} {type : Option ULogMessageType}
    (rejected : RejectsKeyOf message type) :
    0 < (msgSize message).toNat ∧ type ≠ none := by
  rcases type with _ | type
  · exact rejected.elim
  · refine ⟨?_, nofun⟩
    cases type
    case info | parameter | infoMultiple | parameterDefault =>
      exact Nat.zero_lt_of_lt rejected.2.1
    all_goals exact rejected.elim

theorem RejectsField.sized {state : State} {message : Bytes}
    (whole : IsMessage message) (rejected : RejectsField state message) :
    0 < (msgSize message).toNat ∧
      ULogMessageType.ofCode? (msgType message) ≠ none := by
  cases state with
  | readHeader =>
      rcases rejected with keyed | ⟨format, _, _, atColon, _⟩
      · exact keyed.sized
      · have positive := List.length_pos_iff.mpr (splitFirst_ne_nil atColon)
        rw [List.length_drop, whole, ← toNat_msgSize] at positive
        refine ⟨by omega, ?_⟩
        rw [format]
        nofun
  | readData => exact RejectsKeyOf.sized rejected
  | readMagic | readFlagBits | invalidData => exact rejected.elim

/-- A message with a rejected array length is not skipped as corrupt. -/
theorem RejectsField.not_corrupt {state : State} {message : Bytes}
    (whole : IsMessage message) (rejected : RejectsField state message) :
    ¬ Reader.Corrupt message := by
  obtain ⟨sized, typed⟩ := rejected.sized whole
  rintro (empty | untyped)
  · rw [empty] at sized
    exact absurd sized (by decide)
  · rw [untyped] at typed
    exact typed rfl

end Delivery

namespace Reader

variable {σ : Type} {handler : DataHandlerInterface σ} {reader : Reader σ}

theorem parseMessage_escapes {message : Bytes} (whole : IsMessage message)
    (rejected : Delivery.RejectsField reader.delivery.state message) :
    ∃ stop reached,
      parseMessage handler message reader = (.error stop, reached) := by
  obtain ⟨exception, delivery, escaped, foreign⟩ :=
    @Delivery.deliver_escapes _ handler _ whole _ rejected
  refine ⟨_, _, parseMessage_escaped whole.header_le
    (rejected.not_corrupt whole) ?_ escaped⟩
  rintro reason same
  cases same
  exact foreign trivial

/-- With a contained handler the array lengths are all that escapes. -/
theorem parseMessage_contained (contained : Delivery.Contained handler)
    {message : Bytes} (whole : IsMessage message) {stop : Stop}
    {reached : Reader σ}
    (stopped : parseMessage handler message reader = (.error stop, reached)) :
    Delivery.RejectsField reader.delivery.state message := by
  obtain ⟨_, exception, _, rejected | reported | ⟨throws, foreign⟩⟩ :=
    parseMessage_stops whole stopped
  · exact rejected
  · exact absurd trivial (contained.not_early reported)
  · exact absurd (contained.parsing exception throws) foreign

/-! ## Configurations of a run -/

def Parses (point : Point × Cursor) (reader : Reader σ) (message : Bytes) :
    Prop :=
  point.1 = .readLoop ∧ 0 < point.2.length ∧ reader.needRecovery = false ∧
    ∃ fromBuffer rest between,
      nextMessage point.2 reader =
        (.ok (some ⟨message, fromBuffer⟩, rest), between)

theorem parses_iff {point : Point × Cursor} {message : Bytes}
    (ready : Ready point reader) :
    Parses point reader message ↔
      ∃ chunk, point = (.readLoop, .ofChunk chunk) ∧ chunk ≠ [] ∧
        reader.needRecovery = false ∧
        HasMessage (reader.partialMessageBuffer ++ chunk) ∧
        (reader.partialMessageBuffer ≠ [] ∨ 3 < chunk.length) ∧
        message = (reader.partialMessageBuffer ++ chunk).take
          (fullMessageLength (reader.partialMessageBuffer ++ chunk)) := by
  constructor
  · obtain ⟨point, cursor⟩ := point
    rintro ⟨rfl, positive, normal, fromBuffer, rest, between, found⟩
    cases turn ready.valid reader with
    | complete chunk here more _ complete long =>
        subst here
        obtain ⟨_, _, _, same, _⟩ :=
          nextMessage_complete ready.safe normal rfl more complete long
        rw [found] at same
        cases same
        exact ⟨chunk, rfl, more, normal, complete, long, rfl⟩
    | waiting chunk here more _ short =>
        subst here
        obtain ⟨_, _, _, _, same⟩ :=
          nextMessage_waiting ready.safe normal rfl more short
        rw [found] at same
        cases same
    | leaves idle => exact absurd ⟨positive, normal⟩ idle
  · rintro ⟨chunk, rfl, more, normal, complete, long, rfl⟩
    obtain ⟨_, _, _, found, _⟩ :=
      nextMessage_complete ready.safe normal rfl more complete long
    refine ⟨rfl, ?_, normal, _, _, _, found⟩
    exact Int.natCast_pos.mpr (List.length_pos_iff.mpr more)

theorem Parses.stops {point : Point × Cursor} {message : Bytes}
    (ready : Ready point reader) (parses : Parses point reader message) :
    IsMessage message ∧ ∀ stop reached,
      parseMessage handler message reader = (.error stop, reached) →
        ∃ final, step handler point reader = (.error stop, final) := by
  obtain ⟨chunk, rfl, more, normal, complete, long, rfl⟩ :=
    (parses_iff ready).mp parses
  obtain ⟨_, _, _, _, _, _, _, _, _, _, _, parsed⟩ :=
    @step_complete _ handler _ _ _ ready.safe normal rfl more complete long
  exact ⟨complete.isMessage, fun stop reached stopped =>
    ⟨_, parsed _ _ stopped⟩⟩

theorem step_tryToRecover_returns {cursor : Cursor}
    (ready : Ready (.tryToRecover, cursor) reader) :
    ∃ answer reached,
      step handler (.tryToRecover, cursor) reader = (.ok answer, reached) := by
  by_cases positive : cursor.length > 0
  · obtain ⟨chunk, rfl⟩ : ∃ chunk, cursor = .ofChunk chunk :=
      ⟨_, ready.valid.eq_ofChunk positive⟩
    have more : chunk ≠ [] := by
      rintro rfl
      exact absurd positive (by decide)
    obtain ⟨_, _, _, _, _, round⟩ :=
      recoverRound_ofChunk ready.safe (ready.recovers rfl) more
    split at round <;> exact ⟨_, _, step_tryToRecover more round⟩
  · exact ⟨none, reader, step_searched positive⟩

/-- A step stops with an exception of an early callback, or of a message that
it parses. -/
theorem step_stops {point : Point × Cursor} (ready : Ready point reader)
    {stop : Stop} {final : Reader σ}
    (stopped : step handler point reader = (.error stop, final)) :
    (∃ callback exception, callback.Early ∧
      Delivery.ThrowsFrom handler callback exception) ∨
    ∃ message reached, Parses point reader message ∧ IsMessage message ∧
      parseMessage handler message reader = (.error stop, reached) := by
  obtain ⟨_ | _ | _, cursor⟩ := point
  · left
    simp only [step] at stopped
    rw [Exec.get_bind_apply] at stopped
    split at stopped
    · cases stopped
    · have magic := @skipMagic_shrinks _ handler reader cursor ready.valid
      rcases Exec.bind_eq_error.mp stopped with first | ⟨rest, _, first, after⟩
      · obtain ⟨_, exception, callback, _, thrown⟩ :=
          magic.error (.refl reader) first
        exact ⟨callback, exception, thrown⟩
      · obtain ⟨same, valid, _⟩ := magic.ok (.refl reader) first
        have flagBits := @skipFlagBits_shrinks _ handler reader rest valid
        rcases Exec.bind_eq_error.mp after with second | ⟨_, _, _, ended⟩
        · obtain ⟨_, exception, callback, _, thrown⟩ :=
            flagBits.error same second
          exact ⟨callback, exception, thrown⟩
        · cases ended
  · right
    cases turn ready.valid reader with
    | complete chunk here more normal complete long =>
        subst here
        obtain ⟨_, _, _, _, _, _, _, _, _, _, _, parsed⟩ :=
          @step_complete _ handler _ _ _ ready.safe normal rfl more complete
            long
        rcases outcome : parseMessage handler _ reader with ⟨inner | _, reached⟩
        all_goals
          rw [parsed _ _ outcome] at stopped
          cases stopped
        have parses := (parses_iff ready).mpr
          ⟨chunk, rfl, more, normal, complete, long, rfl⟩
        exact ⟨_, reached, parses, complete.isMessage, outcome⟩
    | waiting chunk here more normal short =>
        subst here
        obtain ⟨_, _, _, _, stepped⟩ :=
          @step_waiting _ handler _ _ _ ready.safe normal rfl more short
        rw [stepped] at stopped
        cases stopped
    | leaves idle =>
        simp only [step] at stopped
        rw [Exec.get_bind_apply, if_neg idle] at stopped
        split at stopped <;> cases stopped
  · obtain ⟨answer, reached, returned⟩ :=
      @step_tryToRecover_returns _ handler _ _ ready
    rw [returned] at stopped
    cases stopped

/-! ## Calls of `readChunk` -/

def Visits (handler : DataHandlerInterface σ) (chunks : List Bytes)
    (start : Reader σ) (point : Point × Cursor) (inside : Reader σ) : Prop :=
  ∃ before chunk after reader, chunks = before ++ chunk :: after ∧
    readChunks handler before start = (.ok (), reader) ∧
    Exec.Reaches (step handler) (.readChunk, .ofChunk chunk) reader point inside

theorem readChunk_stops (safe : reader.Safe) {chunk : Bytes} :
    (∃ stop reached,
      readChunk handler (.ofChunk chunk) reader = (.error stop, reached)) ↔
      ∃ point inside stop reached,
        Exec.Reaches (step handler) (.readChunk, .ofChunk chunk) reader point
          inside ∧ step handler point inside = (.error stop, reached) := by
  have ready := readChunk_ready safe (Cursor.ofChunk_valid chunk)
  constructor
  · rintro ⟨stop, reached, stopped⟩
    obtain ⟨last, inside, reaches, ends⟩ :=
      @readChunk_ends _ handler _ safe _ (Cursor.ofChunk_valid chunk)
    rw [stopped] at ends
    cases ends with
    | stop stepped => exact ⟨last, inside, stop, reached, reaches, stepped⟩
  · rintro ⟨point, inside, stop, reached, reaches, stopped⟩
    refine ⟨stop, reached, ?_⟩
    exact (step_variant.runLoop_reaches ready reaches).trans
      (Exec.runLoop_stop stopped)

/-- Whether a call throws is decided by the array lengths in the messages that
it parses. -/
theorem readChunk_contained (contained : Delivery.Contained handler)
    (safe : reader.Safe) {chunk : Bytes} :
    (∃ stop reached,
      readChunk handler (.ofChunk chunk) reader = (.error stop, reached)) ↔
      ∃ point inside message,
        Exec.Reaches (step handler) (.readChunk, .ofChunk chunk) reader point
          inside ∧ Parses point inside message ∧
        Delivery.RejectsField inside.delivery.state message := by
  have ready := readChunk_ready safe (Cursor.ofChunk_valid chunk)
  rw [readChunk_stops safe]
  constructor
  · rintro ⟨point, inside, stop, reached, reaches, stopped⟩
    rcases step_stops (reaches.keeps step_variant ready) stopped with
      ⟨callback, exception, early, throws⟩ | ⟨message, _, parses, whole, parsed⟩
    · exact absurd early (contained.not_early throws)
    · exact ⟨point, inside, message, reaches, parses,
        parseMessage_contained contained whole parsed⟩
  · rintro ⟨point, inside, message, reaches, parses, rejected⟩
    obtain ⟨whole, stops⟩ :=
      @Parses.stops _ handler _ _ _ (reaches.keeps step_variant ready) parses
    obtain ⟨stop, reached, escaped⟩ :=
      @parseMessage_escapes _ handler _ _ whole rejected
    obtain ⟨final, stopped⟩ := stops _ _ escaped
    exact ⟨point, inside, stop, final, reaches, stopped⟩

theorem readChunk_safe (safe : reader.Safe) {chunk : Bytes} {next : Reader σ}
    (ran : readChunk handler (.ofChunk chunk) reader = (.ok (), next)) :
    next.Safe := by
  have sound :=
    (@readChunk_sound _ handler _ safe _ (Cursor.ofChunk_valid chunk)).1
  rwa [ran] at sound

theorem readChunks_safe (safe : reader.Safe) {chunks : List Bytes}
    {reached : Reader σ}
    (ran : readChunks handler chunks reader = (.ok (), reached)) :
    reached.Safe := by
  induction chunks generalizing reader with
  | nil =>
      cases ran
      exact safe
  | cons chunk chunks ih =>
      rw [readChunks_cons] at ran
      obtain ⟨_, next, first, rest⟩ := Exec.bind_eq_ok.mp ran
      exact ih (readChunk_safe safe first) rest

theorem readChunks_returns (contained : Delivery.Contained handler)
    (safe : reader.Safe) (chunks : List Bytes) :
    (∃ reached, readChunks handler chunks reader = (.ok (), reached)) ↔
      ∀ point inside message, Visits handler chunks reader point inside →
        Parses point inside message →
          ¬ Delivery.RejectsField inside.delivery.state message := by
  constructor
  · rintro ⟨reached, returned⟩ point inside message visits parses rejected
    obtain ⟨before, chunk, after, middle, rfl, ran, reaches⟩ := visits
    rw [readChunks_append, Exec.bind_ok ran, readChunks_cons] at returned
    obtain ⟨_, next, called, _⟩ := Exec.bind_eq_ok.mp returned
    obtain ⟨stop, _, stopped⟩ :=
      (readChunk_contained contained (readChunks_safe safe ran)).mpr
        ⟨point, inside, message, reaches, parses, rejected⟩
    rw [stopped] at called
    cases called
  · intro accepted
    induction chunks generalizing reader with
    | nil => exact ⟨reader, rfl⟩
    | cons chunk chunks ih =>
        rcases ran : readChunk handler (.ofChunk chunk) reader with
          ⟨stop | _, next⟩
        · obtain ⟨point, inside, message, reaches, parses, rejected⟩ :=
            (readChunk_contained contained safe).mp ⟨stop, next, ran⟩
          exact absurd rejected (accepted point inside message
            ⟨[], chunk, chunks, reader, rfl, rfl, reaches⟩ parses)
        · obtain ⟨reached, returned⟩ := ih (readChunk_safe safe ran) (by
            rintro point inside message ⟨before, here, after, middle, rfl,
              earlier, reaches⟩
            refine accepted point inside message
              ⟨chunk :: before, here, after, middle, rfl, ?_, reaches⟩
            rw [readChunks_cons, Exec.bind_ok ran]
            exact earlier)
          refine ⟨reached, ?_⟩
          rw [readChunks_cons, Exec.bind_ok ran]
          exact returned

end Reader

end UlogCpp
