import UlogCpp.Data.Effort
import UlogCpp.Reader.Safety

namespace UlogCpp.Reader

variable {σ : Type} {handler : DataHandlerInterface σ}

/-! What a reader needs: rounds of its loops, and bytes of its buffer. -/

/-- The rounds of the `for` loop of `tryToRecover`. -/
def findMessageRounds (buffer : Bytes) : Nat → Nat → Nat
  | 0, _ => 0
  | rounds + 1, index =>
      match looksSane buffer index with
      | .ok false => findMessageRounds buffer rounds (index + 1) + 1
      | _ => 1

/-- A step is a round of a loop, or what stands before the loop. The search of
a round of recovery has rounds of its own. -/
def rounds : Point × Cursor → Reader σ → Nat
  | (.tryToRecover, cursor), reader =>
      if cursor.length > 0 then
        match appendToPartialBuffer cursor reader with
        | (.ok numAppend, grown) =>
            let start := if numAppend = 0 then 1 else 0
            findMessageRounds grown.partialMessageBuffer
              (grown.partialMessageBuffer.length - ulogMsgHeaderLen - start)
              start + 1
        | (.error _, _) => 1
      else 1
  | _, _ => 1

def readChunkRounds (handler : DataHandlerInterface σ) (cursor : Cursor) :
    Reader σ → Nat :=
  Exec.runCost (step handler) rounds work (.readChunk, cursor)

/-! ## The search -/

theorem findMessageRounds_le {buffer : Bytes} {rounds index position : Nat}
    {found : Bool}
    (search : findMessage buffer rounds index = .ok (position, found)) :
    index + findMessageRounds buffer rounds index ≤
      position + if found then 1 else 0 := by
  induction rounds generalizing index with
  | zero =>
      cases search
      exact Nat.le_refl _
  | succ rounds ih =>
      unfold findMessage at search
      unfold findMessageRounds
      rcases sane : looksSane buffer index with stop | _ | _
      · rw [sane] at search
        cases search
      · rw [sane] at search
        have later := ih search
        simp only
        omega
      · rw [sane] at search
        cases search
        exact Nat.le_refl _

theorem findMessage_total {buffer : Bytes} {rounds index : Nat}
    (covers : index + rounds + 3 = buffer.length) :
    ∃ position found, position ≤ buffer.length ∧
      findMessage buffer rounds index = .ok (position, found) := by
  rw [findMessage_eq covers]
  cases firstFrom resumable (buffer.drop index) with
  | none => exact ⟨_, _, by omega, rfl⟩
  | some found => exact ⟨_, _, Nat.sub_le _ _, rfl⟩

/-! ## The credit -/

/-- What the bytes that have arrived pay for, and then the order of the three
places. -/
def credit : Point × Cursor → Reader σ → Nat
  | (point, cursor), reader =>
      8 * reader.partialMessageBuffer.length + 12 * cursor.length.toNat +
      match point with
      | .tryToRecover => 1
      | .readLoop => 2
      | .readChunk => 3

def saved (reader : Reader σ) : Nat := 8 * reader.partialMessageBuffer.length

section Recovery

variable {reader : Reader σ} {chunk : Bytes}

/-- A round of recovery pays for the positions that it looks at with the byte
that it takes in and with the bytes that it discards. -/
theorem recoverRound_pays (safe : reader.Safe)
    (recovering : reader.needRecovery = true) (more : chunk ≠ [])
    {next : Point × Cursor} {reached : Reader σ}
    (round : recoverRound (.ofChunk chunk) reader = (.ok next, reached)) :
    rounds (.tryToRecover, .ofChunk chunk) reader + credit next reached ≤
      credit (.tryToRecover, .ofChunk chunk) reader := by
  have positive := List.length_pos_iff.mpr more
  have room := safe.recovering recovering
  generalize counted : min chunk.length
    (reader.partialMessageBufferLengthCapacity -
      reader.partialMessageBuffer.length) = count
  have append := appendToPartialBuffer_ofChunk safe counted.symm
  have within : count ≤ chunk.length := by omega
  have some : (count : Int) ≠ 0 := by omega
  have content : (reader.partialMessageBuffer ++ chunk.take count).length =
      reader.partialMessageBuffer.length + count := by
    rw [List.length_append, List.length_take]
    omega
  unfold recoverRound at round
  rw [Exec.bind_ok append] at round
  simp only [Exec.get_bind_apply, Cursor.advance_ofChunk within,
    if_neg some] at round
  simp only [rounds, append, if_neg some, Cursor.length_ofChunk,
    if_pos (Int.natCast_pos.mpr positive)]
  generalize reader.partialMessageBuffer ++ chunk.take count = bytes
    at content round ⊢
  by_cases enough : bytes.length ≥ ulogMsgHeaderLen
  · obtain ⟨position, found, last, search⟩ :=
      @findMessage_total bytes (bytes.length - ulogMsgHeaderLen - 0) 0 (by
        simp only [ulogMsgHeaderLen] at enough ⊢
        omega)
    have looked := findMessageRounds_le search
    rw [if_pos enough, search, Exec.lift_ok_bind_apply] at round
    simp only at round
    rw [discardTo_apply last] at round
    cases found with
    | true =>
        cases round
        simp only [credit, Cursor.length_ofChunk, Int.toNat_natCast,
          List.length_drop, if_true] at looked ⊢
        omega
    | false =>
        cases round
        simp only [credit, Cursor.length_ofChunk, Int.toNat_natCast,
          List.length_drop, Bool.false_eq_true, if_false] at looked ⊢
        omega
  · rw [if_neg enough] at round
    cases round
    have none : bytes.length - ulogMsgHeaderLen - 0 = 0 := by omega
    rw [none]
    simp only [credit, findMessageRounds, Cursor.length_ofChunk,
      Int.toNat_natCast, List.length_drop]
    omega

end Recovery

/-! ## Steps -/

section Steps

/-- A round of recovery always leads on. -/
theorem recoverRound_moves {cursor : Cursor} {reader : Reader σ}
    (ready : Ready (.tryToRecover, cursor) reader)
    (positive : cursor.length > 0) :
    ∃ chunk next reached, cursor = .ofChunk chunk ∧ chunk ≠ [] ∧
      recoverRound cursor reader = (.ok next, reached) ∧
      step handler (.tryToRecover, cursor) reader =
        (.ok (some next), reached) := by
  obtain ⟨chunk, rfl⟩ : ∃ chunk, cursor = .ofChunk chunk :=
    ⟨_, ready.valid.eq_ofChunk positive⟩
  have more : chunk ≠ [] := by
    rintro rfl
    exact absurd positive (by decide)
  obtain ⟨count, _, _, _, _, round⟩ :=
    recoverRound_ofChunk ready.safe (ready.recovers rfl) more
  split at round
  all_goals
    exact ⟨chunk, _, _, rfl, more, round, step_tryToRecover more round⟩

variable {point next : Point × Cursor} {reader reached : Reader σ}

theorem step_pays (ready : Ready point reader)
    (moved : step handler point reader = (.ok (some next), reached)) :
    rounds point reader + credit next reached ≤ credit point reader := by
  obtain ⟨place, cursor⟩ := point
  have single (one : rounds (place, cursor) reader = 1) :
      rounds (place, cursor) reader + credit next reached ≤
        credit (place, cursor) reader := by
    have lower := step_variant.decreases ready moved
    obtain ⟨target, rest⟩ := next
    rw [one]
    revert lower
    cases place <;> cases target <;> simp only [work, credit] <;> omega
  cases place with
  | readChunk => exact single rfl
  | readLoop => exact single rfl
  | tryToRecover =>
      by_cases positive : cursor.length > 0
      · obtain ⟨chunk, _, _, rfl, more, round, stepped⟩ :=
          @recoverRound_moves _ handler _ _ ready positive
        rw [stepped] at moved
        cases moved
        exact recoverRound_pays ready.safe (ready.recovers rfl) more round
      · rw [step_searched positive] at moved
        cases moved

theorem step_stop_buffer {stop : Stop} (ready : Ready point reader)
    (stopped : step handler point reader = (.error stop, reached)) :
    point.1 ≠ .tryToRecover ∧
      reached.partialMessageBuffer.length ≤ pendingBytes point reader := by
  obtain ⟨_ | _ | _, cursor⟩ := point
  · refine ⟨fun other => Point.noConfusion other, ?_⟩
    have same : SameBuffer reader reached := by
      by_cases invalid : reader.delivery.state = .invalidData
      · rw [step_readChunk_invalid invalid] at stopped
        cases stopped
      · rw [step_readChunk_live invalid, Exec.bind_eq_error] at stopped
        have magic := @skipMagic_shrinks _ handler reader cursor ready.valid
        rcases stopped with first | ⟨rest, middle, first, later⟩
        · exact (magic.error (.refl reader) first).1
        · obtain ⟨same, valid, _⟩ := magic.ok (.refl reader) first
          rcases Exec.bind_eq_error.mp later with second | ⟨_, _, _, last⟩
          · exact ((@skipFlagBits_shrinks _ handler reader rest valid).error
              same second).1
          · cases last
    rw [same.buffer]
    exact Nat.le_add_left _ _
  · refine ⟨fun other => Point.noConfusion other, ?_⟩
    cases turn ready.valid reader with
    | complete chunk here more normal complete long =>
        subst here
        obtain ⟨left, rest, content, capacity, split, _, _, _, _, _, shape,
            parsed⟩ :=
          @step_complete _ handler _ _ _ ready.safe normal rfl more complete long
        rcases outcome : parseMessage handler _ reader with ⟨inner | _, parsedTo⟩
        · rw [parsed _ _ outcome] at stopped
          cases stopped
          have lengths := congrArg List.length split
          simp only [List.length_append, List.length_drop] at lengths
          have whole := complete
          simp only [HasMessage, List.length_append] at whole
          simp only [stored_partialMessageBuffer, pendingBytes,
            Cursor.length_ofChunk, Int.toNat_natCast]
          rcases shape with rfl | rfl
          · exact Nat.zero_le _
          · simp only [List.length_append, List.length_take]
            omega
        · rw [parsed _ _ outcome] at stopped
          cases stopped
    | waiting chunk here more normal short =>
        subst here
        obtain ⟨count, _, _, _, stepped⟩ :=
          @step_waiting _ handler _ _ _ ready.safe normal rfl more short
        rw [stepped] at stopped
        cases stopped
    | leaves idle =>
        cases recovering : reader.needRecovery with
        | true =>
            rw [step_recovers recovering] at stopped
            cases stopped
        | false =>
            rw [step_leaves recovering fun more =>
              idle ⟨more, recovering⟩] at stopped
            cases stopped
  · exfalso
    by_cases positive : cursor.length > 0
    · obtain ⟨_, _, _, _, _, _, stepped⟩ :=
        @recoverRound_moves _ handler _ _ ready positive
      rw [stepped] at stopped
      cases stopped
    · rw [step_searched positive] at stopped
      cases stopped

end Steps

theorem step_pays_last {point : Point × Cursor} {reader : Reader σ}
    {outcome : Except Stop Unit × Reader σ} (ready : Ready point reader)
    (ends : Exec.EndsAt (step handler) point reader outcome) :
    rounds point reader + saved outcome.2 ≤ credit point reader := by
  obtain ⟨place, cursor⟩ := point
  cases ends with
  | @done reached returned =>
      have sound := @step_sound _ handler _ _ ready
      rw [returned] at sound
      cases sound
      cases place with
      | readChunk =>
          simp only [rounds, saved, credit]
          omega
      | readLoop =>
          simp only [rounds, saved, credit]
          omega
      | tryToRecover =>
          by_cases positive : cursor.length > 0
          · obtain ⟨_, _, _, _, _, _, stepped⟩ :=
              @recoverRound_moves _ handler _ _ ready positive
            rw [stepped] at returned
            cases returned
          · simp only [rounds, saved, credit, if_neg positive]
            omega
  | @stop _ reached stopped =>
      obtain ⟨early, held⟩ := step_stop_buffer ready stopped
      simp only [pendingBytes] at held
      cases place with
      | readChunk =>
          simp only [rounds, saved, credit]
          omega
      | readLoop =>
          simp only [rounds, saved, credit]
          omega
      | tryToRecover => exact absurd rfl early

theorem step_credit :
    Exec.Pays (step handler) Ready rounds credit saved where
  moves := step_pays
  ends := step_pays_last

/-! ## Calls -/

/-- A call pays with its bytes and with those that earlier calls have left in
the buffer. -/
theorem readChunk_rounds {reader : Reader σ} (safe : reader.Safe)
    (chunk : Bytes) :
    readChunkRounds handler (.ofChunk chunk) reader +
        saved (readChunk handler (.ofChunk chunk) reader).2 ≤
      saved reader + (12 * chunk.length + 3) :=
  step_variant.runLoop_cost step_credit
    (readChunk_ready safe (Cursor.ofChunk_valid chunk))

def income (chunk : Bytes) : Nat := 12 * chunk.length + 3

theorem income_sum (chunks : List Bytes) :
    (chunks.map income).sum = 12 * chunks.flatten.length + 3 * chunks.length := by
  induction chunks with
  | nil => rfl
  | cons chunk chunks ih =>
      simp only [List.map_cons, List.sum_cons, ih, income, List.flatten_cons,
        List.length_append, List.length_cons]
      omega

/-- The loops of a reader go round a number of times that is linear in the
bytes, whatever the bytes are and however they are cut. -/
theorem rounds_linear (handler : DataHandlerInterface σ) (state : σ)
    (chunks : List Bytes) :
    Exec.totalCost (fun chunk => readChunk handler (.ofChunk chunk))
        (fun chunk => readChunkRounds handler (.ofChunk chunk)) chunks
        (init state) ≤
      12 * chunks.flatten.length + 3 * chunks.length := by
  have pays {reader : Reader σ} {chunk : Bytes} (safe : reader.Safe) :
      readChunkRounds handler (.ofChunk chunk) reader +
          saved (readChunk handler (.ofChunk chunk) reader).2 ≤
        saved reader + income chunk := readChunk_rounds safe chunk
  have kept {reader : Reader σ} {chunk : Bytes} (safe : reader.Safe) :
      (readChunk handler (.ofChunk chunk) reader).2.Safe :=
    (readChunk_sound safe (Cursor.ofChunk_valid chunk)).1
  have paid := @Exec.totalCost_le Stop (Reader σ) Unit Bytes
    (fun chunk => readChunk handler (.ofChunk chunk))
    (fun chunk => readChunkRounds handler (.ofChunk chunk)) Safe income saved
    chunks pays kept _ (init_safe state)
  have nothing : saved (init state) = 0 := rfl
  rw [income_sum, nothing] at paid
  omega

/-! ## Memory -/

def longestMessage : Nat := 65535 + ulogMsgHeaderLen

def Allocated (base : Nat) (reader : Reader σ) : Prop :=
  base ≤ reader.partialMessageBufferLengthCapacity ∧
    reader.partialMessageBufferLengthCapacity ≤ max base longestMessage

def Allocates (base : Nat) (program : Exec Stop (Reader σ) α) : Prop :=
  Exec.Keeps (Allocated base) (fun _ => True) program

section Memory

variable {base : Nat} (cursor : Cursor)

theorem lift_allocates (result : Except Stop α) :
    Allocates base (Exec.lift result : Exec Stop (Reader σ) α) :=
  .lift fun _ _ => trivial

theorem onDelivery_allocates (program : Exec Stop (Delivery σ) α) :
    Allocates base (onDelivery program) :=
  .intro fun _ allocated => ⟨fun _ _ => trivial, allocated⟩

theorem copyToBuffer_allocates (count : Int) :
    Allocates base (copyToBuffer cursor count : Exec Stop (Reader σ) Unit) :=
  .bind (lift_allocates _) fun _ => .get_bind fun _ =>
    .ite (.modify fun _ => id) (.throw trivial)

theorem discard_allocates (count : Int) :
    Allocates base (discard count : Exec Stop (Reader σ) Unit) :=
  .get_bind fun _ => .ite (.modify fun _ => id) (.throw trivial)

theorem appendToPartialBuffer_allocates :
    Allocates base (appendToPartialBuffer cursor : Exec Stop (Reader σ) Int) :=
  .get_bind fun _ => .bind (copyToBuffer_allocates _ _) fun _ => .pure _

theorem reserve_allocates {required : Int} (fits : required ≤ longestMessage) :
    Allocates base (reserve required : Exec Stop (Reader σ) Unit) := by
  refine .modify fun reader allocated => ?_
  simp only [Allocated] at allocated ⊢
  split
  next more =>
    simp only
    omega
  next => exact allocated

/-- Only what is required is reserved, and not more than has arrived. -/
theorem ensureEnoughData_allocates {requiredData : Int}
    (fits : requiredData ≤ longestMessage) :
    Allocates base
      (ensureEnoughData requiredData cursor :
        Exec Stop (Reader σ) (Bool × Cursor)) := by
  refine .get_bind fun reader => .ite ?_ (.pure _)
  have enough : reader.partialMessageBufferLength +
      min (requiredData - reader.partialMessageBufferLength) cursor.length ≤
        longestMessage := by
    omega
  exact .bind (reserve_allocates enough) fun _ =>
    .bind (copyToBuffer_allocates _ _) fun _ => .get_bind fun _ => .pure _

theorem stash_allocates :
    Allocates base
      (stash cursor : Exec Stop (Reader σ) (Option UlogMessage × Cursor)) :=
  .bind (appendToPartialBuffer_allocates _) fun _ => .pure _

theorem directMessage_allocates :
    Allocates base
      (directMessage cursor :
        Exec Stop (Reader σ) (Option UlogMessage × Cursor)) :=
  .ite
    (.bind (lift_allocates _) fun _ => .ite
      (.bind (lift_allocates _) fun _ => .pure _) (stash_allocates _))
    (stash_allocates _)

theorem bufferedMessage_allocates :
    Allocates base
      (bufferedMessage cursor :
        Exec Stop (Reader σ) (Option UlogMessage × Cursor)) := by
  refine .bind (ensureEnoughData_allocates _ ?_) fun _ => .ite ?_ (.pure _)
  · simp only [longestMessage, ulogMsgHeaderLen]
    omega
  · refine .get_bind fun reader => .bind (lift_allocates _) fun msgSize => ?_
    have small := msgSize.toNat_lt
    refine .bind (ensureEnoughData_allocates _ ?_) fun _ => .ite ?_ (.pure _)
    · simp only [longestMessage]
      omega
    · exact .get_bind fun _ => .bind (lift_allocates _) fun _ => .pure _

theorem corruptionDetected_allocates :
    Allocates base (corruptionDetected handler) :=
  .get_bind fun _ => .ite (.modify fun _ => id)
    (.bind (onDelivery_allocates _) fun _ => .modify fun _ => id)

theorem parseMessage_allocates (message : Bytes) :
    Allocates base (parseMessage handler message) := by
  refine .bind (lift_allocates _) fun msgSize => .bind (lift_allocates _)
    fun msgType => .ite corruptionDetected_allocates ?_
  refine Exec.Triple.attempt (onDelivery_allocates _) ?_ ?_
  · intro stop recovery answer
    have same : corruptionDetected handler = recovery := by
      unfold onParsingException at answer
      split at answer
      · exact Option.some.inj answer
      · cases answer
    rw [← same]
    exact .consequence corruptionDetected_allocates (fun _ raised => raised.2)
      (fun _ _ => id) fun _ _ => id
  · exact fun _ _ _ raised => raised

theorem readMessage_allocates :
    Allocates base (readMessage handler cursor) := by
  refine .bind (.get_bind fun _ =>
    .ite (bufferedMessage_allocates _) (directMessage_allocates _)) ?_
  rintro ⟨_ | ⟨message, fromBuffer⟩, rest⟩
  · exact .pure _
  · refine .bind (.bind (parseMessage_allocates _) fun _ => ?_) fun _ => .pure _
    exact .ite (.bind (lift_allocates _) fun _ => discard_allocates _) (.pure _)

theorem giveUp_allocates (msg : String) (value : α) :
    Allocates base
      (do
        error handler msg false
        setState .invalidData
        return value) :=
  .bind (onDelivery_allocates _) fun _ =>
    .bind (onDelivery_allocates _) fun _ => .pure _

theorem skipMagic_allocates : Allocates base (skipMagic handler cursor) := by
  refine .get_bind fun _ => .ite (.bind (.ite (giveUp_allocates _ _) ?_)
    fun _ => .pure _) (.pure _)
  refine .bind (lift_allocates _) fun _ => .ite (giveUp_allocates _ _) ?_
  exact .bind (onDelivery_allocates _) fun _ => .bind (.modify fun _ => id)
    fun _ => .pure _

theorem skipFlagBits_allocates :
    Allocates base (skipFlagBits handler cursor) := by
  have enters (header : UlogFileHeader → FileHeader) (numRead : Int) :
      Allocates base
        (do
          let reader ← Exec.get
          onDelivery
            (Delivery.call handler (.fileHeader (header reader.fileHeader)))
          setState .readHeader
          return numRead) :=
    .get_bind fun _ => .bind (onDelivery_allocates _) fun _ =>
      .bind (onDelivery_allocates _) fun _ => .pure _
  refine .get_bind fun _ => .ite (.bind (.ite (giveUp_allocates _ _) ?_)
    fun _ => .pure _) (.pure _)
  refine .bind (lift_allocates _) fun flagBits =>
    .ite (.bind ?_ fun _ => .ite (giveUp_allocates _ _)
      (enters (.ofFlagBits · flagBits) _)) (enters .ofHeader _)
  exact .ite (onDelivery_allocates _) (.pure _)

theorem recoverRound_allocates :
    Allocates base
      (recoverRound cursor : Exec Stop (Reader σ) (Point × Cursor)) := by
  refine .bind (appendToPartialBuffer_allocates _) fun numAppend =>
    .get_bind fun reader => .ite (.bind (lift_allocates _) ?_) (.pure _)
  rintro ⟨index, found⟩
  have resumes : Allocates base
      (if found then do
          Exec.modify fun reader : Reader σ =>
            { reader with needRecovery := false }
          return (Point.readChunk, cursor.advance numAppend)
        else return (Point.tryToRecover, cursor.advance numAppend)) :=
    .ite (.bind (.modify fun _ => id) fun _ => .pure _) (.pure _)
  exact .ite (.bind (discard_allocates _) fun _ => resumes) resumes

theorem step_allocates (handler : DataHandlerInterface σ)
    (point : Point × Cursor) :
    Allocates base (step handler point) := by
  obtain ⟨_ | _ | _, cursor⟩ := point
  · exact .get_bind fun _ => .ite (.pure _) (.bind (skipMagic_allocates _)
      fun _ => .bind (skipFlagBits_allocates _) fun _ => .pure _)
  · exact .get_bind fun _ => .ite (.bind (readMessage_allocates _)
      fun _ => .pure _) (.ite (.pure _) (.pure _))
  · exact .ite (.bind (recoverRound_allocates _) fun _ => .pure _) (.pure _)

end Memory

theorem Allocates.allocated {base : Nat} {program : Exec Stop (Reader σ) α}
    (allocates : Allocates base program) {reader : Reader σ}
    (allocated : Allocated base reader) : Allocated base (program reader).2 :=
  (Exec.Keeps.outcome allocates allocated).2

theorem allocated_self (reader : Reader σ) :
    Allocated reader.partialMessageBufferLengthCapacity reader :=
  ⟨Nat.le_refl _, Nat.le_max_left _ _⟩

theorem Allocated.reaches {base : Nat} {start point : Point × Cursor}
    {reader reached : Reader σ} (allocated : Allocated base reader)
    (reaches : Exec.Reaches (step handler) start reader point reached) :
    Allocated base reached := by
  induction reaches with
  | refl => exact allocated
  | @tail last _ _ _ _ moved ih =>
      have kept := (step_allocates handler last).allocated ih
      rwa [moved] at kept

theorem Allocated.readChunk {base : Nat} {reader : Reader σ}
    (allocated : Allocated base reader) (safe : reader.Safe) {cursor : Cursor}
    (valid : cursor.Valid) :
    Allocated base (readChunk handler cursor reader).2 := by
  obtain ⟨last, inside, reaches, ends⟩ :=
    @readChunk_ends _ handler _ safe _ valid
  have kept := (step_allocates handler last).allocated (allocated.reaches reaches)
  generalize Reader.readChunk handler cursor reader = outcome at ends ⊢
  cases ends with
  | done returned => rwa [returned] at kept
  | stop stopped => rwa [stopped] at kept

theorem Reachable.allocated {state : σ} {reader : Reader σ}
    (reachable : Reachable handler state reader) :
    Allocated kBufferSizeInit reader := by
  induction reachable with
  | init => exact ⟨Nat.le_refl _, Nat.le_max_left _ _⟩
  | readChunk before valid ih => exact ih.readChunk before.safe valid

/-- The buffer never shrinks, and never needs more than one message of the
greatest size: the memory of a reader does not depend on the log. -/
theorem memory_limited {state : σ} {reader : Reader σ}
    (reachable : Reachable handler state reader) {cursor : Cursor}
    (valid : cursor.Valid) :
    kBufferSizeInit ≤ reader.partialMessageBufferLengthCapacity ∧
      (∀ point inside,
        Exec.Reaches (step handler) (.readChunk, cursor) reader point inside →
          reader.partialMessageBufferLengthCapacity ≤
            inside.partialMessageBufferLengthCapacity ∧
          inside.partialMessageBufferLengthCapacity ≤ 65535 + 3) ∧
      reader.partialMessageBufferLengthCapacity ≤
        (readChunk handler
          cursor reader).2.partialMessageBufferLengthCapacity ∧
      (readChunk handler cursor reader).2.partialMessageBufferLengthCapacity ≤
        65535 + 3 := by
  have safe := reachable.safe
  have allocated := reachable.allocated
  have limit : max kBufferSizeInit longestMessage = 65535 + 3 := rfl
  refine ⟨allocated.1, fun point inside reaches => ?_, ?_, ?_⟩
  · have here := allocated.reaches reaches
    rw [Allocated, limit] at here
    exact ⟨((allocated_self reader).reaches reaches).1, here.2⟩
  · exact ((allocated_self reader).readChunk safe valid).1
  · have after := @Allocated.readChunk _ handler _ _ allocated safe _ valid
    rw [Allocated, limit] at after
    exact after.2

theorem memory_limited_zeros :
    (readChunk DataHandlerInterface.base (.ofChunk [0, 79, 5, 0])
      (Exec.final (readEach DataHandlerInterface.base) zerosLog.dropLast
        (init ()))).2.partialMessageBufferLengthCapacity ≤ 65535 + 3 :=
  (memory_limited (Reachable.init.readEach _) (Cursor.ofChunk_valid _)).2.2.2

end UlogCpp.Reader
