import UlogCpp.Reader.Safety

namespace UlogCpp

namespace Reader

variable {σ : Type} {handler : DataHandlerInterface σ}

def Preserves (property : Delivery σ → Prop)
    (program : Exec Stop (Reader σ) α) : Prop :=
  Exec.Triple (fun reader => property reader.delivery) program
    (fun _ reader => property reader.delivery)
    (fun _ reader => property reader.delivery)

namespace Preserves

variable {property : Delivery σ → Prop} {program : Exec Stop (Reader σ) α}
  {next : α → Exec Stop (Reader σ) β}

theorem pure (value : α) :
    Preserves property (pure value : Exec Stop (Reader σ) α) :=
  Exec.Triple.pure value fun _ => id

theorem throw (stop : Stop) :
    Preserves property (Exec.throw stop : Exec Stop (Reader σ) α) :=
  fun _ => id

theorem bind (first : Preserves property program)
    (rest : ∀ value, Preserves property (next value)) :
    Preserves property (program >>= next) :=
  Exec.Triple.bind first rest

theorem get : Preserves property (Exec.get : Exec Stop (Reader σ) _) :=
  Exec.Triple.get fun _ => id

theorem lift (result : Except Stop α) :
    Preserves property (Exec.lift result : Exec Stop (Reader σ) α) :=
  Exec.Triple.lift (fun _ _ _ => id) fun _ _ _ => id

theorem modify {change : Reader σ → Reader σ}
    (same : ∀ reader, (change reader).delivery = reader.delivery) :
    Preserves property (Exec.modify change) := by
  refine Exec.Triple.modify fun reader holds => ?_
  rw [same]
  exact holds

theorem ite {condition : Prop} [Decidable condition]
    {whenTrue whenFalse : Exec Stop (Reader σ) α}
    (positive : Preserves property whenTrue)
    (negative : Preserves property whenFalse) :
    Preserves property (if condition then whenTrue else whenFalse) :=
  Exec.Triple.ite (fun _ => positive) fun _ => negative

theorem onDelivery {program : Exec Stop (Delivery σ) α}
    (keeps : ∀ delivery, property delivery → property (program delivery).2) :
    Preserves property (onDelivery program) := by
  intro reader holds
  rcases ran : program reader.delivery with ⟨stop | value, delivery⟩
  all_goals
    have kept := keeps reader.delivery holds
    rw [ran] at kept
    rw [onDelivery_eq ran]
    exact kept

end Preserves

/-! ## The buffer -/

section Buffer

variable {property : Delivery σ → Prop} (cursor : Cursor)

theorem copyToBuffer_preserves (count : Int) :
    Preserves property (copyToBuffer cursor count) :=
  .bind (.lift _) fun _ => .bind .get fun _ =>
    .ite (.modify fun _ => rfl) (.throw _)

theorem discard_preserves (count : Int) :
    Preserves property (discard count) :=
  .bind .get fun _ => .ite (.modify fun _ => rfl) (.throw _)

theorem appendToPartialBuffer_preserves :
    Preserves property (appendToPartialBuffer cursor) :=
  .bind .get fun _ => .bind (copyToBuffer_preserves _ _) fun _ => .pure _

theorem reserve_preserves (required : Int) :
    Preserves property (reserve required) :=
  .modify fun reader => by split <;> rfl

theorem ensureEnoughData_preserves (requiredData : Int) :
    Preserves property (ensureEnoughData requiredData cursor) :=
  .bind .get fun _ => .ite
    (.bind (reserve_preserves _) fun _ =>
      .bind (copyToBuffer_preserves _ _) fun _ => .bind .get fun _ => .pure _)
    (.pure _)

theorem stash_preserves : Preserves property (stash cursor) :=
  .bind (appendToPartialBuffer_preserves _) fun _ => .pure _

theorem directMessage_preserves : Preserves property (directMessage cursor) :=
  .ite
    (.bind (.lift _) fun _ => .ite
      (.bind (.lift _) fun _ => .pure _) (stash_preserves _))
    (stash_preserves _)

theorem bufferedMessage_preserves :
    Preserves property (bufferedMessage cursor) :=
  .bind (ensureEnoughData_preserves _ _) fun _ => .ite
    (.bind .get fun _ => .bind (.lift _) fun _ =>
      .bind (ensureEnoughData_preserves _ _) fun _ => .ite
        (.bind .get fun _ => .bind (.lift _) fun _ => .pure _) (.pure _))
    (.pure _)

theorem nextMessage_preserves : Preserves property (nextMessage cursor) :=
  .bind .get fun _ => .ite (bufferedMessage_preserves _)
    (directMessage_preserves _)

theorem recoverRound_preserves : Preserves property (recoverRound cursor) := by
  refine .bind (appendToPartialBuffer_preserves _) fun numAppend =>
    .bind .get fun reader => .ite (.bind (.lift _) ?_) (.pure _)
  rintro ⟨index, found⟩
  have resumes : Preserves property
      (if found then do
          Exec.modify fun reader : Reader σ =>
            { reader with needRecovery := false }
          return (Point.readChunk, cursor.advance numAppend)
        else return (Point.tryToRecover, cursor.advance numAppend)) :=
    .ite (.bind (.modify fun _ => rfl) fun _ => .pure _) (.pure _)
  exact .ite (.bind (discard_preserves _) fun _ => resumes) resumes

end Buffer

/-! ## Invariants of the delivery -/

structure DeliveryInvariant (handler : DataHandlerInterface σ)
    (property : Delivery σ → Prop) : Prop where
  error : ∀ msg isRecoverable delivery, property delivery →
    isRecoverable = true ∨ delivery.state = .readMagic ∨
      delivery.state = .readFlagBits →
    property (Delivery.call handler (.error msg isRecoverable) delivery).2
  deliver : ∀ message delivery, property delivery →
    property (Delivery.deliver handler message delivery).2
  magic : ∀ delivery, property delivery → delivery.state = .readMagic →
    property { delivery with state := .readFlagBits }
  invalid : ∀ delivery, property delivery →
    delivery.state = .readMagic ∨ delivery.state = .readFlagBits →
    property { delivery with state := .invalidData }
  fileHeader : ∀ header delivery, property delivery →
    delivery.state = .readFlagBits →
    match Delivery.call handler (.fileHeader header) delivery with
    | (.ok (), reached) => property { reached with state := .readHeader }
    | (.error _, reached) => property reached

namespace DeliveryInvariant

variable {property : Delivery σ → Prop}

theorem corruptionDetected (holds : DeliveryInvariant handler property) :
    Preserves property (corruptionDetected handler) :=
  .bind .get fun _ => .ite (.modify fun _ => rfl)
    (.bind
      (.onDelivery fun _ kept => holds.error _ _ _ kept (.inl rfl))
      fun _ => .modify fun _ => rfl)

theorem parseMessage (holds : DeliveryInvariant handler property)
    (message : Bytes) : Preserves property (parseMessage handler message) := by
  refine .bind (.lift _) fun _ => .bind (.lift _) fun _ => .ite
    holds.corruptionDetected ?_
  refine Exec.Triple.attempt (Preserves.onDelivery (holds.deliver message)) ?_
    fun _ _ _ => id
  intro stop recovery answer
  unfold onParsingException at answer
  split at answer
  · cases answer
    exact holds.corruptionDetected
  · cases answer

theorem readMessage (holds : DeliveryInvariant handler property)
    (cursor : Cursor) : Preserves property (readMessage handler cursor) := by
  refine .bind (nextMessage_preserves cursor) ?_
  rintro ⟨_ | found, rest⟩
  · exact .pure _
  · exact .bind (.bind (holds.parseMessage _) fun _ => .ite
      (.bind (.lift _) fun _ => discard_preserves _) (.pure _)) fun _ => .pure _

def Within (property : Delivery σ → Prop) (state : State) (reader : Reader σ) :
    Prop :=
  property reader.delivery ∧ reader.delivery.state = state

theorem error_within (holds : DeliveryInvariant handler property)
    (state : State) (msg : String) {isRecoverable : Bool}
    (early : isRecoverable = true ∨ state = .readMagic ∨
      state = .readFlagBits) :
    Exec.Triple (Within property state) (Reader.error handler msg isRecoverable)
      (fun _ => Within property state) (fun _ => Within property state) :=
  @Preserves.onDelivery _ _ (fun delivery => property delivery ∧
    delivery.state = state) _ fun delivery kept =>
      ⟨holds.error _ _ delivery kept.1 (by rw [kept.2]; exact early), kept.2⟩

def Kept (property : Delivery σ → Prop) (_ : α) (reader : Reader σ) : Prop :=
  property reader.delivery

variable {state : State}

theorem giveUp (holds : DeliveryInvariant handler property)
    (early : state = .readMagic ∨ state = .readFlagBits) (msg : String)
    (value : α) :
    Exec.Triple (Within property state)
      (do
        Reader.error handler msg false
        Reader.setState .invalidData
        return value) (Kept property) (Kept property) := by
  refine .bind (.consequence (holds.error_within state msg (.inr early))
    (fun _ => id) (fun _ _ => id) fun _ _ kept => kept.1) fun _ => ?_
  intro reader kept
  exact holds.invalid reader.delivery kept.1 (by rw [kept.2]; exact early)

theorem readMagic (holds : DeliveryInvariant handler property)
    (cursor : Cursor) :
    Exec.Triple (Within property .readMagic) (readMagic handler cursor)
      (Kept property) (Kept property) := by
  refine .ite (fun _ => holds.giveUp (.inl rfl) _ _) fun _ => ?_
  refine .bind (.lift (fun _ _ _ => id) fun _ _ _ kept => kept.1)
    fun header => ?_
  refine .ite (fun _ => holds.giveUp (.inl rfl) _ _) fun _ => ?_
  intro reader kept
  exact holds.magic reader.delivery kept.1 kept.2

theorem enterHeader (holds : DeliveryInvariant handler property)
    (header : UlogFileHeader → FileHeader) (value : α) :
    Exec.Triple (Within property .readFlagBits)
      (do
        let reader ← Exec.get
        onDelivery
          (Delivery.call handler (.fileHeader (header reader.fileHeader)))
        Reader.setState .readHeader
        return value) (Kept property) (Kept property) := by
  intro reader kept
  have called := holds.fileHeader (header reader.fileHeader) reader.delivery
    kept.1 kept.2
  rw [Exec.get_bind_apply]
  rcases ran : Delivery.call handler (.fileHeader (header reader.fileHeader))
      reader.delivery with ⟨stop | _, reached⟩
  · rw [ran] at called
    rw [Exec.bind_error (onDelivery_eq ran)]
    exact called
  · rw [ran] at called
    rw [Exec.bind_ok (onDelivery_eq ran)]
    exact called

theorem readFlagBits (holds : DeliveryInvariant handler property)
    (cursor : Cursor) :
    Exec.Triple (Within property .readFlagBits) (readFlagBits handler cursor)
      (Kept property) (Kept property) := by
  refine .ite (fun _ => holds.giveUp (.inr rfl) _ _) fun _ => ?_
  refine .bind (.lift (fun _ _ _ => id) fun _ _ _ kept => kept.1)
    fun flagBits => .ite (fun _ => ?_) fun _ => holds.enterHeader .ofHeader _
  have reported : Exec.Triple (Within property .readFlagBits)
      (reportAppendedOffsets handler flagBits)
      (fun _ => Within property .readFlagBits) (Kept property) :=
    .ite (fun _ => (holds.error_within _ _ (.inl rfl)).consequence
      (fun _ => id) (fun _ _ => id) fun _ _ kept => kept.1) fun _ =>
        .pure _ fun _ => id
  refine .bind reported fun _ => .ite (fun _ => holds.giveUp (.inr rfl) _ _)
    fun _ => holds.enterHeader (.ofFlagBits · flagBits) _

theorem advance_kept (cursor : Cursor) {program : Exec Stop (Reader σ) Int}
    (kept : Exec.Triple (Within property state) program (Kept property)
      (Kept property)) :
    Exec.Triple (Within property state)
      (do
        let numRead ← program
        return cursor.advance numRead) (Kept property) (Kept property) :=
  .bind kept fun _ => .pure _ fun _ => id

theorem skipMagic (holds : DeliveryInvariant handler property)
    (cursor : Cursor) : Preserves property (skipMagic handler cursor) := by
  intro reader kept
  unfold Reader.skipMagic
  rw [Exec.get_bind_apply]
  by_cases here : reader.delivery.state = .readMagic
  · rw [if_pos here]
    exact advance_kept cursor (holds.readMagic cursor) reader ⟨kept, here⟩
  · rw [if_neg here]
    exact kept

theorem skipFlagBits (holds : DeliveryInvariant handler property)
    (cursor : Cursor) : Preserves property (skipFlagBits handler cursor) := by
  intro reader kept
  unfold Reader.skipFlagBits
  rw [Exec.get_bind_apply]
  by_cases here : reader.delivery.state = .readFlagBits ∧ cursor.length > 0
  · rw [if_pos here]
    exact advance_kept cursor (holds.readFlagBits cursor) reader ⟨kept, here.1⟩
  · rw [if_neg here]
    exact kept

theorem step (holds : DeliveryInvariant handler property)
    (point : Point × Cursor) : Preserves property (step handler point) := by
  obtain ⟨_ | _ | _, cursor⟩ := point
  · exact .bind .get fun _ => .ite (.pure _)
      (.bind (holds.skipMagic cursor) fun _ =>
        .bind (holds.skipFlagBits _) fun _ => .pure _)
  · exact .bind .get fun _ => .ite
      (.bind (holds.readMessage cursor) fun _ => .pure _)
      (.ite (.pure _) (.pure _))
  · exact .ite (.bind (recoverRound_preserves cursor) fun _ => .pure _)
      (.pure _)

theorem runLoop (holds : DeliveryInvariant handler property)
    (point : Point × Cursor) :
    Preserves property
      (Exec.runLoop .outOfFuel (Reader.step handler) work point) := by
  intro reader kept
  refine @Exec.Triple.iterate Stop (Reader σ) _ (Reader.step handler) _
    (fun _ reader => property reader.delivery)
    (fun reader => property reader.delivery)
    (fun _ reader => property reader.delivery) (fun point => ?_)
    (fun _ _ kept => kept) _ _ reader kept
  refine (holds.step point).consequence (fun _ => id) ?_ fun _ _ => id
  rintro (_ | _) _ kept <;> exact kept

theorem readChunk (holds : DeliveryInvariant handler property)
    (cursor : Cursor) : Preserves property (readChunk handler cursor) :=
  holds.runLoop (.readChunk, cursor)

theorem reachable (holds : DeliveryInvariant handler property) {state : σ}
    (start : property (Reader.init state).delivery) {reader : Reader σ}
    (reachable : Reachable handler state reader) :
    property reader.delivery := by
  induction reachable with
  | init => exact start
  | @readChunk reader cursor _ _ ih =>
      have kept := holds.readChunk cursor reader ih
      rcases ran : Reader.readChunk handler cursor reader with
        ⟨stop | _, reached⟩
      all_goals
        rw [ran] at kept
        exact kept

end DeliveryInvariant

end Reader

end UlogCpp
