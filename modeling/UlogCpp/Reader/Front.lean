import UlogCpp.Reader.Escape
import UlogCpp.Reader.Invariant

namespace UlogCpp

namespace Reader

variable {σ : Type} {handler : DataHandlerInterface σ}

/-! A reader without its buffer. Only the start of a log and the messages that
are parsed can change it. -/

structure Front (σ : Type) where
  delivery : Delivery σ
  corruptionReported : Bool
  fileHeader : UlogFileHeader

def front (reader : Reader σ) : Front σ where
  delivery := reader.delivery
  corruptionReported := reader.corruptionReported
  fileHeader := reader.fileHeader

def nextParsed (point : Point × Cursor) (reader : Reader σ) : Option Bytes :=
  if point.1 = .readLoop ∧ 0 < point.2.length ∧ reader.needRecovery = false then
    match nextMessage point.2 reader with
    | (.ok (some ulogMessage, _), _) => some ulogMessage.message
    | _ => none
  else none

theorem nextParsed_eq_some {point : Point × Cursor} {reader : Reader σ}
    {message : Bytes} :
    nextParsed point reader = some message ↔ Parses point reader message := by
  unfold nextParsed Parses
  constructor
  · intro found
    split at found
    next here =>
      obtain ⟨same, positive, normal⟩ := here
      split at found
      next ulogMessage rest between next =>
        cases found
        exact ⟨same, positive, normal, ulogMessage.clearFromPartialMessageBuffer,
          rest, between, next⟩
      next => cases found
    next => cases found
  · rintro ⟨same, positive, normal, fromBuffer, rest, between, next⟩
    rw [if_pos ⟨same, positive, normal⟩, next]

theorem nextParsed_eq_none {point : Point × Cursor} {reader : Reader σ}
    (nothing : ∀ message, ¬ Parses point reader message) :
    nextParsed point reader = none :=
  Option.eq_none_iff_forall_not_mem.mpr fun message found =>
    nothing message (nextParsed_eq_some.mp found)

/-! ## The loops -/

section Loops

variable {point : Point × Cursor} {reader : Reader σ} {cursor : Cursor}

def parsedFront (handler : DataHandlerInterface σ) (reader : Reader σ) :
    Option Bytes → Front σ
  | none => reader.front
  | some message => (parseMessage handler message reader).2.front

theorem step_readLoop_front (ready : Ready (.readLoop, cursor) reader) :
    (step handler (.readLoop, cursor) reader).2.front =
      parsedFront handler reader (nextParsed (.readLoop, cursor) reader) := by
  cases turn ready.valid reader with
  | complete chunk here more normal complete long =>
      subst here
      have parses := (parses_iff ready).mpr
        ⟨chunk, rfl, more, normal, complete, long, rfl⟩
      rw [nextParsed_eq_some.mpr parses]
      obtain ⟨left, rest, content, capacity, _, _, _, _, _, _, _, parsed⟩ :=
        @step_complete _ handler _ _ _ ready.safe normal rfl more complete long
      rcases outcome : parseMessage handler _ reader with ⟨stop | _, reached⟩
      · rw [parsed _ _ outcome, parsedFront, outcome]
        rfl
      · rw [parsed _ _ outcome, parsedFront, outcome]
        rfl
  | waiting chunk here more normal short =>
      subst here
      have nothing : nextParsed (.readLoop, .ofChunk chunk) reader = none := by
        apply nextParsed_eq_none
        intro message parses
        obtain ⟨_, same, _, _, complete, long, _⟩ := (parses_iff ready).mp parses
        cases same
        rcases short with incomplete | ⟨empty, few⟩
        · exact incomplete complete
        · exact long.elim (fun held => held empty) (Nat.not_lt.mpr few)
      obtain ⟨count, _, _, _, stepped⟩ :=
        @step_waiting _ handler _ _ _ ready.safe normal rfl more short
      rw [nothing, stepped]
      rfl
  | leaves idle =>
      have nothing : nextParsed (.readLoop, cursor) reader = none :=
        nextParsed_eq_none fun message parses =>
          idle ⟨parses.2.1, parses.2.2.1⟩
      rw [nothing]
      cases recovering : reader.needRecovery with
      | true =>
          rw [step_recovers recovering]
          rfl
      | false =>
          rw [step_leaves recovering fun more => idle ⟨more, recovering⟩]
          rfl

theorem step_tryToRecover_front (ready : Ready (.tryToRecover, cursor) reader) :
    (step handler (.tryToRecover, cursor) reader).2.front = reader.front := by
  by_cases positive : cursor.length > 0
  · obtain ⟨chunk, rfl⟩ : ∃ chunk, cursor = .ofChunk chunk :=
      ⟨_, ready.valid.eq_ofChunk positive⟩
    have more : chunk ≠ [] := by
      rintro rfl
      exact absurd positive (by decide)
    obtain ⟨count, _, _, _, _, round⟩ :=
      recoverRound_ofChunk ready.safe (ready.recovers rfl) more
    cases scanned : firstFrom resumable
        (reader.partialMessageBuffer ++ chunk.take count) with
    | none =>
        rw [scanned] at round
        rw [step_tryToRecover more round]
        rfl
    | some found =>
        rw [scanned] at round
        rw [step_tryToRecover more round]
        rfl
  · rw [step_searched positive]

/-- In the loops only a message that is parsed changes the front. -/
theorem step_front (ready : Ready point reader) (later : point.1 ≠ .readChunk) :
    (step handler point reader).2.front =
      parsedFront handler reader (nextParsed point reader) := by
  obtain ⟨_ | _ | _, cursor⟩ := point
  · exact absurd rfl later
  · exact step_readLoop_front ready
  · have other : Point.tryToRecover ≠ .readLoop := by decide
    rw [nextParsed_eq_none fun _ parses => other parses.1]
    exact step_tryToRecover_front ready

end Loops

/-! ## The start of a log -/

section Start

variable {property : Delivery σ → Prop}
  (called : ∀ callback : Callback, callback.Early → ∀ delivery,
    property delivery → property (Delivery.call handler callback delivery).2)
  (entered : ∀ state, state ≠ .readData → ∀ delivery, property delivery →
    property { delivery with state })

include called in
theorem call_preserves {callback : Callback} (early : callback.Early) :
    Preserves property (onDelivery (Delivery.call handler callback)) :=
  .onDelivery (called callback early)

include entered in
theorem setState_preserves {state : State} (start : state ≠ .readData) :
    Preserves property (setState state : Exec Stop (Reader σ) Unit) :=
  .onDelivery (entered state start)

include called entered in
theorem giveUp_preserves (msg : String) (value : α) :
    Preserves property
      (do
        error handler msg false
        setState .invalidData
        return value) :=
  .bind (call_preserves called trivial) fun _ =>
    .bind (setState_preserves entered (by decide)) fun _ => .pure _

include called entered in
theorem skipMagic_preserves (cursor : Cursor) :
    Preserves property (skipMagic handler cursor) := by
  refine .bind .get fun reader => .ite (.bind ?_ fun _ => .pure _) (.pure _)
  refine .ite (giveUp_preserves called entered _ _) ?_
  refine .bind (.lift _) fun header => .ite ?_ ?_
  · exact giveUp_preserves called entered _ _
  · exact .bind (setState_preserves entered (by decide)) fun _ =>
      .bind (.modify fun _ => rfl) fun _ => .pure _

include called entered in
theorem skipFlagBits_preserves (cursor : Cursor) :
    Preserves property (skipFlagBits handler cursor) := by
  have enters : ∀ (header : UlogFileHeader → FileHeader) (value : Int),
      Preserves property (do
        let reader ← Exec.get
        onDelivery
          (Delivery.call handler (.fileHeader (header reader.fileHeader)))
        setState .readHeader
        return value) := fun header value =>
    .bind .get fun _ => .bind (call_preserves called trivial) fun _ =>
      .bind (setState_preserves entered (by decide)) fun _ => .pure _
  refine .bind .get fun reader => .ite (.bind ?_ fun _ => .pure _) (.pure _)
  refine .ite (giveUp_preserves called entered _ _) ?_
  refine .bind (.lift _) fun flagBits => .ite (.bind ?_ fun _ => .ite ?_ ?_) ?_
  · exact .ite (call_preserves called trivial) (.pure _)
  · exact giveUp_preserves called entered _ _
  · exact enters (.ofFlagBits · flagBits) _
  · exact enters .ofHeader _

include called entered in
theorem step_readChunk_preserves (cursor : Cursor) :
    Preserves property (step handler (.readChunk, cursor)) :=
  .bind .get fun _ => .ite (.pure _)
    (.bind (skipMagic_preserves called entered cursor) fun cursor =>
      .bind (skipFlagBits_preserves called entered cursor) fun _ => .pure _)

end Start

/-! ## Invariants -/

section Invariants

variable {point : Point × Cursor} {reader : Reader σ}

structure FrontInvariant (handler : DataHandlerInterface σ)
    (property : Front σ → Prop) : Prop where
  starts : ∀ {cursor : Cursor} {reader : Reader σ},
    Ready (.readChunk, cursor) reader → property reader.front →
      property (step handler (.readChunk, cursor) reader).2.front
  parses : ∀ {message : Bytes} {reader : Reader σ}, IsMessage message →
    property reader.front →
      property (parseMessage handler message reader).2.front

variable {property : Front σ → Prop}

theorem FrontInvariant.step (holds : FrontInvariant handler property)
    (ready : Ready point reader) (here : property reader.front) :
    property (step handler point reader).2.front := by
  obtain ⟨place, cursor⟩ := point
  by_cases start : place = .readChunk
  · subst start
    exact holds.starts ready here
  · rw [step_front ready start]
    cases parsed : nextParsed (place, cursor) reader with
    | none => exact here
    | some message =>
        have parses := nextParsed_eq_some.mp parsed
        exact holds.parses (@Parses.stops _ handler _ _ _ ready parses).1 here

theorem FrontInvariant.reachable (holds : FrontInvariant handler property)
    {state : σ} (initial : property (init state).front)
    (reachable : Reachable handler state reader) : property reader.front := by
  induction reachable with
  | init => exact initial
  | @readChunk reader cursor before valid ih =>
      have ready := readChunk_ready before.safe valid
      obtain ⟨last, inside, reaches, ends⟩ :=
        @readChunk_ends _ handler _ before.safe _ valid
      have middle : property inside.front := by
        clear ends
        induction reaches with
        | refl => exact ih
        | tail earlier moved held =>
            have next := holds.step (earlier.keeps step_variant ready) held
            rwa [moved] at next
      have final := holds.step (reaches.keeps step_variant ready) middle
      generalize readChunk handler cursor reader = outcome at ends ⊢
      cases ends with
      | done returned =>
          rwa [returned] at final
      | stop stopped =>
          rwa [stopped] at final

end Invariants

end Reader

end UlogCpp
