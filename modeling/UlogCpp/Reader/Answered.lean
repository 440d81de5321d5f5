import UlogCpp.Reader.Slices

namespace UlogCpp

open Callback (messageCalls)

/-! The messages that a reader hands over are those that it has parsed, in
their order. -/

inductive Answered : State → List Bytes → List Callback → State → Prop
  | none {state : State} : Answered state [] [] state
  | begins {state next last : State} {messages : List Bytes}
      {calls : List Callback} (early : Reader.Early state) (start : next ≠ .readData)
      (rest : Answered next messages calls last) :
      Answered state messages calls last
  | corrupt {state last : State} {message : Bytes} {messages : List Bytes}
      {calls : List Callback} (corrupt : Reader.Corrupt message)
      (rest : Answered state messages calls last) :
      Answered state (message :: messages) calls last
  | delivered {state last : State} {message : Bytes} {messages : List Bytes}
      {calls : List Callback} (sane : ¬ Reader.Corrupt message)
      (rest : Answered (Delivery.nextState state message) messages calls last) :
      Answered state (message :: messages)
        (Delivery.callbacks state message ++ calls) last
  | interrupted {state last : State} {message : Bytes} {messages : List Bytes}
      {calls others : List Callback} (sane : ¬ Reader.Corrupt message)
      (ends : Delivery.callbacks state message = .headerComplete :: others)
      (rest : Answered (Delivery.nextState state message) messages calls last) :
      Answered state (message :: messages) (.headerComplete :: calls) last

theorem Answered.append {first middle last : State}
    {messages more : List Bytes} {calls others : List Callback}
    (answered : Answered first messages calls middle)
    (rest : Answered middle more others last) :
    Answered first (messages ++ more) (calls ++ others) last := by
  induction answered with
  | none => exact rest
  | begins early start _ ih => exact .begins early start (ih rest)
  | corrupt corrupt _ ih => exact .corrupt corrupt (ih rest)
  | delivered sane _ ih =>
      rw [List.append_assoc]
      exact .delivered sane (ih rest)
  | interrupted sane ends _ ih => exact .interrupted sane ends (ih rest)

namespace Delivery

theorem callbacks_fromMessage {state : State} {message : Bytes} :
    messageCalls (callbacks state message) = callbacks state message := by
  have ofData : messageCalls (answer (decodeData message)) =
      answer (decodeData message) := by
    rcases decoded : decodeData message with stop | _ | callback
    · rfl
    · rfl
    · apply Callback.messageCalls_eq_self
      rintro _ (_ | ⟨_, ⟨⟩⟩)
      rcases decodeData_kind decoded with kind | kind <;> rw [kind] <;> decide
  cases state with
  | readHeader =>
      by_cases ends : decodeHeader message = .ok (some .headerComplete)
      · rw [(header_complete ends).1]
        exact congrArg (.headerComplete :: ·) ofData
      · rw [(header_ordinary rfl ends).1]
        rcases decoded : decodeHeader message with stop | _ | callback
        · rfl
        · rfl
        · apply Callback.messageCalls_eq_self
          rintro _ (_ | ⟨_, ⟨⟩⟩)
          rcases decodeHeader_kind decoded with rfl | kind | kind
          · decide
          all_goals rw [kind]; decide
  | readData => exact ofData
  | readMagic | readFlagBits | invalidData => rfl

end Delivery

namespace Reader

variable {σ : Type} {handler : DataHandlerInterface σ}
  {reader reached : Reader σ} {point : Point × Cursor} {message : Bytes}

def Answers (reader reached : Reader σ) (messages : List Bytes) : Prop :=
  ∃ calls,
    messageCalls reached.delivery.calls =
      messageCalls reader.delivery.calls ++ calls ∧
    Answered reader.delivery.state messages calls reached.delivery.state

namespace Answers

theorem refl (reader : Reader σ) : Answers reader reader [] :=
  ⟨[], (List.append_nil _).symm, .none⟩

theorem trans {middle : Reader σ} {messages more : List Bytes}
    (first : Answers reader middle messages)
    (rest : Answers middle reached more) :
    Answers reader reached (messages ++ more) := by
  obtain ⟨calls, added, answered⟩ := first
  obtain ⟨others, later, goesOn⟩ := rest
  refine ⟨calls ++ others, ?_, answered.append goesOn⟩
  rw [later, added, List.append_assoc]

end Answers

theorem corruptionDetected_answers :
    messageCalls (corruptionDetected handler reader).2.delivery.calls =
        messageCalls reader.delivery.calls ∧
      (corruptionDetected handler reader).2.delivery.state =
        reader.delivery.state := by
  have kept : Preserves
      (fun delivery => messageCalls delivery.calls =
        messageCalls reader.delivery.calls ∧
          delivery.state = reader.delivery.state)
      (corruptionDetected handler) := by
    refine .bind .get fun _ => .ite (.modify fun _ => rfl)
      (.bind (.onDelivery fun delivery held => ⟨?_, held.2⟩) fun _ =>
        .modify fun _ => rfl)
    exact (Callback.messageCalls_append _ _).trans
      ((List.append_nil _).trans held.1)
  exact Preserves.outcome kept ⟨rfl, rfl⟩

theorem parseMessage_answers (sized : 3 ≤ message.length) :
    Answers reader (parseMessage handler message reader).2 [message] := by
  by_cases corrupt : Corrupt message
  · rw [parseMessage_corrupt sized corrupt]
    obtain ⟨calls, state⟩ := @corruptionDetected_answers _ handler reader
    refine ⟨[], by rw [calls, List.append_nil], ?_⟩
    rw [state]
    exact .corrupt corrupt .none
  · have progress := @Delivery.deliver_progress _ handler message reader.delivery
    have after : messageCalls (parseMessage handler message reader).2.delivery.calls =
          messageCalls
            (Delivery.deliver handler message reader.delivery).2.calls ∧
        (parseMessage handler message reader).2.delivery.state =
          (Delivery.deliver handler message reader.delivery).2.state := by
      rcases ran : Delivery.deliver handler message reader.delivery with
        ⟨stop | _, delivery⟩
      · by_cases parsing : ∃ reason, stop = .raised (.parsing reason)
        · obtain ⟨reason, rfl⟩ := parsing
          rw [parseMessage_rejected sized corrupt ran]
          exact corruptionDetected_answers
        · rw [parseMessage_escaped sized corrupt
            (fun reason same => parsing ⟨reason, same⟩) ran]
          exact ⟨rfl, rfl⟩
      · rw [parseMessage_delivered sized corrupt ran]
        exact ⟨rfl, rfl⟩
    rw [Answers, after.1, after.2, progress.state_eq]
    rcases progress.calls_eq with all | ⟨_, one, others, ends⟩
    · refine ⟨_, ?_, .delivered corrupt .none⟩
      rw [all, List.append_nil, Callback.messageCalls_append,
        Delivery.callbacks_fromMessage]
    · refine ⟨_, ?_, .interrupted corrupt ends .none⟩
      rw [one, Callback.messageCalls_append]
      rfl

theorem step_readChunk_answers (cursor : Cursor) :
    Answers reader (step handler (.readChunk, cursor) reader).2 [] := by
  by_cases invalid : reader.delivery.state = .invalidData
  · rw [step_readChunk_invalid invalid]
    exact .refl reader
  by_cases early : Early reader.delivery.state
  · have kept := @step_readChunk_preserves _ handler
      (fun delivery => messageCalls delivery.calls =
        messageCalls reader.delivery.calls ∧ delivery.state ≠ .readData)
      (fun callback first delivery held => ⟨by
        rw [← held.1]
        exact (Callback.messageCalls_append _ _).trans
          (by rw [Callback.messageCalls_early first, List.append_nil]), held.2⟩)
      (fun _ start _ held => ⟨held.1, start⟩) cursor
    have begun : reader.delivery.state ≠ .readData := by
      rcases early with state | state <;> rw [state] <;> nofun
    obtain ⟨same, start⟩ := Preserves.outcome kept ⟨rfl, begun⟩
    exact ⟨[], by rw [same, List.append_nil], .begins early start .none⟩
  · rw [step_readChunk_inLog (inLog_of_live early invalid)]
    exact .refl reader

theorem step_answers (ready : Ready point reader) :
    Answers reader (step handler point reader).2
      ((parsedNext point reader).map Prod.snd) := by
  obtain ⟨place, cursor⟩ := point
  by_cases start : place = .readChunk
  · subst start
    have other : Point.readChunk ≠ .readLoop := by decide
    rw [parsedNext, nextParsed_eq_none fun _ parses => other parses.1]
    exact step_readChunk_answers cursor
  · have front := @step_front _ handler _ _ ready start
    have delivery := congrArg Front.delivery front
    rw [parsedNext]
    cases parsed : nextParsed (place, cursor) reader with
    | none =>
        rw [parsed] at delivery
        change (step handler (place, cursor) reader).2.delivery = _ at delivery
        rw [Answers, delivery]
        exact Answers.refl reader
    | some message =>
        obtain ⟨whole, _⟩ := piece_of_parsed ready parsed
        rw [parsed] at delivery
        change (step handler (place, cursor) reader).2.delivery = _ at delivery
        rw [Answers, delivery]
        exact parseMessage_answers whole.header_le

theorem readChunk_answers {cursor : Cursor}
    (ready : Ready (.readChunk, cursor) reader) :
    Answers reader (readChunk handler cursor reader).2
      ((parsedIn handler cursor reader).map Prod.snd) := by
  have rule := @Exec.Variant.seen_rule _ _ _ _ _ _ _ Stop.outOfFuel parsedNext
    (fun _ reader seen outcome => Answers reader outcome.2 (seen.map Prod.snd))
    (@step_variant _ handler)
  refine rule ?_ ?_ ?_ ready
  · intro point state final ready returned
    have stepped := @step_answers _ handler _ _ ready
    rwa [returned] at stepped
  · intro point state stop final ready stopped
    have stepped := @step_answers _ handler _ _ ready
    rwa [stopped] at stepped
  · intro point next state reached rest outcome ready moved later
    have stepped := @step_answers _ handler _ _ ready
    rw [moved] at stepped
    rw [List.map_append]
    exact stepped.trans later

/-! ## Runs -/

theorem map_fromStart_snd (arrived : Nat) (entries : List (Nat × Bytes)) :
    (entries.map (fromStart arrived)).map Prod.snd = entries.map Prod.snd := by
  rw [List.map_map]
  rfl

theorem readChunks_answers {chunks : List Bytes} {arrived : Nat}
    (rest : reader.AtRest)
    (returned : readChunks handler chunks reader = (.ok (), reached)) :
    Answers reader reached
      ((parsedMessages handler arrived chunks reader).map Prod.snd) := by
  induction chunks generalizing reader arrived with
  | nil =>
      cases returned
      exact .refl _
  | cons chunk chunks ih =>
      rw [readChunks_cons] at returned
      obtain ⟨_, next, first, others⟩ := Exec.bind_eq_ok.mp returned
      have tidy := rest.tidy (Cursor.ofChunk_valid chunk)
      have answers := @readChunk_answers _ handler _ _ tidy.ready
      have after := @AtRest.readChunk _ handler (.ofChunk chunk) _ rest
        (Cursor.ofChunk_valid chunk)
      rw [parsedMessages, List.map_append, map_fromStart_snd]
      rw [first] at after answers ⊢
      exact answers.trans (ih after others)

/-- Whatever the bytes are, the messages that are handed over stand in the
stream one after another, and each is handed over once. -/
theorem handed_over_once {state : σ} {chunks : List Bytes} {reached : Reader σ}
    (returned : readChunks handler chunks (init state) = (.ok (), reached)) :
    let parsed := parsedMessages handler 0 chunks (init state)
    (∀ entry ∈ parsed, IsMessage entry.2 ∧
      entry.1 + entry.2.length ≤ chunks.flatten.length ∧
      entry.2 <+: chunks.flatten.drop entry.1) ∧
    (parsed.Pairwise fun first second =>
      first.1 + first.2.length ≤ second.1) ∧
    Answered .readMagic (parsed.map Prod.snd)
      (messageCalls reached.delivery.calls) reached.delivery.state := by
  have begins : (init state).Resumes [] 0 :=
    ⟨Nat.le_refl _, .inr ⟨List.suffix_refl _, Nat.le_refl _⟩⟩
  obtain ⟨stop, cut, within⟩ := begins.readChunks (init_atRest state) returned
  obtain ⟨calls, added, answered⟩ :=
    @readChunks_answers _ handler _ _ _ 0 (init_atRest state) returned
  refine ⟨fun entry among => ?_, cut.pairwise, ?_⟩
  · obtain ⟨_, inside, whole, piece⟩ := cut.mem among
    exact ⟨whole, Nat.le_trans inside within, piece⟩
  · have same : messageCalls reached.delivery.calls = calls := added
    rw [same]
    exact answered

def zerosReader : Reader Unit :=
  (readChunks DataHandlerInterface.base zerosLog (init ())).2

theorem handed_over_once_zeros :
    Answered .readMagic [[0, 0, 0], [4, 0, 65, 0, 7, 0, 97], [2, 0, 79, 5, 0]]
      [.headerComplete, .addLoggedMessage ⟨0, 7, [97]⟩, .dropout ⟨5⟩]
      .readData := by
  have first : (readChunks DataHandlerInterface.base zerosLog (init ())).1 =
      .ok () := by decide +kernel
  have returned : readChunks DataHandlerInterface.base zerosLog (init ()) =
      (.ok (), zerosReader) := by
    rw [zerosReader, ← first]
  have parsed : parsedMessages DataHandlerInterface.base 0 zerosLog (init ()) =
      [(16, [0, 0, 0]), (59, [4, 0, 65, 0, 7, 0, 97]), (66, [2, 0, 79, 5, 0])] := by
    decide +kernel
  have called : messageCalls zerosReader.delivery.calls =
      [.headerComplete, .addLoggedMessage ⟨0, 7, [97]⟩, .dropout ⟨5⟩] := by
    decide +kernel
  have complete : zerosReader.delivery.state = .readData := by decide +kernel
  have once := (handed_over_once returned).2.2
  rwa [parsed, called, complete] at once

end Reader

end UlogCpp
