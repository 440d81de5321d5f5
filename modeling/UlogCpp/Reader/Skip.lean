import UlogCpp.Reader.Offset
import UlogCpp.Reader.Protocol

namespace UlogCpp

/-! How the reader gets from the prologue to the first frame. -/

namespace Reader

variable {σ : Type} {handler : DataHandlerInterface σ} {reader : Reader σ}

/-! ## The calls of a log that is open -/

structure Opened (delivery : Delivery σ) : Prop where
  inLog : delivery.state.InLog
  once : Phase.countKind .fileHeader delivery.calls = 1
  noFatal : ∀ msg, .error msg false ∉ delivery.calls

theorem Opened.append {delivery : Delivery σ} (opened : Opened delivery)
    {reached : Delivery σ} {added : List Callback}
    (calls : reached.calls = delivery.calls ++ added)
    (inLog : reached.state.InLog)
    (later : ∀ callback ∈ added, callback.kind ≠ .fileHeader ∧
      ∀ msg, callback ≠ .error msg false) : Opened reached where
  inLog := inLog
  once := by
    have none : Phase.countKind .fileHeader added = 0 := by
      refine List.countP_eq_zero.mpr fun callback mem same => ?_
      exact (later callback mem).1 (of_decide_eq_true same)
    rw [calls, Phase.countKind, List.countP_append]
    exact congrArg₂ (· + ·) opened.once none
  noFatal msg mem := by
    rw [calls] at mem
    rcases List.mem_append.mp mem with earlier | added
    · exact opened.noFatal msg earlier
    · exact (later _ added).2 msg rfl

theorem opened_invariant : DeliveryInvariant handler Opened where
  error msg isRecoverable delivery opened early := by
    have recoverable : isRecoverable = true := by
      refine early.resolve_right fun early => ?_
      rcases opened.inLog with state | state <;>
        rcases early with early | early <;> rw [early] at state <;> cases state
    refine opened.append rfl opened.inLog fun callback mem => ?_
    rw [List.mem_singleton.mp mem, recoverable]
    exact ⟨nofun, nofun⟩
  deliver message delivery opened := by
    obtain ⟨added, calls, kinds⟩ :=
      @Delivery.deliver_calls _ handler message delivery
    refine opened.append calls (Delivery.deliver_inLog opened.inLog)
      fun callback mem => ⟨(kinds callback mem).2, fun msg same => ?_⟩
    exact (kinds callback mem).1 (by rw [same]; rfl)
  magic delivery opened state := by
    rcases opened.inLog with same | same <;> rw [state] at same <;> cases same
  invalid delivery opened state := by
    rcases opened.inLog with same | same <;>
      rcases state with state | state <;> rw [state] at same <;> cases same
  fileHeader header delivery opened state := by
    rcases opened.inLog with same | same <;> rw [state] at same <;> cases same

theorem made_invariant (callback : Callback) :
    DeliveryInvariant handler fun delivery => callback ∈ delivery.calls where
  error _ _ _ made _ := List.mem_append_left _ made
  deliver message delivery made := by
    obtain ⟨added, calls, _⟩ :=
      @Delivery.deliver_calls _ handler message delivery
    rw [calls]
    exact List.mem_append_left _ made
  magic _ made _ := made
  invalid _ made _ := made
  fileHeader header delivery made _ := by
    rcases called : Delivery.call handler (.fileHeader header) delivery with
      ⟨outcome, reached⟩
    have calls : reached.calls = delivery.calls ++ [.fileHeader header] :=
      (congrArg (fun outcome => outcome.2.calls) called).symm
    cases outcome with
    | ok | error =>
        simp only [calls]
        exact List.mem_append_left _ made

theorem DeliveryInvariant.readChunks {property : Delivery σ → Prop}
    (holds : DeliveryInvariant handler property) (chunks : List Bytes) :
    Preserves property (readChunks handler chunks) := by
  induction chunks with
  | nil => exact .pure ()
  | cons chunk chunks ih => exact .bind (holds.readChunk _) fun _ => ih

theorem Preserves.outcome {property : Delivery σ → Prop}
    {program : Exec Stop (Reader σ) α} (kept : Preserves property program)
    {reader : Reader σ} (holds : property reader.delivery) :
    property (program reader).2.delivery := by
  have after := kept reader holds
  rcases ran : program reader with ⟨stop | value, reached⟩
  all_goals
    rw [ran] at after
    exact after

end Reader

/-! ## The prologue -/

/-- The beginning of a log. A flag bits message may be longer than what the
reader knows of it. -/
structure ExtendedPrologue where
  header : UlogFileHeader
  flagBits : Option (UlogMessageFlagBits × Bytes)
  magic : header.magic.toList.take ulogFileMagicBytes.length =
    ulogFileMagicBytes
  typed : ∀ bits ∈ flagBits, bits.1.msgType = ULogMessageType.flagBits.code
  sized : ∀ bits ∈ flagBits, bits.1.msgSize.toNat = 40 + bits.2.length
  compatible : ∀ bits ∈ flagBits, Reader.hasIncompatFlags bits.1 = false

namespace ExtendedPrologue

def toBytes (prologue : ExtendedPrologue) : Bytes :=
  prologue.header.toBytes ++
    match prologue.flagBits with
    | some (bits, extension) => bits.toBytes ++ extension
    | none => []

def offset (prologue : ExtendedPrologue) : Nat :=
  match prologue.flagBits with
  | some (bits, _) => 16 + 3 + bits.msgSize.toNat
  | none => 16

theorem length_toBytes (prologue : ExtendedPrologue) :
    prologue.toBytes.length = prologue.offset := by
  unfold toBytes offset
  cases present : prologue.flagBits with
  | none => simp [UlogFileHeader.size]
  | some bits =>
      have sized := prologue.sized bits present
      simp only [List.length_append, UlogFileHeader.length_toBytes,
        UlogMessageFlagBits.length_toBytes, UlogFileHeader.size,
        UlogMessageFlagBits.size, sized]
      omega

end ExtendedPrologue

namespace Reader

variable {σ : Type} {handler : DataHandlerInterface σ} {reader : Reader σ}

structure Closed (delivery : Delivery σ) : Prop where
  none : Phase.countKind .fileHeader delivery.calls = 0
  noFatal : ∀ msg, .error msg false ∉ delivery.calls

theorem Closed.opened {delivery reached : Delivery σ}
    (closed : Closed delivery) {header : FileHeader}
    (calls : reached.calls = delivery.calls ++ [.fileHeader header]) :
    Opened { reached with state := .readHeader } where
  inLog := .inl rfl
  once := by
    simp only [calls, Phase.countKind, List.countP_append]
    rw [show List.countP _ delivery.calls = 0 from closed.none]
    rfl
  noFatal msg mem := by
    simp only [calls] at mem
    rcases List.mem_append.mp mem with earlier | here
    · exact closed.noFatal msg earlier
    · cases List.mem_singleton.mp here

theorem call_accepted_eq {callback : Callback} {delivery : Delivery σ}
    (accepts : handler.Accepts callback) :
    ∃ reached, Delivery.call handler callback delivery = (.ok (), reached) ∧
      reached.calls = delivery.calls ++ [callback] := by
  have called := @Delivery.call_accepted _ _ _ delivery accepts
  rcases ran : Delivery.call handler callback delivery with ⟨outcome, reached⟩
  rw [ran] at called
  cases called
  exact ⟨reached, rfl, (congrArg (fun outcome => outcome.2.calls) ran).symm⟩

theorem reportAppendedOffsets_closed
    (accepts : ∀ callback : Callback, callback.Early →
      handler.Accepts callback)
    (bits : UlogMessageFlagBits) (closed : Closed reader.delivery) :
    ∃ warned, reportAppendedOffsets handler bits reader =
      (.ok (), { reader with delivery := warned }) ∧ Closed warned := by
  unfold reportAppendedOffsets
  split
  · obtain ⟨warned, ran, calls⟩ := @call_accepted_eq _ handler
      appendedOffsetsError reader.delivery (accepts _ trivial)
    refine ⟨warned, onDelivery_eq ran, ?_, fun msg mem => ?_⟩
    · rw [calls, Phase.countKind, List.countP_append,
        show List.countP _ reader.delivery.calls = 0 from closed.none]
      rfl
    · rw [calls] at mem
      rcases List.mem_append.mp mem with earlier | here
      · exact closed.noFatal msg earlier
      · cases List.mem_singleton.mp here
  · exact ⟨reader.delivery, rfl, closed⟩

theorem skipFlagBits_opens {prologue : ExtendedPrologue} {chunk : Bytes}
    (accepts : ∀ callback : Callback, callback.Early →
      handler.Accepts callback)
    (flags : reader.delivery.state = .readFlagBits)
    (closed : Closed reader.delivery) (long : 43 ≤ chunk.length)
    (layout : match prologue.flagBits with
      | some (bits, _) => ∃ after, chunk = bits.toBytes ++ after
      | none => msgType chunk ≠ ULogMessageType.flagBits.code) :
    ∃ delivery, skipFlagBits handler (.ofChunk chunk) reader =
      (.ok ((Cursor.ofChunk chunk).advance (prologue.offset - 16 : Nat)),
        { reader with delivery }) ∧ Opened delivery := by
  have more : chunk ≠ [] := List.ne_nil_of_length_pos (by omega)
  cases present : prologue.flagBits with
  | none =>
      rw [present] at layout
      obtain ⟨reached, called, calls⟩ := @call_accepted_eq _ handler
        (.fileHeader (.ofHeader reader.fileHeader)) reader.delivery
        (accepts _ trivial)
      have read := readFlagBits_none long layout called
      refine ⟨_, ?_, closed.opened calls⟩
      simp only [ExtendedPrologue.offset, present]
      exact skipFlagBits_read flags more read
  | some bits =>
      rw [present] at layout
      obtain ⟨after, rfl⟩ := layout
      obtain ⟨warned, reports, closed'⟩ :=
        reportAppendedOffsets_closed accepts bits.1 closed
      obtain ⟨reached, called, calls⟩ := @call_accepted_eq _ handler
        (.fileHeader (.ofFlagBits reader.fileHeader bits.1)) warned
        (accepts _ trivial)
      have read := @readFlagBits_some _ _ _ _ _ after _
        (prologue.typed bits present) (prologue.compatible bits present) reports
        called
      refine ⟨_, ?_, closed'.opened calls⟩
      have skip : prologue.offset - 16 =
          bits.1.msgSize.toNat + ulogMsgHeaderLen := by
        simp only [ExtendedPrologue.offset, present, ulogMsgHeaderLen]
        omega
      rw [skip]
      exact skipFlagBits_read flags more read

/-- No flag bits message follows a file header without one. -/
def Unmistakable (prologue : ExtendedPrologue) (frames : List Frame) : Prop :=
  prologue.flagBits = none →
    ∀ frame ∈ frames.head?, frame.msgType ≠ ULogMessageType.flagBits.code

variable {prologue : ExtendedPrologue} {frames : List Frame} {first : Bytes}
  {chunks : List Bytes} {state : σ}

theorem advance_header {chunk : Bytes} (header : UlogFileHeader)
    (prologue : ExtendedPrologue) :
    (Cursor.ofChunk (header.toBytes ++ chunk)).advance (prologue.offset : Nat) =
      (Cursor.ofChunk chunk).advance (prologue.offset - 16 : Nat) := by
  have past : 16 ≤ prologue.offset := by
    unfold ExtendedPrologue.offset
    split <;> omega
  have length := header.length_toBytes
  simp only [UlogFileHeader.size] at length
  obtain ⟨rest, offset⟩ : ∃ rest, prologue.offset = 16 + rest :=
    Nat.exists_eq_add_of_le past
  rw [offset]
  simp only [Cursor.advance, Cursor.ofChunk, Int.toNat_natCast,
    List.length_append, length, Nat.add_sub_cancel_left, Cursor.mk.injEq]
  refine ⟨?_, by omega⟩
  rw [← length, List.drop_length_add_append]

/-- The first chunk brings what the reader knows of the prologue. -/
theorem step_opens
    (accepts : ∀ callback : Callback, callback.Early →
      handler.Accepts callback)
    (unmistakable : Unmistakable prologue frames)
    (layout : (first :: chunks).flatten =
      prologue.toBytes ++ Frame.stream frames)
    (sized : 59 ≤ first.length) :
    ∃ reached, step handler (.readChunk, .ofChunk first) (init state) =
        (.ok (some (.readLoop,
          (Cursor.ofChunk first).advance (prologue.offset : Nat))), reached) ∧
      reached.Follows [] reached.delivery false ∧ Opened reached.delivery := by
  have length := prologue.header.length_toBytes
  simp only [UlogFileHeader.size] at length
  unfold ExtendedPrologue.toBytes at layout
  rw [List.flatten_cons, List.append_assoc] at layout
  obtain ⟨chunk, rfl⟩ := layout_prefix layout (by omega)
  rw [List.append_assoc] at layout
  have after := List.append_cancel_left layout
  have long : 43 ≤ chunk.length := by
    rw [List.length_append] at sized
    omega
  have magic := @skipMagic_header _ handler (init state) prologue.header chunk
    prologue.magic rfl
  have split : match prologue.flagBits with
      | some (bits, _) => ∃ after, chunk = bits.toBytes ++ after
      | none => msgType chunk ≠ ULogMessageType.flagBits.code := by
    cases present : prologue.flagBits with
    | some bits =>
        rw [present, List.append_assoc] at after
        exact layout_prefix after
          (by simp only [UlogMessageFlagBits.length_toBytes]; exact long)
    | none =>
        have same : msgType chunk = msgType (Frame.stream frames) := by
          simp only [msgType, List.getD_eq_getElem?_getD]
          rw [← List.nil_append (Frame.stream frames)]
          simp only [present] at after
          rw [← after, List.getElem?_append_left (by omega)]
        simp only
        rw [same]
        exact Frame.msgType_stream (by decide) (unmistakable present)
  obtain ⟨delivery, skipped, opened⟩ :=
    @skipFlagBits_opens _ handler ((init state).afterMagic prologue.header)
      prologue chunk accepts rfl ⟨rfl, fun _ => List.not_mem_nil⟩ long split
  refine ⟨{ (init state).afterMagic prologue.header with delivery }, ?_,
    ⟨.ofNormal (Nat.zero_le _) (Nat.le_refl _) rfl, rfl, opened.inLog, rfl, rfl,
      rfl⟩, opened⟩
  rw [advance_header, step_readChunk_live (init_live state), Exec.bind_ok magic,
    Exec.bind_ok skipped, Exec.pure_apply]

theorem readChunks_stepped {property : Delivery σ → Prop}
    (holds : DeliveryInvariant handler property) {next : Point × Cursor}
    {reached : Reader σ}
    (stepped : step handler (.readChunk, .ofChunk first) (init state) =
      (.ok (some next), reached))
    (kept : property reached.delivery) :
    property (readChunks handler (first :: chunks) (init state)).2.delivery := by
  have run := (Preserves.bind (holds.runLoop next) fun _ =>
    holds.readChunks chunks).outcome kept
  rw [Exec.bind_apply] at run
  rw [readChunks_cons, Exec.bind_apply, readChunk, step_variant.runLoop_next
    (readChunk_ready (init_safe state) (Cursor.ofChunk_valid _)) stepped]
  exact run

theorem not_parses_readChunk {cursor : Cursor} {message : Bytes} :
    ¬ Parses (.readChunk, cursor) reader message :=
  fun parses => nomatch parses.1

theorem ParsesAt.shift {rest message : Bytes} {start reached : Reader σ}
    {offset later : Nat} (safe : start.Safe) (safe' : reached.Safe)
    (inLog : reached.delivery.state.InLog)
    (stepped : step handler (.readChunk, .ofChunk first) start =
      (.ok (some (.readLoop, .ofChunk rest)), reached))
    (parses : ParsesAt handler (rest :: chunks) reached later message)
    (counted : offset + reached.partialMessageBuffer.length + rest.length =
      later + start.partialMessageBuffer.length + first.length) :
    ParsesAt handler (first :: chunks) start offset message := by
  have ready := readChunk_ready safe (Cursor.ofChunk_valid first)
  have same : readChunk handler (.ofChunk first) start =
      readChunk handler (.ofChunk rest) reached :=
    (step_variant.runLoop_next ready stepped).trans
      (readChunk_inLog safe' inLog rest).symm
  rcases parses.cases_head safe' with
    ⟨point, inside, reaches, here, counted'⟩ | ⟨next, after, ran, parses, counted'⟩
  · rcases reaches.cases_head with ⟨rfl, rfl⟩ | ⟨next, _, moved, reaches⟩
    · exact absurd here not_parses_readChunk
    · rw [step_readChunk_inLog inLog] at moved
      cases moved
      exact .here (.head stepped reaches) here (by omega)
  · exact .later (same.trans ran) parses (by omega)

/-! ## What is parsed after the prologue -/

/-- The log is opened once and for good, and what is parsed first is the first
frame. -/
structure SkippedExactly (handler : DataHandlerInterface σ)
    (prologue : ExtendedPrologue) (frames : List Frame) (chunks : List Bytes)
    (state : σ) : Prop where
  once : Phase.countKind .fileHeader
    (readChunks handler chunks (init state)).2.delivery.calls = 1
  noFatal : ∀ msg, .error msg false ∉
    (readChunks handler chunks (init state)).2.delivery.calls
  notBefore : ∀ offset message,
    ParsesAt handler chunks (init state) offset message →
      prologue.offset ≤ offset
  front : ∀ frame ∈ frames.head?,
    ParsesAt handler chunks (init state) prologue.offset frame.toBytes

section Skipping

variable
  (accepts : ∀ callback : Callback, callback.Early → handler.Accepts callback)
  (unmistakable : Unmistakable prologue frames)
  (layout : (first :: chunks).flatten =
    prologue.toBytes ++ Frame.stream frames)

include accepts unmistakable layout

/-- The prologue is in the first chunk. -/
theorem skipped_within (sized : 59 ≤ first.length)
    (within : prologue.offset ≤ first.length) :
    SkippedExactly handler prologue frames (first :: chunks) state := by
  obtain ⟨reached, stepped, follows, opened⟩ :=
    @step_opens _ handler _ _ _ _ state accepts unmistakable layout sized
  rw [Cursor.advance_ofChunk within] at stepped
  have ready := readChunk_ready (init_safe state) (Cursor.ofChunk_valid first)
  have run := @readChunks_stepped _ _ _ chunks _ _ opened_invariant _ _ stepped
    opened
  have drops := List.length_drop (i := prologue.offset) (l := first)
  generalize dropped : first.drop prologue.offset = rest at stepped drops
  have pending : pendingBytes (.readLoop, .ofChunk rest) reached =
      rest.length := by
    simp only [pendingBytes, Cursor.length_ofChunk, Int.toNat_natCast,
      follows.pending_eq, List.length_nil, Nat.add_zero]
  have entered := step_variant.keeps ready stepped
  refine ⟨run.once, run.noFatal, fun offset message parses => ?_, ?_⟩
  · rcases parses.cases_head (init_safe state) with
      ⟨point, inside, reaches, here, counted⟩ | ⟨next, later, ran, _, counted⟩
    · rcases reaches.cases_head with ⟨rfl, rfl⟩ | ⟨next, _, moved, reaches⟩
      · exact absurd here not_parses_readChunk
      · rw [stepped] at moved
        cases moved
        have kept := pendingBytes_reaches entered reaches
        omega
    · have rest := (step_variant.runLoop_next ready stepped).symm.trans ran
      have kept := runLoop_pending entered rest
      have counted' : offset + next.partialMessageBuffer.length =
        later + 0 + first.length := counted
      omega
  · intro frame found
    obtain ⟨others, rfl⟩ : ∃ others, frames = frame :: others :=
      List.head?_eq_some_iff.mp found
    have arrives : (rest :: chunks).flatten =
        frame.toBytes ++ Frame.stream others := by
      have start := congrArg (List.drop prologue.offset) layout
      rw [List.flatten_cons, List.drop_append_of_le_length within, dropped,
        ← prologue.length_toBytes, List.drop_left] at start
      exact start
    have long := frame.length_pos
    have completes : Completes [] (rest :: chunks) := by
      unfold Completes
      rw [List.nil_append, arrives]
      refine ⟨frame.isMessage.hasMessage_append _, ?_, .inr (.inl ?_)⟩
      · exact List.append_ne_nil_of_left_ne_nil
          (List.ne_nil_of_length_pos (by rw [frame.length_toBytes]; omega)) _
      · rw [List.length_append, frame.length_toBytes]
        omega
    have parses := @Follows.parses_front _ handler _ _ _ _ _ follows completes
    rw [List.nil_append, arrives, frame.isMessage.fullMessageLength_append,
      List.take_left] at parses
    refine parses.shift (init_safe state) follows.safe opened.inLog stepped ?_
    rw [follows.pending_eq, drops]
    simp only [init, List.length_nil]
    omega

/-- The flag bits message goes on after the first chunk: the rest of it is read
as messages. -/
theorem skipped_beyond (sized : 59 ≤ first.length)
    (beyond : first.length < prologue.offset) :
    SkippedExactly handler prologue frames (first :: chunks) state ↔
      frames = [] ∧ ¬ Completes [] chunks := by
  obtain ⟨reached, stepped, follows, opened⟩ :=
    @step_opens _ handler _ _ _ _ state accepts unmistakable layout sized
  have ready := readChunk_ready (init_safe state) (Cursor.ofChunk_valid first)
  have run := @readChunks_stepped _ _ _ chunks _ _ opened_invariant _ _ stepped
    opened
  have spent : ¬ ((Cursor.ofChunk first).advance
      (prologue.offset : Nat)).length > 0 := by
    simp only [Cursor.advance, Cursor.length_ofChunk]
    omega
  generalize (Cursor.ofChunk first).advance (prologue.offset : Nat) = cursor
    at stepped spent
  have leaves := @step_leaves _ handler _ _ follows.normal spent
  have ran : readChunk handler (.ofChunk first) (init state) =
      (.ok (), reached) :=
    (step_variant.runLoop_next ready stepped).trans (Exec.runLoop_done leaves)
  have held : reached.partialMessageBuffer.length = 0 := by
    rw [follows.pending_eq, List.length_nil]
  have later : ∀ {offset message},
      ParsesAt handler (first :: chunks) (init state) offset message →
        ∃ after, ParsesAt handler chunks reached after message := by
    intro offset message parses
    rcases parses.cases_head (init_safe state) with
      ⟨point, inside, reaches, here, _⟩ | ⟨next, after, ran', parses, _⟩
    · rcases reaches.cases_head with ⟨rfl, rfl⟩ | ⟨next, _, moved, reaches⟩
      · exact absurd here not_parses_readChunk
      · rw [stepped] at moved
        cases moved
        rcases reaches.cases_head with ⟨rfl, rfl⟩ | ⟨next, _, moved, _⟩
        · exact absurd here.2.1 spent
        · rw [leaves] at moved
          cases moved
    · rw [ran] at ran'
      cases ran'
      exact ⟨after, parses⟩
  constructor
  · rintro ⟨_, _, notBefore, front⟩
    have stalls : ¬ Completes [] chunks := by
      intro completes
      have parses := @Follows.parses_front _ handler _ _ _ _ _ follows completes
      have early := notBefore _ _ (.later ran parses (by
        rw [held]
        simp only [init, List.length_nil, Nat.zero_add, Nat.add_zero]
        rfl))
      omega
    refine ⟨List.head?_eq_none_iff.mp ?_, stalls⟩
    refine Option.eq_none_iff_forall_not_mem.mpr fun frame found => ?_
    obtain ⟨after, parses⟩ := later (front frame found)
    exact follows.parses_nothing stalls after _ parses
  · rintro ⟨rfl, stalls⟩
    refine ⟨run.once, run.noFatal, fun offset message parses => ?_, ?_⟩
    · obtain ⟨after, parses⟩ := later parses
      exact absurd parses (follows.parses_nothing stalls after _)
    · rintro _ ⟨⟩

end Skipping

theorem readChunks_nothing (safe : reader.Safe)
    (normal : reader.needRecovery = false)
    (flags : reader.delivery.state = .readFlagBits)
    (alone : chunks.flatten = []) :
    readChunks handler chunks reader = (.ok (), reader) := by
  have nothing : ¬ (Cursor.ofChunk []).length > 0 := by decide
  have enters : step handler (.readChunk, .ofChunk []) reader =
      (.ok (some (.readLoop, .ofChunk [])), reader) := by
    have noMagic : skipMagic handler (.ofChunk []) reader =
        (.ok (.ofChunk []), reader) := by
      unfold skipMagic
      rw [Exec.get_bind_apply, if_neg (by rw [flags]; decide), Exec.pure_apply]
    have noFlagBits : skipFlagBits handler (.ofChunk []) reader =
        (.ok (.ofChunk []), reader) := by
      unfold skipFlagBits
      rw [Exec.get_bind_apply, if_neg fun both => nothing both.2,
        Exec.pure_apply]
    rw [step_readChunk_live (by rw [flags]; decide), Exec.bind_ok noMagic,
      Exec.bind_ok noFlagBits, Exec.pure_apply]
  have ran : readChunk handler (.ofChunk []) reader = (.ok (), reader) :=
    (step_variant.runLoop_next (readChunk_ready safe (Cursor.ofChunk_valid []))
      enters).trans (Exec.runLoop_done (step_leaves normal nothing))
  induction chunks with
  | nil => rfl
  | cons chunk chunks ih =>
      obtain ⟨rfl, rest⟩ := List.append_eq_nil_iff.mp alone
      exact (Exec.bind_ok ran _).trans (ih rest)

/-- A log that ends after the file header is not opened. -/
theorem not_skipped_bare (alone : chunks.flatten = []) :
    ¬ SkippedExactly handler prologue frames
      (prologue.header.toBytes :: chunks) state := by
  generalize readerEq : (init state).afterMagic prologue.header = reader
  have magic := @skipMagic_header _ handler (init state) prologue.header []
    prologue.magic rfl
  rw [List.append_nil, readerEq] at magic
  have safe : reader.Safe := by
    rw [← readerEq]
    exact .ofNormal (Nat.zero_le _) (Nat.le_refl _) rfl
  have normal : reader.needRecovery = false := by
    rw [← readerEq]
    rfl
  have flags : reader.delivery.state = .readFlagBits := by
    rw [← readerEq]
    rfl
  have nothing : ¬ (Cursor.ofChunk []).length > 0 := by decide
  have skipped : skipFlagBits handler (.ofChunk []) reader =
      (.ok (.ofChunk []), reader) := by
    unfold skipFlagBits
    rw [Exec.get_bind_apply, if_neg fun both => nothing both.2,
      Exec.pure_apply]
  have stepped : step handler (.readChunk, .ofChunk prologue.header.toBytes)
      (init state) = (.ok (some (.readLoop, .ofChunk [])), reader) := by
    rw [step_readChunk_live (init_live state), Exec.bind_ok magic,
      Exec.bind_ok skipped, Exec.pure_apply]
  have ran : readChunk handler (.ofChunk prologue.header.toBytes) (init state) =
      (.ok (), reader) :=
    (step_variant.runLoop_next
      (readChunk_ready (init_safe state) (Cursor.ofChunk_valid _))
      stepped).trans (Exec.runLoop_done (step_leaves normal nothing))
  intro skips
  have once := skips.once
  rw [readChunks_cons, Exec.bind_ok ran,
    readChunks_nothing safe normal flags alone, ← readerEq] at once
  cases once

theorem readFlagBits_short {chunk : Bytes} (short : chunk.length < 43)
    (accepts : ∀ callback : Callback, callback.Early →
      handler.Accepts callback) :
    ∃ delivery, readFlagBits handler (.ofChunk chunk) reader =
        (.ok 0, { reader with delivery }) ∧
      .error (ascii "Not enough data to read file flags") false ∈
        delivery.calls := by
  obtain ⟨reached, ran, calls⟩ := @call_accepted_eq _ handler
    (.error (ascii "Not enough data to read file flags") false) reader.delivery
    (accepts _ trivial)
  refine ⟨{ reached with state := .invalidData }, ?_, ?_⟩
  · have few : (Cursor.ofChunk chunk).length < UlogMessageFlagBits.size := by
      simp only [Cursor.length_ofChunk, UlogMessageFlagBits.size]
      omega
    have gaveUp : error handler "Not enough data to read file flags" false
        reader = (.ok (), { reader with delivery := reached }) :=
      onDelivery_eq ran
    unfold readFlagBits
    rw [if_pos few, Exec.bind_ok gaveUp]
    rfl
  · rw [calls]
    exact List.mem_append_right _ List.mem_cons_self

/-- One that ends before the reader could see flag bits is given up. -/
theorem not_skipped_short {messages : Bytes}
    (accepts : ∀ callback : Callback, callback.Early →
      handler.Accepts callback) (some : messages ≠ [])
    (short : messages.length < 43) :
    ¬ SkippedExactly handler prologue frames
      ((prologue.header.toBytes ++ messages) :: chunks) state := by
  have magic := @skipMagic_header _ handler (init state) prologue.header
    messages prologue.magic rfl
  obtain ⟨delivery, read, fatal⟩ := @readFlagBits_short _ handler
    ((init state).afterMagic prologue.header) messages short accepts
  have skipped := skipFlagBits_read rfl some read
  have stepped : step handler
      (.readChunk, .ofChunk (prologue.header.toBytes ++ messages)) (init state) =
        (.ok (.some (.readLoop, (Cursor.ofChunk messages).advance 0)),
          { (init state).afterMagic prologue.header with delivery }) := by
    rw [step_readChunk_live (init_live state), Exec.bind_ok magic,
      Exec.bind_ok skipped, Exec.pure_apply]
  intro skips
  exact skips.noFatal _ (readChunks_stepped (made_invariant _) stepped fatal)

/-- The prologue is skipped exactly when the first chunk is long enough for the
test of the reader and holds all of it. -/
theorem skippedExactly_iff
    (accepts : ∀ callback : Callback, callback.Early →
      handler.Accepts callback)
    (unmistakable : Unmistakable prologue frames)
    (layout : (first :: chunks).flatten =
      prologue.toBytes ++ Frame.stream frames)
    (sized : 59 ≤ first.length ∨
      prologue.flagBits = none ∧ chunks.flatten = []) :
    SkippedExactly handler prologue frames (first :: chunks) state ↔
      59 ≤ first.length ∧ (prologue.offset ≤ first.length ∨
        frames = [] ∧ ¬ Completes [] chunks) := by
  by_cases long : 59 ≤ first.length
  · by_cases within : prologue.offset ≤ first.length
    · have skipped := @skipped_within _ handler _ _ _ _ state accepts
        unmistakable layout long within
      exact iff_of_true skipped ⟨long, .inl within⟩
    · rw [skipped_beyond accepts unmistakable layout long
        (Nat.lt_of_not_le within), and_iff_right long, or_iff_right within]
  · obtain ⟨absent, alone⟩ := sized.resolve_left long
    have length := prologue.header.length_toBytes
    simp only [UlogFileHeader.size] at length
    simp only [List.flatten_cons, alone, List.append_nil,
      ExtendedPrologue.toBytes, absent] at layout
    subst layout
    refine iff_of_false ?_ fun enough => long enough.1
    by_cases empty : Frame.stream frames = []
    · rw [empty, List.append_nil]
      exact not_skipped_bare alone
    · refine not_skipped_short accepts empty ?_
      rw [List.length_append] at long
      omega

def extendedPrologue : ExtendedPrologue where
  header := (FileHeader.ofTimestamp 0 false).header
  flagBits := some
    ({ (FileHeader.ofTimestamp 0 false).flagBits with msgSize := 43 }, [7, 7, 7])
  magic := rfl
  typed _ present := by rw [← Option.some.inj present]; rfl
  sized _ present := by rw [← Option.some.inj present]; rfl
  compatible _ present := by rw [← Option.some.inj present]; decide

theorem skippedExactly_iff_extended :
    SkippedExactly .base extendedPrologue [incompatibleFrame]
        [extendedPrologue.toBytes ++ Frame.stream [incompatibleFrame]] () ↔
      59 ≤ (extendedPrologue.toBytes ++
          Frame.stream [incompatibleFrame]).length ∧
        (extendedPrologue.offset ≤ (extendedPrologue.toBytes ++
            Frame.stream [incompatibleFrame]).length ∨
          [incompatibleFrame] = [] ∧ ¬ Completes [] []) :=
  skippedExactly_iff (fun _ _ state => ⟨state, rfl⟩) nofun
    (List.append_nil _) (.inl (by decide))

/-- The first chunk ends with the part of the flag bits that the reader
knows. -/
theorem not_skippedExactly :
    ¬ ∀ (σ : Type) (handler : DataHandlerInterface σ)
      (prologue : ExtendedPrologue) (frames : List Frame) (first : Bytes)
      (chunks : List Bytes) (state : σ),
      (∀ callback : Callback, callback.Early → handler.Accepts callback) →
      Unmistakable prologue frames →
      (first :: chunks).flatten = prologue.toBytes ++ Frame.stream frames →
      (59 ≤ first.length ∨ prologue.flagBits = none ∧ chunks.flatten = []) →
      SkippedExactly handler prologue frames (first :: chunks) state := by
  intro always
  have accepts : ∀ callback : Callback, callback.Early →
      DataHandlerInterface.base.Accepts callback :=
    fun _ _ state => ⟨state, rfl⟩
  have unmistakable : Unmistakable extendedPrologue [incompatibleFrame] := nofun
  have layout : (extendedPrologue.toBytes.take 59 ::
      [[7, 7, 7] ++ incompatibleFrame.toBytes]).flatten =
        extendedPrologue.toBytes ++ Frame.stream [incompatibleFrame] := by
    decide
  have skipped := always Unit .base extendedPrologue [incompatibleFrame] _ _ ()
    accepts unmistakable layout (.inl (by decide))
  have none := ((skipped_beyond accepts unmistakable layout (by decide)
    (by decide)).mp skipped).1
  cases none

end Reader

end UlogCpp
