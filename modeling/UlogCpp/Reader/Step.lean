import UlogCpp.Data.Scan
import UlogCpp.Reader.Buffer

namespace UlogCpp.Reader

variable {σ : Type}

/-! What one step of the reader does, in terms of the bytes that have arrived:
those in the buffer followed by those left of the chunk. -/

section NextMessage

variable {reader : Reader σ} {chunk arrived : Bytes}

theorem bufferedMessage_ofChunk (safe : reader.Safe)
    (normal : reader.needRecovery = false)
    (arrivedEq : arrived = reader.partialMessageBuffer ++ chunk) {count : Nat}
    (counted : count =
      max reader.partialMessageBuffer.length (fullMessageLength arrived)) :
    bufferedMessage (.ofChunk chunk) reader =
      (.ok (if HasMessage arrived then
            some ⟨arrived.take (fullMessageLength arrived), true⟩
          else none, .ofChunk (arrived.drop count)),
        reader.buffered (arrived.take count)) := by
  have long := header_le_fullMessageLength arrived
  have header := ensureEnoughData_ofChunk safe arrivedEq
    (rfl : max reader.partialMessageBuffer.length ulogMsgHeaderLen = _)
  generalize firstEq : max reader.partialMessageBuffer.length ulogMsgHeaderLen =
    first at header
  have firstBound : first = max reader.partialMessageBuffer.length 3 :=
    firstEq.symm
  unfold bufferedMessage
  rw [Exec.bind_ok header]
  by_cases few : arrived.length < 3
  · have incomplete : ¬ HasMessage arrived := by
      unfold HasMessage
      omega
    have noHeader : ¬ ulogMsgHeaderLen ≤ arrived.length := by
      simp only [ulogMsgHeaderLen]
      omega
    simp only [decide_eq_false noHeader, Bool.false_eq_true, if_false,
      Exec.pure_apply]
    rw [if_neg incomplete, List.take_of_length_le (by omega),
      List.take_of_length_le (by omega), List.drop_of_length_le (by omega),
      List.drop_of_length_le (by omega)]
  · have hasHeader : ulogMsgHeaderLen ≤ arrived.length := by
      simp only [ulogMsgHeaderLen]
      omega
    have read := @readUInt16_msgSize (arrived.take first)
      (by rw [List.length_take]; omega)
    have size : ((msgSize (arrived.take first)).toNat : Int) +
        ulogMsgHeaderLen = fullMessageLength arrived := by
      have full := toNat_msgSize (arrived.take first)
      rw [fullMessageLength_take (by omega)] at full
      rw [← full]
      rfl
    have held : reader.partialMessageBuffer.length ≤ arrived.length := by
      rw [arrivedEq, List.length_append]
      exact Nat.le_add_right _ _
    have total : count = max (reader.buffered
        (arrived.take first)).partialMessageBuffer.length
          (fullMessageLength arrived) := by
      simp only [buffered_partialMessageBuffer, List.length_take]
      omega
    have rest := ensureEnoughData_ofChunk (safe.buffered normal _)
      (List.take_append_drop first arrived).symm total
    simp only [decide_eq_true hasHeader, if_true, Exec.get_bind_apply,
      buffered_partialMessageBuffer, read, Exec.lift_ok_bind_apply, size]
    rw [Exec.bind_ok rest, buffered_buffered _ _ (by simp; omega)]
    by_cases complete : HasMessage arrived
    · have window := @readBytes_ok (arrived.take count) 0
        (fullMessageLength arrived) (by
          unfold HasMessage at complete
          rw [List.length_take]
          omega)
      have within : fullMessageLength arrived ≤ count := by omega
      simp only [Int.natCast_zero, List.drop_zero, List.take_take,
        Nat.min_eq_left within] at window
      simp only [decide_eq_true (show _ ≤ arrived.length from complete),
        if_true, if_pos complete, Exec.get_bind_apply,
        buffered_partialMessageBuffer, window, Exec.lift_ok_bind_apply]
      rfl
    · have incomplete : ¬ fullMessageLength arrived ≤ arrived.length := complete
      simp only [decide_eq_false incomplete, Bool.false_eq_true, if_false,
        if_neg complete]
      rfl

theorem stash_ofChunk (safe : reader.Safe)
    (empty : reader.partialMessageBuffer = []) {count : Nat}
    (counted : count = min chunk.length
      reader.partialMessageBufferLengthCapacity) :
    stash (.ofChunk chunk) reader =
      (.ok (none, .ofChunk (chunk.drop count)),
        reader.buffered (chunk.take count)) := by
  have append := @appendToPartialBuffer_ofChunk σ reader safe chunk count
    (by rw [counted, empty]; rfl)
  unfold stash
  rw [Exec.bind_ok append, Cursor.advance_ofChunk (by omega), empty,
    buffered_eq_of_fits _ (by rw [List.length_take]; omega)]
  rfl

theorem directMessage_complete (complete : HasMessage chunk)
    (long : 3 < chunk.length) :
    directMessage (.ofChunk chunk) reader =
      (.ok (some ⟨chunk.take (fullMessageLength chunk), false⟩,
        .ofChunk (chunk.drop (fullMessageLength chunk))), reader) := by
  have size : ((msgSize chunk).toNat : Int) + ulogMsgHeaderLen =
      fullMessageLength chunk := by
    rw [← toNat_msgSize]
    rfl
  have window := @readBytes_ok chunk 0 (fullMessageLength chunk)
    (by rw [Nat.zero_add]; exact complete)
  have enough : (Cursor.ofChunk chunk).length ≥
      ((msgSize chunk).toNat : Int) + ulogMsgHeaderLen := by
    rw [size]
    exact Int.ofNat_le.mpr complete
  simp only [Int.natCast_zero, List.drop_zero] at window
  unfold directMessage
  rw [if_pos (by simp only [Cursor.length_ofChunk, ulogMsgHeaderLen]; omega),
    Cursor.data_ofChunk, readUInt16_msgSize (by omega),
    Exec.lift_ok_bind_apply]
  rw [if_pos enough, size, window, Exec.lift_ok_bind_apply,
    Cursor.advance_ofChunk complete]
  rfl

theorem directMessage_short (short : ¬ HasMessage chunk ∨ chunk.length ≤ 3) :
    directMessage (.ofChunk chunk) reader = stash (.ofChunk chunk) reader := by
  unfold directMessage
  by_cases long : 3 < chunk.length
  · have incomplete : ¬ fullMessageLength chunk ≤ chunk.length :=
      short.resolve_right (by omega)
    have tooFew : ¬ (Cursor.ofChunk chunk).length ≥
        ((msgSize chunk).toNat : Int) + ulogMsgHeaderLen := by
      rw [← toNat_msgSize] at incomplete
      exact fun enough => incomplete (Int.ofNat_le.mp enough)
    rw [if_pos (by simp only [Cursor.length_ofChunk, ulogMsgHeaderLen]; omega),
      Cursor.data_ofChunk, readUInt16_msgSize (by omega),
      Exec.lift_ok_bind_apply]
    rw [if_neg tooFew]
  · rw [if_neg (by simp only [Cursor.length_ofChunk, ulogMsgHeaderLen]; omega)]

theorem nextMessage_buffered (held : reader.partialMessageBuffer ≠ [])
    (cursor : Cursor) :
    nextMessage cursor reader = bufferedMessage cursor reader := by
  have some := List.length_pos_iff.mpr held
  unfold nextMessage
  rw [Exec.get_bind_apply, if_pos (by
    simp only [partialMessageBufferLength]; omega)]

theorem nextMessage_direct (empty : reader.partialMessageBuffer = [])
    (cursor : Cursor) :
    nextMessage cursor reader = directMessage cursor reader := by
  unfold nextMessage
  rw [Exec.get_bind_apply, if_neg (by
    simp [partialMessageBufferLength, empty])]

theorem nextMessage_complete (safe : reader.Safe)
    (normal : reader.needRecovery = false)
    (arrivedEq : arrived = reader.partialMessageBuffer ++ chunk)
    (more : chunk ≠ []) (complete : HasMessage arrived)
    (long : reader.partialMessageBuffer ≠ [] ∨ 3 < chunk.length) :
    ∃ fromBuffer left rest,
      nextMessage (.ofChunk chunk) reader =
        (.ok (some ⟨arrived.take (fullMessageLength arrived), fromBuffer⟩,
            .ofChunk rest),
          reader.buffered ((if fromBuffer then
            arrived.take (fullMessageLength arrived) else []) ++ left)) ∧
      left ++ rest = arrived.drop (fullMessageLength arrived) ∧
      rest.length ≤ chunk.length ∧ (rest = [] → left = []) ∧
      (fromBuffer = false → left = []) := by
  by_cases held : reader.partialMessageBuffer = []
  · have arrivedChunk : arrived = chunk := by rw [arrivedEq, held]; rfl
    subst arrivedChunk
    refine ⟨false, [], _, ?_, List.nil_append _, ?_, fun _ => rfl,
      fun _ => rfl⟩
    rotate_left
    · rw [List.length_drop]
      exact Nat.sub_le _ _
    rw [nextMessage_direct held, directMessage_complete complete
      (long.resolve_left fun nonempty => nonempty held)]
    have same := buffered_self safe
    rw [held] at same
    simp only [Bool.false_eq_true, if_false, List.append_nil, same]
  · have positive := List.length_pos_iff.mpr more
    have arrivedLength : arrived.length =
        reader.partialMessageBuffer.length + chunk.length := by
      rw [arrivedEq, List.length_append]
    have within : fullMessageLength arrived ≤ arrived.length := complete
    generalize counted : max reader.partialMessageBuffer.length
      (fullMessageLength arrived) = count
    have split : arrived.take count =
        arrived.take (fullMessageLength arrived) ++
          (arrived.take count).drop (fullMessageLength arrived) := by
      have shorter : arrived.take (fullMessageLength arrived) =
          (arrived.take count).take (fullMessageLength arrived) := by
        rw [List.take_take, Nat.min_eq_left (by omega)]
      rw [shorter, List.take_append_drop]
    refine ⟨true, (arrived.take count).drop (fullMessageLength arrived),
      arrived.drop count, ?_, ?_, ?_, ?_, nofun⟩
    · rw [nextMessage_buffered held,
        bufferedMessage_ofChunk safe normal arrivedEq counted.symm,
        if_pos complete]
      simp only [if_true, ← split]
    · rw [← List.drop_append_of_le_length (by rw [List.length_take]; omega),
        List.take_append_drop]
    · rw [List.length_drop]
      omega
    · intro consumed
      have all := List.drop_eq_nil_iff.mp consumed
      apply List.drop_eq_nil_iff.mpr
      rw [List.length_take]
      omega

/-- Without a complete message bytes of the chunk are moved to the buffer. -/
theorem nextMessage_waiting (safe : reader.Safe)
    (normal : reader.needRecovery = false)
    (arrivedEq : arrived = reader.partialMessageBuffer ++ chunk)
    (more : chunk ≠ [])
    (short : ¬ HasMessage arrived ∨
      reader.partialMessageBuffer = [] ∧ chunk.length ≤ 3) :
    ∃ count, reader.partialMessageBuffer.length < count ∧
      count ≤ arrived.length ∧
      (reader.partialMessageBuffer ≠ [] ∨ arrived.length ≤ kBufferSizeInit →
        count = arrived.length) ∧
      nextMessage (.ofChunk chunk) reader =
        (.ok (none, .ofChunk (arrived.drop count)),
          reader.buffered (arrived.take count)) := by
  have positive := List.length_pos_iff.mpr more
  have arrivedLength : arrived.length =
      reader.partialMessageBuffer.length + chunk.length := by
    rw [arrivedEq, List.length_append]
  by_cases held : reader.partialMessageBuffer = []
  · have arrivedChunk : arrived = chunk := by rw [arrivedEq, held]; rfl
    subst arrivedChunk
    have roomy := safe.roomy
    simp only [kBufferSizeInit] at roomy
    refine ⟨min arrived.length reader.partialMessageBufferLengthCapacity, ?_,
      Nat.min_le_left _ _, ?_, ?_⟩
    · simp only [held, List.length_nil]
      omega
    · rintro (nonempty | few)
      · exact absurd held nonempty
      · simp only [kBufferSizeInit] at few
        omega
    · rw [nextMessage_direct held,
        directMessage_short (short.imp id fun few => few.2),
        stash_ofChunk safe held rfl]
  · have incomplete : ¬ HasMessage arrived :=
      short.resolve_right fun empty => held empty.1
    refine ⟨arrived.length, by omega, Nat.le_refl _, fun _ => rfl, ?_⟩
    rw [nextMessage_buffered held,
      bufferedMessage_ofChunk safe normal arrivedEq rfl, if_neg incomplete]
    unfold HasMessage at incomplete
    rw [List.take_of_length_le (by omega), List.take_length,
      List.drop_of_length_le (by omega), List.drop_length]

end NextMessage

/-! ## The treatment of a message -/

section HandleMessage

variable {handler : DataHandlerInterface σ} {reader reached : Reader σ}
  {message : Bytes} {delivery : Delivery σ}

theorem onDelivery_apply (program : Exec Stop (Delivery σ) α)
    (reader : Reader σ) :
    onDelivery program reader =
      ((program reader.delivery).1,
        { reader with delivery := (program reader.delivery).2 }) := rfl

theorem onDelivery_eq {program : Exec Stop (Delivery σ) α}
    {outcome : Except Stop α}
    (ran : program reader.delivery = (outcome, delivery)) :
    onDelivery program reader = (outcome, { reader with delivery }) := by
  rw [onDelivery_apply, ran]

def Corrupt (message : Bytes) : Prop :=
  msgSize message = 0 ∨ msgType message = 0

instance (message : Bytes) : Decidable (Corrupt message) :=
  inferInstanceAs (Decidable (_ ∨ _))

theorem parseMessage_apply (sized : 3 ≤ message.length) :
    parseMessage handler message reader =
      (if Corrupt message then corruptionDetected handler
      else Exec.attempt (onDelivery (Delivery.deliver handler message))
        (onParsingException (corruptionDetected handler))) reader := by
  unfold parseMessage
  rw [readUInt16_msgSize (by omega), readUInt8_msgType sized,
    Exec.lift_ok_bind_apply, Exec.lift_ok_bind_apply]
  rfl

theorem parseMessage_corrupt (sized : 3 ≤ message.length)
    (corrupt : Corrupt message) :
    parseMessage handler message reader = corruptionDetected handler reader := by
  rw [parseMessage_apply sized, if_pos corrupt]

theorem parseMessage_delivered (sized : 3 ≤ message.length)
    (clean : ¬ Corrupt message)
    (delivered : Delivery.deliver handler message reader.delivery =
      (.ok (), delivery)) :
    parseMessage handler message reader =
      (.ok (), { reader with delivery }) := by
  rw [parseMessage_apply sized, if_neg clean,
    Exec.attempt_ok (onDelivery_eq delivered)]

theorem parseMessage_rejected {reason : Bytes} (sized : 3 ≤ message.length)
    (clean : ¬ Corrupt message)
    (rejected : Delivery.deliver handler message reader.delivery =
      (.error (.raised (.parsing reason)), delivery)) :
    parseMessage handler message reader =
      corruptionDetected handler { reader with delivery } := by
  rw [parseMessage_apply sized, if_neg clean]
  exact Exec.attempt_caught (onDelivery_eq rejected) rfl

theorem parseMessage_escaped {stop : Stop} (sized : 3 ≤ message.length)
    (clean : ¬ Corrupt message)
    (foreign : ∀ reason, stop ≠ .raised (.parsing reason))
    (escaped : Delivery.deliver handler message reader.delivery =
      (.error stop, delivery)) :
    parseMessage handler message reader =
      (.error stop, { reader with delivery }) := by
  rw [parseMessage_apply sized, if_neg clean]
  apply Exec.attempt_uncaught (onDelivery_eq escaped)
  unfold onParsingException
  split
  next reason => exact absurd rfl (foreign reason)
  next => rfl

theorem corruptionDetected_again (reported : reader.corruptionReported = true) :
    corruptionDetected handler reader =
      (.ok (), { reader with needRecovery := true }) := by
  unfold corruptionDetected
  rw [Exec.get_bind_apply, if_pos reported]
  rfl

def corruptionError : Callback :=
  .error (ascii "Message corruption detected") true

theorem corruptionDetected_first (silent : reader.corruptionReported = false)
    (accepted : Delivery.call handler corruptionError reader.delivery =
      (.ok (), delivery)) :
    corruptionDetected handler reader =
      (.ok (), { reader with
        delivery, corruptionReported := true, needRecovery := true }) := by
  unfold corruptionDetected
  rw [Exec.get_bind_apply, if_neg (by rw [silent]; decide)]
  exact Exec.bind_ok (onDelivery_eq accepted) _

theorem corruptionDetected_escaped {stop : Stop}
    (silent : reader.corruptionReported = false)
    (escaped : Delivery.call handler corruptionError reader.delivery =
      (.error stop, delivery)) :
    corruptionDetected handler reader =
      (.error stop, { reader with delivery }) := by
  unfold corruptionDetected
  rw [Exec.get_bind_apply, if_neg (by rw [silent]; decide)]
  exact Exec.bind_error (onDelivery_eq escaped) _

theorem corruptionDetected_stored (content : Bytes) (capacity : Nat) :
    corruptionDetected handler (reader.stored content capacity) =
      ((corruptionDetected handler reader).1,
        (corruptionDetected handler reader).2.stored content capacity) := by
  cases reported : reader.corruptionReported with
  | true =>
      have reported' :
        (reader.stored content capacity).corruptionReported = true := reported
      rw [corruptionDetected_again reported, corruptionDetected_again reported']
      rfl
  | false =>
      have reported' :
        (reader.stored content capacity).corruptionReported = false := reported
      rcases called : Delivery.call handler corruptionError reader.delivery with
        ⟨_ | _, _⟩
      · rw [corruptionDetected_escaped reported called,
          corruptionDetected_escaped reported' called]
        rfl
      · rw [corruptionDetected_first reported called,
          corruptionDetected_first reported' called]
        rfl

theorem parseMessage_stored (sized : 3 ≤ message.length) (content : Bytes)
    (capacity : Nat) :
    parseMessage handler message (reader.stored content capacity) =
      ((parseMessage handler message reader).1,
        (parseMessage handler message reader).2.stored content capacity) := by
  by_cases corrupt : Corrupt message
  · rw [parseMessage_corrupt sized corrupt, parseMessage_corrupt sized corrupt,
      corruptionDetected_stored]
  · rcases delivered : Delivery.deliver handler message reader.delivery with
      ⟨stop | _, reached⟩
    · have delivered' : Delivery.deliver handler message
        (reader.stored content capacity).delivery = _ := delivered
      by_cases parsing : ∃ reason, stop = .raised (.parsing reason)
      · obtain ⟨reason, rfl⟩ := parsing
        rw [parseMessage_rejected sized corrupt delivered,
          parseMessage_rejected sized corrupt delivered',
          ← corruptionDetected_stored]
        rfl
      · have foreign : ∀ reason, stop ≠ .raised (.parsing reason) :=
          fun reason same => parsing ⟨reason, same⟩
        rw [parseMessage_escaped sized corrupt foreign delivered,
          parseMessage_escaped sized corrupt foreign delivered']
        rfl
    · have delivered' : Delivery.deliver handler message
        (reader.stored content capacity).delivery = _ := delivered
      rw [parseMessage_delivered sized corrupt delivered,
        parseMessage_delivered sized corrupt delivered']
      rfl

theorem handleMessage_ok {fromBuffer : Bool} {left : Bytes}
    (whole : IsMessage message)
    (parsed : parseMessage handler message reader = (.ok (), reached))
    (content : reached.partialMessageBuffer =
      (if fromBuffer then message else []) ++ left) :
    handleMessage handler ⟨message, fromBuffer⟩ reader =
      (.ok (), { reached with partialMessageBuffer := left }) := by
  have sized := whole.header_le
  unfold handleMessage
  rw [Exec.bind_ok parsed]
  cases fromBuffer with
  | false =>
      simp only [Bool.false_eq_true, if_false, Exec.pure_apply]
      rw [show left = reached.partialMessageBuffer from content.symm]
  | true =>
      have length : ((msgSize message).toNat : Int) + ulogMsgHeaderLen =
          message.length := by
        rw [whole, ← toNat_msgSize]
        rfl
      simp only [if_true] at content ⊢
      rw [readUInt16_msgSize (by omega), Exec.lift_ok_bind_apply, length,
        discard_apply (by rw [content, List.length_append]; omega), content,
        List.drop_left]

theorem handleMessage_error {fromBuffer : Bool} {stop : Stop}
    (parsed : parseMessage handler message reader = (.error stop, reached)) :
    handleMessage handler ⟨message, fromBuffer⟩ reader =
      (.error stop, reached) := by
  unfold handleMessage
  exact Exec.bind_error parsed _

end HandleMessage

/-! ## The loop of `readChunk` -/

section ReadLoop

variable {handler : DataHandlerInterface σ} {reader : Reader σ}
  {chunk arrived : Bytes}

theorem step_readChunk_live {cursor : Cursor}
    (valid : reader.delivery.state ≠ .invalidData) :
    step handler (.readChunk, cursor) reader =
      (do
        let cursor ← skipMagic handler cursor
        let cursor ← skipFlagBits handler cursor
        return some (Point.readLoop, cursor)) reader := by
  simp only [step]
  rw [Exec.get_bind_apply, if_neg valid]

theorem step_readChunk_invalid {cursor : Cursor}
    (invalid : reader.delivery.state = .invalidData) :
    step handler (.readChunk, cursor) reader = (.ok none, reader) := by
  simp only [step]
  rw [Exec.get_bind_apply, if_pos invalid, Exec.pure_apply]

theorem step_recovers (recovering : reader.needRecovery = true)
    (cursor : Cursor) :
    step handler (.readLoop, cursor) reader =
      (.ok (some (.tryToRecover, cursor)), reader) := by
  simp only [step]
  rw [Exec.get_bind_apply, if_neg, if_pos recovering, Exec.pure_apply]
  rw [recovering]
  exact fun reads => Bool.false_ne_true reads.2.symm

theorem step_leaves {cursor : Cursor} (normal : reader.needRecovery = false)
    (nothing : ¬ cursor.length > 0) :
    step handler (.readLoop, cursor) reader = (.ok none, reader) := by
  have settled : ¬ reader.needRecovery = true := by
    rw [normal]
    exact Bool.false_ne_true
  simp only [step]
  rw [Exec.get_bind_apply, if_neg fun reads => nothing reads.1,
    if_neg settled, Exec.pure_apply]

theorem step_searched {cursor : Cursor} (nothing : ¬ cursor.length > 0) :
    step handler (.tryToRecover, cursor) reader = (.ok none, reader) := by
  simp only [step]
  rw [if_neg nothing, Exec.pure_apply]

theorem step_readLoop (normal : reader.needRecovery = false)
    (more : chunk ≠ []) :
    step handler (.readLoop, .ofChunk chunk) reader =
      (do
        let cursor ← readMessage handler (.ofChunk chunk)
        return some (Point.readLoop, cursor)) reader := by
  have positive := List.length_pos_iff.mpr more
  simp only [step]
  rw [Exec.get_bind_apply, if_pos ⟨by simpa using positive, normal⟩]

theorem readMessage_none {cursor rest : Cursor} {reached : Reader σ}
    (found : nextMessage cursor reader = (.ok (none, rest), reached)) :
    readMessage handler cursor reader = (.ok rest, reached) := by
  unfold readMessage
  rw [Exec.bind_ok found]
  rfl

theorem readMessage_some {cursor rest : Cursor} {reached : Reader σ}
    {ulogMessage : UlogMessage}
    (found : nextMessage cursor reader =
      (.ok (some ulogMessage, rest), reached)) :
    readMessage handler cursor reader =
      (do
        handleMessage handler ulogMessage
        return rest) reached := by
  unfold readMessage
  rw [Exec.bind_ok found]

theorem step_waiting (safe : reader.Safe)
    (normal : reader.needRecovery = false)
    (arrivedEq : arrived = reader.partialMessageBuffer ++ chunk)
    (more : chunk ≠ [])
    (short : ¬ HasMessage arrived ∨
      reader.partialMessageBuffer = [] ∧ chunk.length ≤ 3) :
    ∃ count, reader.partialMessageBuffer.length < count ∧
      count ≤ arrived.length ∧
      (reader.partialMessageBuffer ≠ [] ∨ arrived.length ≤ kBufferSizeInit →
        count = arrived.length) ∧
      step handler (.readLoop, .ofChunk chunk) reader =
        (.ok (some (.readLoop, .ofChunk (arrived.drop count))),
          reader.buffered (arrived.take count)) := by
  obtain ⟨count, grows, within, all, found⟩ :=
    nextMessage_waiting safe normal arrivedEq more short
  refine ⟨count, grows, within, all, ?_⟩
  rw [step_readLoop normal more, Exec.bind_ok (readMessage_none found),
    Exec.pure_apply]

theorem step_complete (safe : reader.Safe)
    (normal : reader.needRecovery = false)
    (arrivedEq : arrived = reader.partialMessageBuffer ++ chunk)
    (more : chunk ≠ []) (complete : HasMessage arrived)
    (long : reader.partialMessageBuffer ≠ [] ∨ 3 < chunk.length) :
    ∃ left rest content capacity,
      left ++ rest = arrived.drop (fullMessageLength arrived) ∧
      rest.length ≤ chunk.length ∧ (rest = [] → left = []) ∧
      left.length < capacity ∧ content.length ≤ capacity ∧
      reader.partialMessageBufferLengthCapacity ≤ capacity ∧
      (content = [] ∨
        content = arrived.take (fullMessageLength arrived) ++ left) ∧
      ∀ outcome reached,
        parseMessage handler (arrived.take (fullMessageLength arrived)) reader =
          (outcome, reached) →
        step handler (.readLoop, .ofChunk chunk) reader =
          match outcome with
          | .ok () => (.ok (some (.readLoop, .ofChunk rest)),
              reached.stored left capacity)
          | .error stop => (.error stop, reached.stored content capacity) := by
  obtain ⟨fromBuffer, left, rest, found, split, shorter, consumed, direct⟩ :=
    nextMessage_complete safe normal arrivedEq more complete long
  have whole := complete.isMessage
  have sized := whole.header_le
  generalize arrived.take (fullMessageLength arrived) = message at *
  have roomy := safe.roomy
  simp only [kBufferSizeInit] at roomy
  generalize contentEq : (if fromBuffer then message else []) ++ left = content
    at found
  refine ⟨left, rest, content,
    max reader.partialMessageBufferLengthCapacity content.length, split,
    shorter, consumed, ?_, Nat.le_max_right _ _, Nat.le_max_left _ _, ?_, ?_⟩
  · cases fromBuffer with
    | true =>
        rw [← contentEq]
        simp only [if_true, List.length_append]
        omega
    | false =>
        rw [direct rfl, List.length_nil]
        omega
  · cases fromBuffer with
    | true => exact .inr contentEq.symm
    | false => exact .inl (contentEq.symm.trans (direct rfl))
  · intro outcome reached parsed
    have parsed' : parseMessage handler message (reader.buffered content) =
        (outcome, reached.stored content
          (max reader.partialMessageBufferLengthCapacity content.length)) := by
      unfold buffered
      rw [parseMessage_stored sized, parsed]
    rw [step_readLoop normal more]
    cases outcome with
    | ok =>
        have handled := handleMessage_ok whole parsed' contentEq.symm
        have read := (readMessage_some found).trans (Exec.bind_ok handled _)
        rw [Exec.bind_ok read]
        rfl
    | error stop =>
        have handled := @handleMessage_error _ _ _ _ _ fromBuffer _ parsed'
        have read := (readMessage_some found).trans (Exec.bind_error handled _)
        rw [Exec.bind_error read]

end ReadLoop

/-! ## Recovery -/

section Recovery

variable {handler : DataHandlerInterface σ} {reader : Reader σ}
  {chunk : Bytes}

/-- The fields of a header that recovery takes for that of a message. -/
def sane (size : UInt16) (type : UInt8) : Bool :=
  size != 0 && type != 0 && size < 10000 && kKnownMessageTypes.contains type

def resumable (bytes : Bytes) : Bool :=
  decide (4 ≤ bytes.length) && sane (msgSize bytes) (msgType bytes)

theorem resumable_lookahead : Lookahead 4 resumable where
  positive := by decide
  needs holds := by
    simp only [resumable, Bool.and_eq_true, decide_eq_true_eq] at holds
    exact holds.1
  stable {list} more long := by
    have two : 2 < list.length := by omega
    have size : msgSize (list ++ more) = msgSize list := by
      simp only [msgSize, List.take_append_of_le_length (Nat.le_of_lt two)]
    have type : msgType (list ++ more) = msgType list := by
      simp only [msgType, List.getD_eq_getElem?_getD,
        List.getElem?_append_left two]
    simp only [resumable, size, type, List.length_append, long,
      Nat.le_add_right_of_le long]

theorem looksSane_eq {buffer : Bytes} {index : Nat}
    (within : index + 3 ≤ buffer.length) :
    looksSane buffer index =
      .ok (sane (msgSize (buffer.drop index))
        (msgType (buffer.drop index))) := by
  have size : readUInt16 buffer index =
      .ok (msgSize (buffer.drop index)) := readUInt16_ok (by omega)
  have type : readUInt8 buffer (index + 2) =
      .ok (msgType (buffer.drop index)) := by
    have read := @readUInt8_ok buffer (index + 2) (by omega)
    rw [msgType, List.getD_eq_getElem?_getD, List.getElem?_drop,
      List.getElem?_eq_getElem (by omega)]
    exact read
  unfold looksSane
  rw [size, type]
  rfl

/-- The search of `tryToRecover` finds the earliest resumable position. -/
theorem findMessage_eq {buffer : Bytes} {rounds index : Nat}
    (covers : index + rounds + 3 = buffer.length) :
    findMessage buffer rounds index =
      .ok (match firstFrom resumable (buffer.drop index) with
        | some found => (buffer.length - found.length, true)
        | none => (index + rounds, false)) := by
  induction rounds generalizing index with
  | zero =>
      have nothing : firstFrom resumable (buffer.drop index) = none :=
        firstFrom_eq_none fun skipped _ =>
          resumable_lookahead.short (by simp only [List.length_drop]; omega)
      rw [nothing]
      rfl
  | succ rounds ih =>
      have here : resumable (buffer.drop index) =
          sane (msgSize (buffer.drop index)) (msgType (buffer.drop index)) := by
        simp only [resumable, List.length_drop,
          decide_eq_true (show 4 ≤ buffer.length - index by omega),
          Bool.true_and]
      have position : buffer.drop index ≠ [] := by
        rw [ne_eq, List.drop_eq_nil_iff]
        omega
      unfold findMessage
      rw [looksSane_eq (by omega), ← here]
      cases test : resumable (buffer.drop index) with
      | true =>
          have back : buffer.length - (buffer.drop index).length = index := by
            rw [List.length_drop]
            omega
          rw [firstFrom_head position test]
          simp only [back]
          rfl
      | false =>
          have next : firstFrom resumable (buffer.drop index) =
              firstFrom resumable (buffer.drop (index + 1)) := by
            rw [List.drop_eq_getElem_cons (by omega)] at test ⊢
            exact firstFrom_tail test
          rw [next, show index + (rounds + 1) = index + 1 + rounds by omega]
          exact ih (by omega)

/-- One round of recovery takes in at least one byte, so that the provision of
the code for a full buffer is not needed. It ends at the earliest resumable
position, or keeps what may be the beginning of a header. -/
theorem recoverRound_ofChunk (safe : reader.Safe)
    (recovering : reader.needRecovery = true) (more : chunk ≠ []) :
    ∃ count, 0 < count ∧ count ≤ chunk.length ∧
      reader.partialMessageBuffer.length + count ≤
        reader.partialMessageBufferLengthCapacity ∧
      (reader.partialMessageBuffer.length + chunk.length ≤
        reader.partialMessageBufferLengthCapacity → count = chunk.length) ∧
      recoverRound (.ofChunk chunk) reader =
        match firstFrom resumable
          (reader.partialMessageBuffer ++ chunk.take count) with
        | some found => (.ok (.readChunk, .ofChunk (chunk.drop count)),
            { reader with
              partialMessageBuffer := found, needRecovery := false })
        | none => (.ok (.tryToRecover, .ofChunk (chunk.drop count)),
            { reader with
              partialMessageBuffer :=
                (reader.partialMessageBuffer ++ chunk.take count).drop
                  (reader.partialMessageBuffer.length + count - 3) }) := by
  have positive := List.length_pos_iff.mpr more
  have room := safe.recovering recovering
  generalize counted : min chunk.length
    (reader.partialMessageBufferLengthCapacity -
      reader.partialMessageBuffer.length) = count
  have append := appendToPartialBuffer_ofChunk safe counted.symm
  have notZero : (count : Int) ≠ 0 := by omega
  have contentLength :
      (reader.partialMessageBuffer ++ chunk.take count).length =
        reader.partialMessageBuffer.length + count := by
    rw [List.length_append, List.length_take]
    omega
  refine ⟨count, by omega, by omega, by omega, by omega, ?_⟩
  unfold recoverRound
  rw [Exec.bind_ok append]
  simp only [Cursor.advance_ofChunk (show count ≤ chunk.length by omega),
    Exec.get_bind_apply, if_neg notZero]
  generalize reader.partialMessageBuffer ++ chunk.take count = content
    at contentLength ⊢
  rw [← contentLength]
  by_cases few : content.length < 3
  · have tooFew : ¬ content.length ≥ ulogMsgHeaderLen := by
      simp only [ulogMsgHeaderLen]
      omega
    have nothing : firstFrom resumable content = none :=
      firstFrom_eq_none fun skipped _ =>
        resumable_lookahead.short (by simp only [List.length_drop]; omega)
    rw [if_neg tooFew, nothing, Nat.sub_eq_zero_of_le (by omega)]
    rfl
  · have enough : content.length ≥ ulogMsgHeaderLen := by
      simp only [ulogMsgHeaderLen]
      omega
    have search := @findMessage_eq content
      (content.length - ulogMsgHeaderLen - 0) 0 (by
        simp only [ulogMsgHeaderLen]
        omega)
    rw [List.drop_zero] at search
    rw [if_pos enough, search, Exec.lift_ok_bind_apply]
    cases scanned : firstFrom resumable content with
    | none =>
        have last : content.length - ulogMsgHeaderLen ≤ content.length :=
          Nat.sub_le _ _
        simp only [Nat.zero_add, Nat.sub_zero]
        rw [discardTo_apply last]
        rfl
    | some found =>
        obtain ⟨skipped, split⟩ := firstFrom_suffix scanned
        have index : content.length - found.length = skipped.length := by
          rw [← split, List.length_append]
          omega
        have rest : content.drop skipped.length = found := by
          rw [← split, List.drop_left]
        have before : skipped.length ≤ content.length := by
          rw [← index]
          exact Nat.sub_le _ _
        simp only [index]
        rw [discardTo_apply before]
        simp only [rest]
        rfl

theorem step_tryToRecover {handler : DataHandlerInterface σ}
    {next : Point × Cursor} {reached : Reader σ} (more : chunk ≠ [])
    (round : recoverRound (.ofChunk chunk) reader = (.ok next, reached)) :
    step handler (.tryToRecover, .ofChunk chunk) reader =
      (.ok (some next), reached) := by
  have positive := List.length_pos_iff.mpr more
  simp only [step]
  rw [if_pos (by simpa using positive), Exec.bind_ok round, Exec.pure_apply]

end Recovery

end UlogCpp.Reader
