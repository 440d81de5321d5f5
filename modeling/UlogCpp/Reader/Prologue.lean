import UlogCpp.Reader.Stream

namespace UlogCpp

namespace Reader

/-- The warning about appended data. -/
def appendedOffsetsError : Callback :=
  .error (ascii "File contains appended offsets - this is not supported") true

end Reader

namespace Delivery

variable {σ : Type} {handler : DataHandlerInterface σ}

theorem calls_forM {callbacks : List Callback} {delivery final : Delivery σ}
    (called : (callbacks.forM (call handler)) delivery = (.ok (), final)) :
    final.calls = delivery.calls ++ callbacks := by
  induction callbacks generalizing delivery with
  | nil =>
      cases called
      exact (List.append_nil _).symm
  | cons callback callbacks ih =>
      obtain ⟨_, reached, first, rest⟩ := Exec.bind_eq_ok.mp called
      have here : reached.calls = delivery.calls ++ [callback] :=
        (congrArg (fun outcome => outcome.2.calls) first).symm
      rw [ih rest, here, List.append_assoc]
      rfl

theorem forM_accepted (accepts : ∀ callback, handler.Accepts callback)
    (callbacks : List Callback) (delivery : Delivery σ) :
    ∃ final, (callbacks.forM (call handler)) delivery = (.ok (), final) := by
  induction callbacks generalizing delivery with
  | nil => exact ⟨delivery, rfl⟩
  | cons callback callbacks ih =>
      have called := @call_accepted _ _ _ delivery (accepts callback)
      rcases ran : call handler callback delivery with ⟨outcome, reached⟩
      rw [ran] at called
      cases called
      obtain ⟨final, rest⟩ := ih reached
      exact ⟨final, Exec.bind_eq_ok.mpr ⟨(), reached, ran, rest⟩⟩

end Delivery

structure Prologue where
  header : UlogFileHeader
  flagBits : Option UlogMessageFlagBits
  magic : header.magic.toList.take ulogFileMagicBytes.length =
    ulogFileMagicBytes
  msgType : ∀ bits ∈ flagBits, bits.msgType = ULogMessageType.flagBits.code
  msgSize : ∀ bits ∈ flagBits, bits.msgSize = 40
  compatible : ∀ bits ∈ flagBits, Reader.hasIncompatFlags bits = false

namespace Prologue

def ofTimestamp (timestamp : UInt64) : Prologue where
  header := (FileHeader.ofTimestamp timestamp false).header
  flagBits := some (FileHeader.ofTimestamp timestamp false).flagBits
  magic := rfl
  msgType _ present := by rw [← Option.some.inj present]; rfl
  msgSize _ present := by rw [← Option.some.inj present]; rfl
  compatible _ present := by
    rw [← Option.some.inj present]
    exact (by decide : Reader.hasIncompatFlags
      { UlogMessageFlagBits.zero with msgSize := 40 } = false)

def bare (timestamp : UInt64) : Prologue where
  header := (FileHeader.ofTimestamp timestamp false).header
  flagBits := none
  magic := rfl
  msgType := nofun
  msgSize := nofun
  compatible := nofun

def toBytes (prologue : Prologue) : Bytes :=
  prologue.header.toBytes ++
    match prologue.flagBits with
    | some bits => bits.toBytes
    | none => []

def fileHeader (prologue : Prologue) : FileHeader :=
  match prologue.flagBits with
  | some bits => .ofFlagBits prologue.header bits
  | none => .ofHeader prologue.header

def warnings (prologue : Prologue) : List Callback :=
  match prologue.flagBits with
  | some bits =>
      if bits.appendedOffsets.head ≠ 0 then [Reader.appendedOffsetsError]
      else []
  | none => []

def calls (prologue : Prologue) : List Callback :=
  prologue.warnings ++ [.fileHeader prologue.fileHeader]

variable {σ : Type} {handler : DataHandlerInterface σ}

def deliver (handler : DataHandlerInterface σ) (prologue : Prologue) :
    Exec Stop (Delivery σ) Unit := do
  Delivery.setState .readFlagBits
  prologue.warnings.forM (Delivery.call handler)
  Delivery.call handler (.fileHeader prologue.fileHeader)
  Delivery.setState .readHeader

theorem length_toBytes_le (prologue : Prologue) :
    prologue.toBytes.length ≤ 59 := by
  unfold toBytes
  cases prologue.flagBits <;>
    simp [UlogFileHeader.size, UlogMessageFlagBits.size]

end Prologue

namespace Prologue

variable {σ : Type} {handler : DataHandlerInterface σ}

theorem deliver_ok {prologue : Prologue} {delivery final : Delivery σ}
    (delivered : prologue.deliver handler delivery = (.ok (), final)) :
    final.state = .readHeader ∧ final.calls = delivery.calls ++ prologue.calls := by
  obtain ⟨_, _, flags, delivered⟩ := Exec.bind_eq_ok.mp delivered
  cases flags
  obtain ⟨_, warned, warns, delivered⟩ := Exec.bind_eq_ok.mp delivered
  obtain ⟨_, called, calls, entered⟩ := Exec.bind_eq_ok.mp delivered
  cases entered
  refine ⟨rfl, ?_⟩
  have last : called.calls = warned.calls ++ [.fileHeader prologue.fileHeader] :=
    (congrArg (fun outcome => outcome.2.calls) calls).symm
  have first := Delivery.calls_forM warns
  simp only [last, first, Prologue.calls, List.append_assoc]

theorem deliver_accepted (accepts : ∀ callback, handler.Accepts callback)
    (prologue : Prologue) (delivery : Delivery σ) :
    ∃ final, prologue.deliver handler delivery = (.ok (), final) := by
  obtain ⟨warned, warns⟩ := Delivery.forM_accepted accepts prologue.warnings
    { delivery with state := .readFlagBits }
  have called := @Delivery.call_accepted _ _ _ warned
    (accepts (.fileHeader prologue.fileHeader))
  rcases ran : Delivery.call handler (.fileHeader prologue.fileHeader) warned
    with ⟨outcome, reached⟩
  rw [ran] at called
  cases called
  exact ⟨_, Exec.bind_eq_ok.mpr ⟨(), _, rfl, Exec.bind_eq_ok.mpr
    ⟨(), warned, warns, Exec.bind_eq_ok.mpr ⟨(), reached, ran, rfl⟩⟩⟩⟩

end Prologue

namespace Reader

variable {σ : Type} {handler : DataHandlerInterface σ} {reader : Reader σ}

def afterMagic (reader : Reader σ) (header : UlogFileHeader) : Reader σ :=
  { reader with
    delivery := { reader.delivery with state := .readFlagBits }
    fileHeader := header }

theorem skipMagic_header {header : UlogFileHeader} (after : Bytes)
    (valid : header.magic.toList.take ulogFileMagicBytes.length =
      ulogFileMagicBytes)
    (magic : reader.delivery.state = .readMagic) :
    skipMagic handler (.ofChunk (header.toBytes ++ after)) reader =
      (.ok (.ofChunk after), reader.afterMagic header) := by
  have length := header.length_toBytes
  simp only [UlogFileHeader.size] at length
  have enough : ¬ (Cursor.ofChunk
      (header.toBytes ++ after)).length < UlogFileHeader.size := by
    simp only [Cursor.length_ofChunk, List.length_append, UlogFileHeader.size]
    omega
  have read : readMagic handler (.ofChunk (header.toBytes ++ after)) reader =
      (.ok ((16 : Nat) : Int), reader.afterMagic header) := by
    unfold readMagic
    rw [if_neg enough, Cursor.data_ofChunk,
      UlogFileHeader.read_append, Exec.lift_ok_bind,
      if_neg (by rw [valid]; exact fun differ => differ rfl)]
    rfl
  unfold skipMagic
  rw [Exec.get_bind_apply, if_pos magic, Exec.bind_ok read, Exec.pure_apply,
    Cursor.advance_ofChunk (by rw [List.length_append]; omega),
    List.drop_left' length]

variable {delivery : Delivery σ}

theorem enterHeader_apply {header : UlogFileHeader → FileHeader}
    (called : Delivery.call handler (.fileHeader (header reader.fileHeader))
      reader.delivery = (.ok (), delivery)) (numRead : Int) :
    (do
      let reader ← Exec.get
      onDelivery
        (Delivery.call handler (.fileHeader (header reader.fileHeader)))
      setState .readHeader
      return numRead) reader =
      (.ok numRead,
        { reader with delivery := { delivery with state := .readHeader } }) := by
  rw [Exec.get_bind_apply, Exec.bind_ok (onDelivery_eq called)]
  rfl

theorem readFlagBits_some {bits : UlogMessageFlagBits} {after : Bytes}
    {warned : Delivery σ}
    (typed : bits.msgType = ULogMessageType.flagBits.code)
    (compatible : hasIncompatFlags bits = false)
    (reports : reportAppendedOffsets handler bits reader =
      (.ok (), { reader with delivery := warned }))
    (called : Delivery.call handler
      (.fileHeader (.ofFlagBits reader.fileHeader bits)) warned =
        (.ok (), delivery)) :
    readFlagBits handler (.ofChunk (bits.toBytes ++ after)) reader =
      (.ok ((bits.msgSize.toNat + ulogMsgHeaderLen : Nat) : Int),
        { reader with delivery := { delivery with state := .readHeader } }) := by
  have length := bits.length_toBytes
  simp only [UlogMessageFlagBits.size] at length
  have enough : ¬ (Cursor.ofChunk (bits.toBytes ++ after)).length <
      UlogMessageFlagBits.size := by
    simp only [Cursor.length_ofChunk, List.length_append,
      UlogMessageFlagBits.size]
    omega
  have enters := @enterHeader_apply _ handler { reader with delivery := warned }
    _ (.ofFlagBits · bits) called (bits.msgSize.toNat + ulogMsgHeaderLen)
  unfold readFlagBits
  rw [if_neg enough, Cursor.data_ofChunk,
    UlogMessageFlagBits.read_append, Exec.lift_ok_bind, if_pos typed,
    Exec.bind_ok reports, if_neg (by rw [compatible]; exact Bool.false_ne_true)]
  exact enters

theorem readFlagBits_none {chunk : Bytes} (long : 43 ≤ chunk.length)
    (other : msgType chunk ≠ ULogMessageType.flagBits.code)
    (called : Delivery.call handler
      (.fileHeader (.ofHeader reader.fileHeader)) reader.delivery =
        (.ok (), delivery)) :
    readFlagBits handler (.ofChunk chunk) reader =
      (.ok ((0 : Nat) : Int),
        { reader with delivery := { delivery with state := .readHeader } }) := by
  obtain ⟨bits, read, typeRead⟩ := UlogMessageFlagBits.read_ok long
  rw [readUInt8_msgType (by omega)] at typeRead
  have untyped : bits.msgType ≠ ULogMessageType.flagBits.code := by
    rw [← Except.ok.inj typeRead]
    exact other
  have enough : ¬ (Cursor.ofChunk chunk).length < UlogMessageFlagBits.size := by
    simp only [Cursor.length_ofChunk, UlogMessageFlagBits.size]
    omega
  unfold readFlagBits
  rw [if_neg enough, Cursor.data_ofChunk, read,
    Exec.lift_ok_bind, if_neg untyped]
  exact enterHeader_apply called 0

theorem skipFlagBits_read {chunk : Bytes} {numRead : Int} {reached : Reader σ}
    (flags : reader.delivery.state = .readFlagBits) (more : chunk ≠ [])
    (read : readFlagBits handler (.ofChunk chunk) reader =
      (.ok numRead, reached)) :
    skipFlagBits handler (.ofChunk chunk) reader =
      (.ok ((Cursor.ofChunk chunk).advance numRead), reached) := by
  have positive := List.length_pos_iff.mpr more
  unfold skipFlagBits
  rw [Exec.get_bind_apply, if_pos ⟨flags, by
      simp only [Cursor.length_ofChunk]
      omega⟩,
    Exec.bind_ok read, Exec.pure_apply]

theorem reportAppendedOffsets_apply {prologue : Prologue}
    {bits : UlogMessageFlagBits} {warned : Delivery σ}
    (present : prologue.flagBits = some bits)
    (warns : (prologue.warnings.forM (Delivery.call handler)) reader.delivery =
      (.ok (), warned)) :
    reportAppendedOffsets handler bits reader =
      (.ok (), { reader with delivery := warned }) := by
  unfold Prologue.warnings at warns
  rw [present] at warns
  unfold reportAppendedOffsets
  by_cases appended : bits.appendedOffsets.head ≠ 0
  · simp only [if_pos appended] at warns
    obtain ⟨_, reached, called, same⟩ := Exec.bind_eq_ok.mp warns
    cases same
    rw [if_pos appended]
    exact onDelivery_eq called
  · simp only [if_neg appended] at warns
    cases warns
    rw [if_neg appended]
    rfl

theorem skipFlagBits_prologue {prologue : Prologue} {rest : Bytes}
    {warned called : Delivery σ}
    (sized : 59 ≤ prologue.toBytes.length + rest.length)
    (unambiguous : prologue.flagBits = none →
      msgType rest ≠ ULogMessageType.flagBits.code)
    (flags : reader.delivery.state = .readFlagBits)
    (header : reader.fileHeader = prologue.header)
    (warns : (prologue.warnings.forM (Delivery.call handler)) reader.delivery =
      (.ok (), warned))
    (calls : Delivery.call handler (.fileHeader prologue.fileHeader) warned =
      (.ok (), called)) :
    ∃ after, prologue.toBytes ++ rest = prologue.header.toBytes ++ after ∧
      skipFlagBits handler (.ofChunk after) reader =
        (.ok (.ofChunk rest), { reader with
          delivery := { called with state := .readHeader } }) := by
  cases present : prologue.flagBits with
  | some bits =>
      simp only [Prologue.fileHeader, present] at calls
      rw [← header] at calls
      refine ⟨bits.toBytes ++ rest, by simp [Prologue.toBytes, present], ?_⟩
      have reports :=
        @reportAppendedOffsets_apply _ handler reader _ _ _ present warns
      have read := @readFlagBits_some _ _ _ _ _ rest _
        (prologue.msgType bits present) (prologue.compatible bits present)
        reports calls
      have length := bits.length_toBytes
      simp only [UlogMessageFlagBits.size] at length
      rw [show bits.msgSize.toNat + ulogMsgHeaderLen = 43 by
        rw [prologue.msgSize bits present]; rfl] at read
      have skip := skipFlagBits_read flags
        (List.ne_nil_of_length_pos (by rw [List.length_append]; omega)) read
      rwa [Cursor.advance_ofChunk (by
          rw [List.length_append, length]
          exact Nat.le_add_right _ _), List.drop_left' length] at skip
  | none =>
      simp only [Prologue.warnings, present] at warns
      simp only [Prologue.fileHeader, present] at calls
      cases warns
      rw [← header] at calls
      have length : prologue.toBytes.length = 16 := by
        simp [Prologue.toBytes, present, UlogFileHeader.size]
      refine ⟨rest, by simp [Prologue.toBytes, present], ?_⟩
      have read := @readFlagBits_none _ handler reader called rest (by omega)
        (unambiguous present) calls
      have skip := skipFlagBits_read flags
        (List.ne_nil_of_length_pos (by omega)) read
      rwa [Cursor.advance_ofChunk (Nat.zero_le _), List.drop_zero] at skip

/-- The first chunk brings the prologue and the beginning of the messages. -/
theorem readChunk_prologue {prologue : Prologue} {rest : Bytes} {state : σ}
    (sized : 59 ≤ (prologue.toBytes ++ rest).length)
    (unambiguous : prologue.flagBits = none →
      msgType rest ≠ ULogMessageType.flagBits.code)
    (opened : prologue.deliver handler (init state).delivery =
      (.ok (), delivery)) :
    ∃ reached,
      readChunk handler (.ofChunk (prologue.toBytes ++ rest)) (init state) =
        readLoop handler rest reached ∧
      reached.Follows [] delivery false := by
  obtain ⟨_, _, flags, opened⟩ := Exec.bind_eq_ok.mp opened
  cases flags
  obtain ⟨_, warned, warns, opened⟩ := Exec.bind_eq_ok.mp opened
  obtain ⟨_, called, calls, entered⟩ := Exec.bind_eq_ok.mp opened
  cases entered
  rw [List.length_append] at sized
  obtain ⟨after, split, skipped⟩ := @skipFlagBits_prologue _ handler
    ((init state).afterMagic prologue.header) _ _ _ _ sized unambiguous rfl rfl
    warns calls
  have magic := @skipMagic_header _ handler (init state) prologue.header after
    prologue.magic rfl
  generalize readerEq : (init state).afterMagic prologue.header = reader
    at magic skipped
  have stepped : step handler
      (.readChunk, .ofChunk (prologue.toBytes ++ rest)) (init state) =
      (.ok (some (.readLoop, .ofChunk rest)),
        { reader with delivery := { called with state := .readHeader } }) := by
    rw [step_readChunk_live (init_live state), split, Exec.bind_ok magic,
      Exec.bind_ok skipped, Exec.pure_apply]
  refine ⟨_, step_variant.runLoop_next
    (readChunk_ready (init_safe state) (Cursor.ofChunk_valid _)) stepped, ?_⟩
  rw [← readerEq]
  exact ⟨.ofNormal (Nat.zero_le _) (Nat.le_refl _) rfl, rfl, .inl rfl, rfl, rfl,
    rfl⟩

/-- The first chunk only has to bring the prologue: after it the rest of that
chunk is read as a chunk of messages. -/
theorem readChunks_prologue {prologue : Prologue} {first more messages : Bytes}
    {state : σ} (sized : 59 ≤ first.length)
    (layout : first ++ more = prologue.toBytes ++ messages)
    (unambiguous : prologue.flagBits = none →
      msgType messages ≠ ULogMessageType.flagBits.code)
    (opened : prologue.deliver handler (init state).delivery =
      (.ok (), delivery)) :
    ∃ rest reached, rest ++ more = messages ∧
      reached.Follows [] delivery false ∧
      ∀ chunks, readChunks handler (first :: chunks) (init state) =
        readChunks handler (rest :: chunks) reached := by
  have bound := prologue.length_toBytes_le
  obtain ⟨rest, rfl⟩ := layout_prefix layout (Nat.le_trans bound sized)
  rw [List.append_assoc] at layout
  have after := List.append_cancel_left layout
  obtain ⟨reached, read, follows⟩ :=
    @readChunk_prologue _ handler _ prologue rest state sized (by
      intro absent
      have long : 43 ≤ rest.length := by
        have header : prologue.toBytes.length = 16 := by
          simp [Prologue.toBytes, absent, UlogFileHeader.size]
        rw [List.length_append] at sized
        omega
      have same : msgType rest = msgType messages := by
        simp only [msgType, List.getD_eq_getElem?_getD, ← after,
          List.getElem?_append_left (show 2 < rest.length by omega)]
      rw [same]
      exact unambiguous absent) opened
  refine ⟨rest, reached, after, follows, fun chunks => ?_⟩
  rw [← follows.readChunk] at read
  rw [readChunks_cons, readChunks_cons, Exec.bind_apply, Exec.bind_apply, read]

end Reader

end UlogCpp
