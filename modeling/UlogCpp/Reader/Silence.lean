import UlogCpp.Data.Run
import UlogCpp.Reader.Skip

namespace UlogCpp

/-! What a reader calls after an error that is not recoverable. -/

/-- Nothing follows a fatal error. -/
def Silenced (calls : List Callback) : Prop :=
  ∀ before msg after, calls = before ++ .error msg false :: after → after = []

def NoFatal (calls : List Callback) : Prop := ∀ msg, .error msg false ∉ calls

section Calls

variable {calls more : List Callback} {callback : Callback}

theorem NoFatal.append (none : NoFatal calls)
    (later : ∀ msg, callback ≠ .error msg false) :
    NoFatal (calls ++ [callback]) := by
  intro msg mem
  rcases List.mem_append.mp mem with earlier | last
  · exact none msg earlier
  · exact later msg (List.mem_singleton.mp last).symm

theorem NoFatal.silenced (none : NoFatal calls) : Silenced calls := by
  intro before msg after split
  apply (none msg _).elim
  rw [split]
  exact List.mem_append_right _ List.mem_cons_self

theorem NoFatal.silenced_append (none : NoFatal calls) (msg : Bytes) :
    Silenced (calls ++ [.error msg false]) := by
  intro before msg' after split
  rcases List.eq_nil_or_concat after with rfl | ⟨middle, last, rfl⟩
  · rfl
  · rw [List.concat_eq_append, ← List.cons_append, ← List.append_assoc] at split
    apply (none msg' _).elim
    rw [(List.append_inj' split rfl).1]
    exact List.mem_append_right _ List.mem_cons_self

theorem not_silenced {before : List Callback} {msg : Bytes}
    (follows : before ++ [.error msg false] ++ [callback] <+: calls) :
    ¬ Silenced calls := by
  rintro silenced
  obtain ⟨rest, rfl⟩ := follows
  have nothing := silenced before msg (callback :: rest)
    (by simp only [List.append_assoc, List.cons_append, List.nil_append])
  cases nothing

theorem Silenced.of_prefix (silenced : Silenced more) (shorter : calls <+: more) :
    Silenced calls := by
  intro before msg after split
  obtain ⟨rest, rfl⟩ := shorter
  have nothing := silenced before msg (after ++ rest)
    (by rw [split, List.append_assoc, List.cons_append])
  exact (List.append_eq_nil_iff.mp nothing).1

end Calls

namespace Reader

variable {σ : Type} {handler : DataHandlerInterface σ}

/-! ## Giving up a log -/

def BadMagic (chunk : Bytes) : Prop :=
  chunk.length < UlogFileHeader.size ∨
    ∃ header, UlogFileHeader.read chunk = .ok header ∧
      header.magic.toList.take ulogFileMagicBytes.length ≠ ulogFileMagicBytes

def BadFlagBits (chunk : Bytes) : Prop :=
  chunk.length < UlogMessageFlagBits.size ∨
    ∃ flagBits, UlogMessageFlagBits.read chunk = .ok flagBits ∧
      flagBits.msgType = ULogMessageType.flagBits.code ∧
      hasIncompatFlags flagBits = true

inductive GivesUp : State → Bytes → Bytes → Prop
  | magic {chunk : Bytes} (bad : BadMagic chunk) : GivesUp .readMagic chunk chunk
  | flagBits {chunk : Bytes} (more : chunk ≠ []) (bad : BadFlagBits chunk) :
      GivesUp .readFlagBits chunk chunk
  | afterMagic {chunk left : Bytes} (good : ¬ BadMagic chunk)
      (later : GivesUp .readFlagBits (chunk.drop UlogFileHeader.size) left) :
      GivesUp .readMagic chunk left

inductive MeetsCorruption : Bytes → Prop
  | here {bytes : Bytes} (long : 3 < bytes.length) (complete : HasMessage bytes)
      (corrupt : Corrupt bytes) : MeetsCorruption bytes
  | later {bytes : Bytes} (long : 3 < bytes.length) (complete : HasMessage bytes)
      (rest : MeetsCorruption (bytes.drop (fullMessageLength bytes))) :
      MeetsCorruption bytes

/-- Where the log is given up the handler returns from the error, and no message
in what is left of the chunk is taken for corruption. -/
def Settles (handler : DataHandlerInterface σ) (reader : Reader σ)
    (chunk : Bytes) : Prop :=
  ∀ left, GivesUp reader.delivery.state chunk left →
    (∀ msg, handler.Accepts (.error msg false)) ∧ ¬ MeetsCorruption left

/-! ## The start of a log -/

structure Fresh (state : State) (reader : Reader σ) : Prop where
  state_eq : reader.delivery.state = state
  empty : reader.partialMessageBuffer = []
  normal : reader.needRecovery = false
  silent : reader.corruptionReported = false
  noFatal : NoFatal reader.delivery.calls

structure GaveUp (reader : Reader σ) : Prop where
  state_eq : reader.delivery.state = .invalidData
  empty : reader.partialMessageBuffer = []
  normal : reader.needRecovery = false
  silent : reader.corruptionReported = false
  last : ∃ before msg, reader.delivery.calls = before ++ [.error msg false] ∧
    NoFatal before

def Unbroken (delivery : Delivery σ) : Prop :=
  delivery.state.InLog ∧ NoFatal delivery.calls

section Start

variable {reader : Reader σ} {state : State} {chunk left : Bytes}
  {cursor : Cursor} {stopped : Stop → Reader σ → Prop}

theorem call_fresh {callback : Callback}
    (recoverable : ∀ msg, callback ≠ .error msg false) :
    Exec.Triple (Fresh state) (onDelivery (Delivery.call handler callback))
      (fun _ => Fresh state)
      (fun _ reader => Fresh state reader ∧ ¬ handler.Accepts callback) := by
  intro reader fresh
  have kept : Fresh state
      (onDelivery (Delivery.call handler callback) reader).2 :=
    ⟨fresh.state_eq, fresh.empty, fresh.normal, fresh.silent,
      fresh.noFatal.append recoverable⟩
  rcases called : Delivery.call handler callback reader.delivery with
    ⟨stop | _, delivery⟩
  · rw [onDelivery_eq called] at kept ⊢
    refine ⟨kept, fun accepts => ?_⟩
    have returned := @Delivery.call_accepted _ _ _ reader.delivery accepts
    rw [called] at returned
    cases returned
  · rw [onDelivery_eq called] at kept ⊢
    exact kept

theorem giveUp_gaveUp {msg : String} {value : α}
    (accepts : handler.Accepts (.error (ascii msg) false)) :
    Exec.Triple (Fresh state)
      (do
        error handler msg false
        setState .invalidData
        return value)
      (fun result reader => result = value ∧ GaveUp reader) stopped := by
  intro reader fresh
  have accepted := @Delivery.call_accepted _ _ _ reader.delivery accepts
  rcases called : Delivery.call handler (.error (ascii msg) false)
      reader.delivery with ⟨outcome, delivery⟩
  have calls : delivery.calls = reader.delivery.calls ++
      [.error (ascii msg) false] :=
    (congrArg (fun outcome => outcome.2.calls) called).symm
  rw [called] at accepted
  cases accepted
  rw [error, Exec.bind_ok (onDelivery_eq called)]
  exact ⟨rfl, rfl, fresh.empty, fresh.normal, fresh.silent, _, _, calls,
    fresh.noFatal⟩

def Thrown (handler : DataHandlerInterface σ) (_ : Stop) (reader : Reader σ) :
    Prop :=
  Fresh .readFlagBits reader ∧ ¬ ∀ callback, handler.Accepts callback

theorem call_thrown {callback : Callback}
    (recoverable : ∀ msg, callback ≠ .error msg false) :
    Exec.Triple (Fresh .readFlagBits)
      (onDelivery (Delivery.call handler callback))
      (fun _ => Fresh .readFlagBits) (Thrown handler) :=
  (call_fresh recoverable).consequence (fun _ => id) (fun _ _ => id)
    fun _ _ kept => ⟨kept.1, fun accepts => kept.2 (accepts callback)⟩

theorem readMagic_bad (bad : BadMagic chunk)
    (accepts : ∀ msg, handler.Accepts (.error msg false)) :
    Exec.Triple (Fresh state) (readMagic handler (.ofChunk chunk))
      (fun numRead reader => numRead = 0 ∧ GaveUp reader) stopped := by
  refine .ite (fun _ => giveUp_gaveUp (accepts _)) fun long => ?_
  rcases bad with short | ⟨header, read, wrong⟩
  · exact absurd (Int.ofNat_lt.mpr short) long
  · rw [Cursor.data_ofChunk, read, Exec.lift_ok_bind]
    exact .ite (fun _ => giveUp_gaveUp (accepts _)) fun right =>
      absurd wrong right

theorem readMagic_good (good : ¬ BadMagic chunk) :
    Exec.Triple (Fresh state) (readMagic handler (.ofChunk chunk))
      (fun numRead reader => numRead = UlogFileHeader.size ∧
        Fresh .readFlagBits reader) stopped := by
  obtain ⟨long, right⟩ := not_or.mp good
  obtain ⟨header, read⟩ := UlogFileHeader.read_ok (Nat.le_of_not_lt long)
  refine .ite (fun short => absurd (Int.ofNat_lt.mp short) long) fun _ => ?_
  rw [Cursor.data_ofChunk, read, Exec.lift_ok_bind]
  refine .ite (fun wrong => absurd ⟨header, read, wrong⟩ right) fun _ => ?_
  intro reader fresh
  exact ⟨rfl, rfl, fresh.empty, fresh.normal, fresh.silent, fresh.noFatal⟩

theorem reportAppendedOffsets_fresh (flagBits : UlogMessageFlagBits) :
    Exec.Triple (Fresh .readFlagBits) (reportAppendedOffsets handler flagBits)
      (fun _ => Fresh .readFlagBits) (Thrown handler) :=
  .ite (fun _ => call_thrown nofun) fun _ => .pure _ fun _ => id

theorem readFlagBits_bad (bad : BadFlagBits chunk)
    (accepts : ∀ msg, handler.Accepts (.error msg false)) :
    Exec.Triple (Fresh .readFlagBits) (readFlagBits handler (.ofChunk chunk))
      (fun numRead reader => numRead = 0 ∧ GaveUp reader) (Thrown handler) := by
  refine .ite (fun _ => giveUp_gaveUp (accepts _)) fun long => ?_
  rcases bad with short | ⟨flagBits, read, typed, incompatible⟩
  · exact absurd (Int.ofNat_lt.mpr short) long
  · rw [Cursor.data_ofChunk, read, Exec.lift_ok_bind]
    refine .ite (fun _ => ?_) fun other => absurd typed other
    refine .bind (reportAppendedOffsets_fresh flagBits) fun _ => ?_
    exact .ite (fun _ => giveUp_gaveUp (accepts _)) fun compatible =>
      absurd incompatible compatible

theorem enterHeader_unbroken (header : UlogFileHeader → FileHeader)
    (numRead : Int) :
    Exec.Triple (Fresh .readFlagBits)
      (do
        let reader ← Exec.get
        onDelivery
          (Delivery.call handler (.fileHeader (header reader.fileHeader)))
        setState .readHeader
        return numRead)
      (fun _ reader => Unbroken reader.delivery) (Thrown handler) := by
  refine .bind (.get fun _ fresh => fresh) fun reader => ?_
  refine .bind (call_thrown nofun) fun _ => ?_
  intro reader fresh
  exact ⟨.inl rfl, fresh.noFatal⟩

theorem readFlagBits_good (good : ¬ BadFlagBits chunk) :
    Exec.Triple (Fresh .readFlagBits) (readFlagBits handler (.ofChunk chunk))
      (fun _ reader => Unbroken reader.delivery) (Thrown handler) := by
  obtain ⟨long, right⟩ := not_or.mp good
  obtain ⟨flagBits, read, _⟩ :=
    UlogMessageFlagBits.read_ok (Nat.le_of_not_lt long)
  refine .ite (fun short => absurd (Int.ofNat_lt.mp short) long) fun _ => ?_
  rw [Cursor.data_ofChunk, read, Exec.lift_ok_bind]
  refine .ite (fun typed => ?_) fun _ => enterHeader_unbroken .ofHeader _
  refine .bind (reportAppendedOffsets_fresh flagBits) fun _ => ?_
  exact .ite
    (fun incompatible => absurd ⟨flagBits, read, typed, incompatible⟩ right)
    fun _ => enterHeader_unbroken (.ofFlagBits · flagBits) _

/-! ## The first step of a call -/

def GoesOn (cursor : Cursor) (reader : Reader σ) : Prop :=
  Unbroken reader.delivery ∨
    Fresh .readFlagBits reader ∧ ¬ cursor.length > 0

theorem advance_zero (chunk : Bytes) :
    (Cursor.ofChunk chunk).advance 0 = .ofChunk chunk :=
  Cursor.advance_ofChunk (Nat.zero_le _)

theorem skipFlagBits_givesUp (gives : GivesUp .readFlagBits chunk left)
    (accepts : ∀ msg, handler.Accepts (.error msg false)) :
    Exec.Triple (Fresh .readFlagBits) (skipFlagBits handler (.ofChunk chunk))
      (fun cursor reader => cursor = .ofChunk left ∧ GaveUp reader)
      (Thrown handler) := by
  cases gives with
  | flagBits more bad =>
      have positive : (Cursor.ofChunk chunk).length > 0 :=
        Int.ofNat_lt.mpr (List.length_pos_iff.mpr more)
      intro reader fresh
      rw [skipFlagBits, Exec.get_bind_apply, if_pos ⟨fresh.state_eq, positive⟩]
      refine Exec.Triple.bind (readFlagBits_bad bad accepts) (fun numRead => ?_)
        reader fresh
      rintro reached ⟨rfl, gaveUp⟩
      exact ⟨advance_zero chunk, gaveUp⟩

theorem skipFlagBits_goesOn (goes : ∀ left, ¬ GivesUp .readFlagBits chunk left) :
    Exec.Triple (Fresh .readFlagBits) (skipFlagBits handler (.ofChunk chunk))
      GoesOn (Thrown handler) := by
  intro reader fresh
  rw [skipFlagBits, Exec.get_bind_apply]
  by_cases more : chunk = []
  · rw [more, if_neg fun both => absurd both.2 (by decide)]
    exact .inr ⟨fresh, by decide⟩
  · have positive : (Cursor.ofChunk chunk).length > 0 :=
      Int.ofNat_lt.mpr (List.length_pos_iff.mpr more)
    rw [if_pos ⟨fresh.state_eq, positive⟩]
    refine Exec.Triple.bind
      (readFlagBits_good fun bad => goes chunk (.flagBits more bad))
      (fun _ => ?_) reader fresh
    exact fun _ unbroken => .inl unbroken

theorem skipMagic_bad (bad : BadMagic chunk)
    (accepts : ∀ msg, handler.Accepts (.error msg false)) :
    Exec.Triple (Fresh .readMagic) (skipMagic handler (.ofChunk chunk))
      (fun cursor reader => cursor = .ofChunk chunk ∧ GaveUp reader)
      (Thrown handler) := by
  intro reader fresh
  rw [skipMagic, Exec.get_bind_apply, if_pos fresh.state_eq]
  refine Exec.Triple.bind (readMagic_bad bad accepts) (fun _ => ?_) reader fresh
  rintro reached ⟨rfl, gaveUp⟩
  exact ⟨advance_zero chunk, gaveUp⟩

theorem skipMagic_good (good : ¬ BadMagic chunk) :
    Exec.Triple (Fresh .readMagic) (skipMagic handler (.ofChunk chunk))
      (fun cursor reader =>
        cursor = .ofChunk (chunk.drop UlogFileHeader.size) ∧
          Fresh .readFlagBits reader)
      (Thrown handler) := by
  have long := Nat.le_of_not_lt (not_or.mp good).1
  intro reader fresh
  rw [skipMagic, Exec.get_bind_apply, if_pos fresh.state_eq]
  refine Exec.Triple.bind (readMagic_good good) (fun _ => ?_) reader fresh
  rintro reached ⟨rfl, fresh⟩
  exact ⟨Cursor.advance_ofChunk long, fresh⟩

theorem skipMagic_skip (fresh : Fresh .readFlagBits reader) :
    skipMagic handler cursor reader = (.ok cursor, reader) := by
  rw [skipMagic, Exec.get_bind_apply, if_neg (by rw [fresh.state_eq]; nofun)]
  rfl

theorem skipFlagBits_skip (gaveUp : GaveUp reader) :
    skipFlagBits handler cursor reader = (.ok cursor, reader) := by
  rw [skipFlagBits, Exec.get_bind_apply,
    if_neg (by rw [gaveUp.state_eq]; exact fun both => nomatch both.1)]
  rfl

theorem step_givesUp (gives : GivesUp state chunk left)
    (accepts : ∀ msg, handler.Accepts (.error msg false)) :
    Exec.Triple (Fresh state) (step handler (.readChunk, .ofChunk chunk))
      (fun next reader =>
        next = some (.readLoop, .ofChunk left) ∧ GaveUp reader)
      (Thrown handler) := by
  intro reader fresh
  cases gives with
  | magic bad =>
      rw [step_readChunk_live (by rw [fresh.state_eq]; nofun)]
      refine Exec.Triple.bind (skipMagic_bad bad accepts) (fun cursor => ?_)
        reader fresh
      rintro reached ⟨rfl, gaveUp⟩
      rw [Exec.bind_ok (skipFlagBits_skip gaveUp)]
      exact ⟨rfl, gaveUp⟩
  | flagBits more bad =>
      rw [step_readChunk_live (by rw [fresh.state_eq]; nofun),
        Exec.bind_ok (skipMagic_skip fresh)]
      refine Exec.Triple.bind
        (skipFlagBits_givesUp (.flagBits more bad) accepts) (fun cursor => ?_)
        reader fresh
      rintro reached ⟨rfl, gaveUp⟩
      exact ⟨rfl, gaveUp⟩
  | afterMagic good later =>
      rw [step_readChunk_live (by rw [fresh.state_eq]; nofun)]
      refine Exec.Triple.bind (skipMagic_good good) (fun cursor => ?_) reader
        fresh
      rintro reached ⟨rfl, fresh⟩
      refine Exec.Triple.bind (skipFlagBits_givesUp later accepts)
        (fun cursor => ?_) reached fresh
      rintro reached ⟨rfl, gaveUp⟩
      exact ⟨rfl, gaveUp⟩

theorem step_goesOn (early : state = .readMagic ∨ state = .readFlagBits)
    (goes : ∀ left, ¬ GivesUp state chunk left) :
    Exec.Triple (Fresh state) (step handler (.readChunk, .ofChunk chunk))
      (fun next reader => ∃ cursor, next = some (.readLoop, cursor) ∧
        GoesOn cursor reader)
      (Thrown handler) := by
  intro reader fresh
  rcases early with rfl | rfl
  · rw [step_readChunk_live (by rw [fresh.state_eq]; nofun)]
    refine Exec.Triple.bind
      (skipMagic_good fun bad => goes chunk (.magic bad)) (fun cursor => ?_)
      reader fresh
    rintro reached ⟨rfl, fresh⟩
    refine Exec.Triple.bind (skipFlagBits_goesOn fun left gives =>
        goes left (.afterMagic (fun bad => goes chunk (.magic bad)) gives))
      (fun cursor => ?_) reached fresh
    exact fun _ goesOn => ⟨cursor, rfl, goesOn⟩
  · rw [step_readChunk_live (by rw [fresh.state_eq]; nofun),
      Exec.bind_ok (skipMagic_skip fresh)]
    refine Exec.Triple.bind (skipFlagBits_goesOn goes) (fun cursor => ?_) reader
      fresh
    exact fun _ goesOn => ⟨cursor, rfl, goesOn⟩

end Start

/-! ## The rest of the chunk -/

section Rest

variable {reader reached : Reader σ} {chunk : Bytes}

theorem Safe.loops (safe : reader.Safe) :
    Ready (.readLoop, .ofChunk chunk) reader :=
  readLoop_ready safe (Cursor.ofChunk_valid chunk)

theorem step_direct (normal : reader.needRecovery = false)
    (empty : reader.partialMessageBuffer = []) (long : 3 < chunk.length)
    (complete : HasMessage chunk)
    (parsed : parseMessage handler (chunk.take (fullMessageLength chunk)) reader =
      (.ok (), reached)) :
    step handler (.readLoop, .ofChunk chunk) reader =
      (.ok (some (.readLoop, .ofChunk (chunk.drop (fullMessageLength chunk)))),
        reached) := by
  have found := (nextMessage_direct empty (.ofChunk chunk)).trans
    (directMessage_complete complete long)
  have handled := @handleMessage_ok _ handler reader reached _ false
    reached.partialMessageBuffer complete.isMessage parsed rfl
  rw [step_readLoop normal (List.ne_nil_of_length_pos (by omega)),
    Exec.bind_ok ((readMessage_some found).trans (Exec.bind_ok handled _))]
  rfl

theorem corrupt_take (bytes : Bytes) :
    Corrupt (bytes.take (fullMessageLength bytes)) ↔ Corrupt bytes := by
  have long := header_le_fullMessageLength bytes
  have size : msgSize (bytes.take (fullMessageLength bytes)) = msgSize bytes := by
    rw [msgSize, List.take_take, Nat.min_eq_left (by omega)]
    rfl
  have type : msgType (bytes.take (fullMessageLength bytes)) = msgType bytes := by
    rw [msgType, List.getD_eq_getElem?_getD, List.getElem?_take_of_lt (by omega),
      ← List.getD_eq_getElem?_getD]
    rfl
  rw [Corrupt, size, type, Corrupt]

/-- A log that has been given up is parsed, but not delivered. -/
theorem parseMessage_invalid {message : Bytes} (sized : 3 ≤ message.length)
    (invalid : reader.delivery.state = .invalidData)
    (clean : ¬ Corrupt message) :
    parseMessage handler message reader = (.ok (), reader) := by
  apply parseMessage_delivered sized clean
  exact Delivery.deliver_elsewhere (by rw [invalid]; nofun)
    (by rw [invalid]; nofun)

theorem step_invalid (normal : reader.needRecovery = false)
    (empty : reader.partialMessageBuffer = []) (long : 3 < chunk.length)
    (complete : HasMessage chunk)
    (invalid : reader.delivery.state = .invalidData) (clean : ¬ Corrupt chunk) :
    step handler (.readLoop, .ofChunk chunk) reader =
      (.ok (some (.readLoop, .ofChunk (chunk.drop (fullMessageLength chunk)))),
        reader) :=
  step_direct normal empty long complete
    (parseMessage_invalid complete.isMessage.header_le invalid
      ((corrupt_take chunk).not.mpr clean))

theorem readLoop_quiet (safe : reader.Safe)
    (normal : reader.needRecovery = false)
    (empty : reader.partialMessageBuffer = [])
    (invalid : reader.delivery.state = .invalidData)
    (quiet : ¬ MeetsCorruption chunk) :
    (readLoop handler chunk reader).2.delivery = reader.delivery := by
  generalize bound : chunk.length = length
  induction length using Nat.strongRecOn generalizing chunk with
  | ind length ih =>
      by_cases found : HasMessage chunk ∧ 3 < chunk.length
      · obtain ⟨complete, long⟩ := found
        have stepped := @step_invalid _ handler _ _ normal empty long complete
          invalid fun corrupt => quiet (.here long complete corrupt)
        have next : readLoop handler chunk reader =
            readLoop handler (chunk.drop (fullMessageLength chunk)) reader :=
          step_variant.runLoop_next safe.loops stepped
        have header := header_le_fullMessageLength chunk
        rw [next]
        refine ih _ ?_ (fun meets => quiet (.later long complete meets)) rfl
        rw [List.length_drop]
        omega
      · have short : ¬ HasMessage chunk ∨
            reader.partialMessageBuffer = [] ∧ chunk.length ≤ 3 :=
          (not_and_or.mp found).imp id fun few => ⟨empty, Nat.le_of_not_lt few⟩
        rw [readLoop_buffered safe normal (by rw [empty]; rfl) short]
        rfl

theorem grown_invariant (calls : List Callback) :
    DeliveryInvariant handler fun delivery => calls <+: delivery.calls where
  error _ _ _ grown _ := grown.trans (List.prefix_append _ _)
  deliver message delivery grown := by
    obtain ⟨added, made, _⟩ :=
      @Delivery.deliver_calls _ handler message delivery
    rw [made]
    exact grown.trans (List.prefix_append _ _)
  magic _ grown _ := grown
  invalid _ grown _ := grown
  fileHeader header delivery grown _ := by
    rcases called : Delivery.call handler (.fileHeader header) delivery with
      ⟨outcome, reached⟩
    have made : reached.calls = delivery.calls ++ [.fileHeader header] :=
      (congrArg (fun outcome => outcome.2.calls) called).symm
    have later : calls <+: reached.calls := by
      rw [made]
      exact grown.trans (List.prefix_append _ _)
    cases outcome <;> exact later

/-- The first message that is taken for corruption is reported. -/
theorem readLoop_corrupted (safe : reader.Safe) (gaveUp : GaveUp reader)
    (accepts : handler.Accepts corruptionError)
    (meets : MeetsCorruption chunk) :
    reader.delivery.calls ++ [corruptionError] <+:
      (readLoop handler chunk reader).2.delivery.calls := by
  obtain ⟨invalid, empty, normal, silent, _⟩ := gaveUp
  have reports : ∀ {chunk : Bytes}, 3 < chunk.length → HasMessage chunk →
      Corrupt chunk → reader.delivery.calls ++ [corruptionError] <+:
        (readLoop handler chunk reader).2.delivery.calls := by
    intro chunk long complete corrupt
    have accepted := @Delivery.call_accepted _ _ _ reader.delivery accepts
    rcases called : Delivery.call handler corruptionError reader.delivery with
      ⟨outcome, delivery⟩
    have made : delivery.calls = reader.delivery.calls ++ [corruptionError] :=
      (congrArg (fun outcome => outcome.2.calls) called).symm
    rw [called] at accepted
    cases accepted
    have parsed := (parseMessage_corrupt complete.isMessage.header_le
      ((corrupt_take chunk).mpr corrupt)).trans
        (corruptionDetected_first silent called)
    have next : readLoop handler chunk reader =
        readLoop handler (chunk.drop (fullMessageLength chunk)) _ :=
      step_variant.runLoop_next safe.loops
        (step_direct normal empty long complete parsed)
    rw [next]
    apply ((grown_invariant _).runLoop _).outcome
    exact made ▸ List.prefix_refl _
  induction meets with
  | here long complete corrupt => exact reports long complete corrupt
  | @later chunk long complete _ ih =>
      by_cases corrupt : Corrupt chunk
      · exact reports long complete corrupt
      · have next : readLoop handler chunk reader =
            readLoop handler (chunk.drop (fullMessageLength chunk)) reader :=
          step_variant.runLoop_next safe.loops
            (step_invalid normal empty long complete invalid corrupt)
        rw [next]
        exact ih

end Rest

/-! ## Calls -/

section Runs

variable {reader : Reader σ} {chunk : Bytes} {chunks : List Bytes}

inductive Intact (reader : Reader σ) : Prop
  | early {state : State} (state_eq : state = .readMagic ∨ state = .readFlagBits)
      (fresh : Fresh state reader)
  | unbroken (unbroken : Unbroken reader.delivery)
  | silenced (invalid : reader.delivery.state = .invalidData)
      (silenced : Silenced reader.delivery.calls)

theorem Intact.calls (intact : Intact reader) :
    Silenced reader.delivery.calls := by
  cases intact with
  | early _ fresh => exact fresh.noFatal.silenced
  | unbroken unbroken => exact unbroken.2.silenced
  | silenced _ silenced => exact silenced

theorem GaveUp.silenced (gaveUp : GaveUp reader) :
    Silenced reader.delivery.calls := by
  obtain ⟨before, msg, calls, none⟩ := gaveUp.last
  rw [calls]
  exact none.silenced_append msg

theorem unbroken_invariant : DeliveryInvariant handler Unbroken where
  error msg isRecoverable delivery unbroken early := by
    obtain ⟨inLog, none⟩ := unbroken
    have recoverable : isRecoverable = true := by
      refine early.resolve_right fun early => ?_
      rcases inLog with state | state <;>
        rcases early with early | early <;> rw [early] at state <;> cases state
    rw [recoverable]
    exact ⟨inLog, none.append nofun⟩
  deliver message delivery unbroken := by
    obtain ⟨added, calls, kinds⟩ :=
      @Delivery.deliver_calls _ handler message delivery
    refine ⟨Delivery.deliver_inLog unbroken.1, fun msg mem => ?_⟩
    rw [calls] at mem
    rcases List.mem_append.mp mem with earlier | added
    · exact unbroken.2 msg earlier
    · exact (kinds _ added).1 rfl
  magic delivery unbroken state := by
    rcases unbroken.1 with same | same <;> rw [state] at same <;> cases same
  invalid delivery unbroken state := by
    rcases unbroken.1 with same | same <;>
      rcases state with state | state <;> rw [state] at same <;> cases same
  fileHeader header delivery unbroken state := by
    rcases unbroken.1 with same | same <;> rw [state] at same <;> cases same

theorem readChunk_invalid (invalid : reader.delivery.state = .invalidData)
    (cursor : Cursor) :
    readChunk handler cursor reader = (.ok (), reader) :=
  Exec.runLoop_done (step_readChunk_invalid invalid)

theorem readChunk_stepped {next : Point × Cursor} {reached : Reader σ}
    (safe : reader.Safe)
    (stepped : step handler (.readChunk, .ofChunk chunk) reader =
      (.ok (some next), reached)) :
    readChunk handler (.ofChunk chunk) reader =
        Exec.runLoop .outOfFuel (step handler) work next reached ∧
      reached.Safe := by
  have ready := readChunk_ready safe (Cursor.ofChunk_valid chunk)
  exact ⟨step_variant.runLoop_next ready stepped,
    (step_variant.keeps ready stepped).safe⟩

theorem Thrown.intact {stop : Stop} (thrown : Thrown handler stop reader) :
    Intact reader :=
  .early (.inr rfl) thrown.1

theorem Settles.intact (settles : Settles handler reader chunk)
    (safe : reader.Safe) (intact : Intact reader) :
    Intact (readChunk handler (.ofChunk chunk) reader).2 := by
  cases intact with
  | @early state early fresh =>
      rw [Settles, fresh.state_eq] at settles
      by_cases gives : ∃ left, GivesUp state chunk left
      · obtain ⟨left, gives⟩ := gives
        obtain ⟨accepts, quiet⟩ := settles left gives
        have stepped := @step_givesUp _ handler _ _ _ gives accepts reader fresh
        rcases ran : step handler (.readChunk, .ofChunk chunk) reader with
          ⟨stop | next, reached⟩
        · rw [ran] at stepped
          rw [readChunk, Exec.runLoop_stop ran]
          exact stepped.intact
        · rw [ran] at stepped
          obtain ⟨rfl, gaveUp⟩ := stepped
          obtain ⟨same, safe'⟩ := readChunk_stepped safe ran
          have kept := @readLoop_quiet _ handler _ _ safe' gaveUp.normal
            gaveUp.empty gaveUp.state_eq quiet
          rw [readLoop, ← same] at kept
          apply Intact.silenced
          · rw [kept]
            exact gaveUp.state_eq
          · rw [kept]
            exact gaveUp.silenced
      · have stepped := @step_goesOn _ handler _ _ early (not_exists.mp gives)
          reader fresh
        rcases ran : step handler (.readChunk, .ofChunk chunk) reader with
          ⟨stop | next, reached⟩
        · rw [ran] at stepped
          rw [readChunk, Exec.runLoop_stop ran]
          exact stepped.intact
        · rw [ran] at stepped
          obtain ⟨cursor, rfl, unbroken | ⟨fresh, idle⟩⟩ := stepped
          · rw [(readChunk_stepped safe ran).1]
            exact .unbroken ((unbroken_invariant.runLoop _).outcome unbroken)
          · rw [(readChunk_stepped safe ran).1,
              Exec.runLoop_done (step_leaves fresh.normal idle)]
            exact .early (.inr rfl) fresh
  | unbroken unbroken =>
      exact .unbroken ((unbroken_invariant.readChunk _).outcome unbroken)
  | silenced invalid silenced =>
      rw [readChunk_invalid invalid]
      exact .silenced invalid silenced

theorem not_settles (safe : reader.Safe) (intact : Intact reader)
    (accepts : ∀ callback, handler.Accepts callback)
    (unsettled : ¬ Settles handler reader chunk) :
    ¬ Silenced (readChunk handler (.ofChunk chunk) reader).2.delivery.calls := by
  obtain ⟨left, gives, meets⟩ : ∃ left,
      GivesUp reader.delivery.state chunk left ∧ MeetsCorruption left := by
    by_contra none
    refine unsettled fun left gives => ⟨fun msg => accepts _, fun meets => ?_⟩
    exact none ⟨left, gives, meets⟩
  cases intact with
  | @early state early fresh =>
      rw [fresh.state_eq] at gives
      have stepped := @step_givesUp _ handler _ _ _ gives
        (fun msg => accepts _) reader fresh
      rcases ran : step handler (.readChunk, .ofChunk chunk) reader with
        ⟨stop | next, reached⟩
      · rw [ran] at stepped
        exact absurd accepts stepped.2
      · rw [ran] at stepped
        obtain ⟨rfl, gaveUp⟩ := stepped
        obtain ⟨same, safe'⟩ := readChunk_stepped safe ran
        have reported := readLoop_corrupted safe' gaveUp (accepts _) meets
        obtain ⟨before, msg, calls, _⟩ := gaveUp.last
        rw [readLoop, ← same, calls] at reported
        exact not_silenced reported
  | unbroken unbroken =>
      rcases unbroken.1 with state | state <;> rw [state] at gives <;> cases gives
  | silenced invalid _ =>
      rw [invalid] at gives
      cases gives

/-- The state of a reader that has been given chunks, whatever the calls have
come to. -/
def given (handler : DataHandlerInterface σ) (chunks : List Bytes)
    (reader : Reader σ) : Reader σ :=
  Exec.final (fun chunk => readChunk handler (.ofChunk chunk)) chunks reader

theorem given_grown (calls : List Callback)
    (grown : calls <+: reader.delivery.calls) :
    calls <+: (given handler chunks reader).delivery.calls :=
  @Exec.final_invariant _ _ _ _ _
    (fun reader : Reader σ => calls <+: reader.delivery.calls) _
    (fun _ grown => ((grown_invariant calls).readChunk _).outcome grown) _ grown

theorem silenced_given_iff (safe : reader.Safe) (intact : Intact reader)
    (accepts : ∀ callback, handler.Accepts callback) :
    Silenced (given handler chunks reader).delivery.calls ↔
      Exec.Throughout (fun chunk => readChunk handler (.ofChunk chunk))
        (Settles handler) chunks reader := by
  induction chunks generalizing reader with
  | nil => exact iff_of_true intact.calls trivial
  | cons chunk chunks ih =>
      have safe' := (@readChunk_sound _ handler _ safe _
        (Cursor.ofChunk_valid chunk)).1
      constructor
      · intro silenced
        have settles : Settles handler reader chunk := by
          by_contra unsettled
          apply not_settles safe intact accepts unsettled
          exact silenced.of_prefix (@given_grown _ handler
            (readChunk handler (.ofChunk chunk) reader).2 chunks _
            (List.prefix_refl _))
        have intact' := settles.intact safe intact
        exact ⟨settles, (ih safe' intact').mp silenced⟩
      · rintro ⟨settles, later⟩
        exact (ih safe' (settles.intact safe intact)).mpr later

/-- After a fatal error the reader is silent, if it settles whenever it gives up
a log; for a handler that never throws it is silent only then. -/
theorem silenced_of_settles (handler : DataHandlerInterface σ) (start : σ)
    (chunks : List Bytes) :
    (Exec.Throughout (fun chunk => readChunk handler (.ofChunk chunk))
        (Settles handler) chunks (init start) →
      Silenced (given handler chunks (init start)).delivery.calls) ∧
    ((∀ callback, handler.Accepts callback) →
      Silenced (given handler chunks (init start)).delivery.calls →
      Exec.Throughout (fun chunk => readChunk handler (.ofChunk chunk))
        (Settles handler) chunks (init start)) := by
  have safe := init_safe start
  have intact : Intact (init start) :=
    .early (.inl rfl) ⟨rfl, rfl, rfl, rfl, nofun⟩
  constructor
  · intro throughout
    have kept := @Exec.Throughout.final _ _ _ _ _
      (fun reader : Reader σ => reader.Safe ∧ Intact reader) _ _
      (fun {reader chunk} _ kept settles =>
        ⟨(@readChunk_sound _ handler _ kept.1 _ (Cursor.ofChunk_valid chunk)).1,
          settles.intact kept.1 kept.2⟩) _ ⟨safe, intact⟩ throughout
    exact kept.2.calls
  · intro accepts silenced
    exact (silenced_given_iff safe intact accepts).mp silenced

/-- Four zeros are too few for a file header, and they begin with a message that
is taken for corruption. -/
theorem zeros_not_silenced :
    ¬ Silenced (given DataHandlerInterface.base [[0, 0, 0, 0]]
      (init ())).delivery.calls := by
  apply @not_silenced _ corruptionError []
    (ascii "Not enough data to read file magic")
  decide +kernel

end Runs

end Reader

end UlogCpp
