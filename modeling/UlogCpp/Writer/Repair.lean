import Mathlib.Data.List.Flatten
import UlogCpp.Messages.Rewriting
import UlogCpp.Reader.Front
import UlogCpp.Reader.Kept
import UlogCpp.Writer.Copy

namespace UlogCpp

/-! A writer as the handler of a reader, on any bytes. What the reader hands
over is written, and nothing is left of what is not a message. -/

namespace Callback

def message? : Callback → Option Message
  | messageInfo info => some (.messageInfo info .info)
  | parameter info => some (.messageInfo info .parameter)
  | messageFormat format => some (.messageFormat format)
  | parameterDefault default => some (.parameterDefault default)
  | addLoggedMessage message => some (.addLoggedMessage message)
  | logging logged => some (.logging logged)
  | data sample => some (.data sample)
  | dropout gap => some (.dropout gap)
  | sync mark => some (.sync mark)
  | headerComplete | error _ _ | fileHeader _ => none

def toBytes : Callback → Bytes
  | fileHeader header => (header.serialize []).2
  | callback => (callback.message?.map Message.toBytes).getD []

end Callback

def handedOver (calls : List Callback) : List Message :=
  calls.filterMap Callback.message?

theorem handedOver_append (calls more : List Callback) :
    handedOver (calls ++ more) = handedOver calls ++ handedOver more :=
  List.filterMap_append

namespace Delivery

/-! ## What is decoded -/

structure HandsOver (callback : Callback) (message : Message) : Prop where
  call : callback = message.callback
  object : callback.message? = some message
  rewritable : message.Rewritable

theorem dataCall_rewritable {bytes : Bytes} {type : Option ULogMessageType}
    {callback : Callback}
    (returned : dataCall bytes type = .ok (some callback)) :
    ∃ message, HandsOver callback message ∧ message.isData = true := by
  rcases type with _ | type
  · cases returned
  · cases type
    case info =>
      obtain ⟨info, constructed, same⟩ := decoded_eq_ok returned
      cases same
      refine ⟨_, ⟨?_, rfl, Message.messageInfo_rewritable _ _ (.inr (.inl rfl))
        _ constructed⟩, rfl⟩
      simp [Message.callback]
    case infoMultiple =>
      obtain ⟨info, constructed, same⟩ := decoded_eq_ok returned
      cases same
      refine ⟨_, ⟨?_, rfl, Message.messageInfo_rewritable _ _ (.inr (.inl rfl))
        _ constructed⟩, rfl⟩
      simp [Message.callback]
    case parameter =>
      obtain ⟨info, constructed, same⟩ := decoded_eq_ok returned
      cases same
      refine ⟨_, ⟨?_, rfl, Message.messageInfo_rewritable _ _ (.inr (.inr rfl))
        _ constructed⟩, rfl⟩
      have single := MessageInfo.ofMessage_isMulti _ _ _ constructed
      simp [Message.callback, single]
    case parameterDefault =>
      obtain ⟨parameter, constructed, same⟩ := decoded_eq_ok returned
      cases same
      exact ⟨_, ⟨rfl, rfl, Message.parameterDefault_rewritable _ _ constructed⟩,
        rfl⟩
    case addLoggedMsg =>
      obtain ⟨message, constructed, same⟩ := decoded_eq_ok returned
      cases same
      exact ⟨_, ⟨rfl, rfl, Message.addLoggedMessage_rewritable _ _ constructed⟩,
        rfl⟩
    case logging | loggingTagged =>
      obtain ⟨logged, constructed, same⟩ := decoded_eq_ok returned
      cases same
      exact ⟨_, ⟨rfl, rfl, Message.logging_rewritable _ _ _ constructed⟩, rfl⟩
    case data =>
      obtain ⟨sample, constructed, same⟩ := decoded_eq_ok returned
      cases same
      exact ⟨_, ⟨rfl, rfl, Message.data_rewritable _ _ constructed⟩, rfl⟩
    case dropout =>
      obtain ⟨gap, constructed, same⟩ := decoded_eq_ok returned
      cases same
      exact ⟨_, ⟨rfl, rfl, Message.dropout_rewritable gap⟩, rfl⟩
    case sync =>
      obtain ⟨mark, constructed, same⟩ := decoded_eq_ok returned
      cases same
      exact ⟨_, ⟨rfl, rfl, Message.sync_rewritable mark⟩, rfl⟩
    all_goals cases returned

theorem headerCall_rewritable {bytes : Bytes} {type : Option ULogMessageType}
    {callback : Callback} (ordinary : callback ≠ .headerComplete)
    (returned : headerCall bytes type = .ok (some callback)) :
    ∃ message, HandsOver callback message ∧ message.isDefinition = true := by
  have kind := (headerCall_kind returned).resolve_left ordinary
  have shared {type : ULogMessageType}
      (same : dataCall bytes (some type) = .ok (some callback)) :
      ∃ message, HandsOver callback message ∧ message.isDefinition = true := by
    obtain ⟨message, handsOver, _⟩ := dataCall_rewritable same
    refine ⟨message, handsOver, ?_⟩
    rw [handsOver.call] at kind
    cases message with
    | messageInfo | messageFormat | parameterDefault => rfl
    | addLoggedMessage | logging | data | dropout | sync =>
        rcases kind with kind | kind <;> cases kind
  rcases type with _ | type
  · cases returned
  · cases type
    case format =>
      obtain ⟨format, constructed, same⟩ := decoded_eq_ok returned
      cases same
      exact ⟨_, ⟨rfl, rfl, Message.messageFormat_rewritable _ _ constructed⟩, rfl⟩
    case info => exact @shared .info returned
    case infoMultiple => exact @shared .infoMultiple returned
    case parameter => exact @shared .parameter returned
    case parameterDefault => exact @shared .parameterDefault returned
    case addLoggedMsg | logging | loggingTagged =>
      cases returned
      exact absurd rfl ordinary
    all_goals cases returned

theorem decodeHeader_rewritable {bytes : Bytes} {callback : Callback}
    (ordinary : callback ≠ .headerComplete)
    (returned : decodeHeader bytes = .ok (some callback)) :
    ∃ message, HandsOver callback message ∧ message.isDefinition = true := by
  unfold decodeHeader at returned
  cases read : readUInt8 bytes 2 with
  | error stop =>
      rw [read] at returned
      cases returned
  | ok msgType =>
      rw [read, ok_bind] at returned
      exact headerCall_rewritable ordinary returned

theorem decodeData_rewritable {bytes : Bytes} {callback : Callback}
    (returned : decodeData bytes = .ok (some callback)) :
    ∃ message, HandsOver callback message ∧ message.isData = true := by
  unfold decodeData at returned
  cases read : readUInt8 bytes 2 with
  | error stop =>
      rw [read] at returned
      cases returned
  | ok msgType =>
      rw [read, ok_bind] at returned
      exact dataCall_rewritable returned

end Delivery

namespace Writer

/-! ## What is written -/

/-- What the text of a field leaves out makes no difference to a writer. -/
theorem call_normal (message : Message) (writer : Writer) :
    handler.call message.normal.callback writer =
      handler.call message.callback writer := by
  cases message with
  | messageInfo info type =>
      have serialized (type : ULogMessageType) :
          { info with field := info.field.normal }.serialize type =
            info.serialize type := by
        simp only [MessageInfo.serialize, Field.encode_normal]
      simp only [Message.normal, Message.callback]
      split
      · exact congrArg (emit · writer) (serialized .parameter)
      · exact congrArg (emit · writer) (serialized .info)
  | messageFormat format =>
      have serialized : { format with
          fields := format.fields.map Field.normal }.serialize =
          format.serialize := by
        simp only [MessageFormat.serialize, MessageFormat.formatStr_normal]
      have same := congrFun (congrArg emit serialized) writer
      change Handle.messageFormat _ writer = Handle.messageFormat _ writer
      unfold Handle.messageFormat
      rw [Exec.get_bind_apply, Exec.get_bind_apply]
      split
      · rfl
      · exact same
  | parameterDefault parameter =>
      have serialized : { parameter with
          field := parameter.field.normal }.serialize = parameter.serialize := by
        simp only [ParameterDefault.serialize, Field.encode_normal]
      exact congrArg (emit · writer) serialized
  | addLoggedMessage | logging | data | dropout | sync => rfl

theorem call_rewritable {writer : Writer} {message : Message}
    (rewritable : message.Rewritable) (takes : writer.Takes message) :
    handler.call message.callback writer =
      (.ok (), { writer with output := writer.output ++ message.toBytes }) := by
  rw [← call_normal, ← rewritable.toBytes_wire]
  apply @call_wire writer rewritable.wire
  have same := message.sameSection_normal
  unfold Takes at takes ⊢
  split
  next complete =>
    rw [if_pos complete] at takes
    exact same.data.trans takes
  next open' =>
    rw [if_neg open'] at takes
    exact same.definition.trans takes

structure Written (calls : List Callback) (writer : Writer) : Prop where
  ran : calls.forM handler.call { output := [] } = (.ok (), writer)
  output : writer.output = calls.flatMap Callback.toBytes
  handsOver : ∀ callback ∈ calls, ∀ message ∈ callback.message?,
    Delivery.HandsOver callback message

structure Silent (calls : List Callback) (writer : Writer) : Prop where
  written : Written calls writer
  quiet : ∀ callback ∈ calls, callback.kind = .error
  incomplete : writer.headerComplete = false

structure Opened (complete : Bool) (calls : List Callback) (writer : Writer) :
    Prop where
  written : Written calls writer
  opened : ∃ prologue : Prologue, calls.flatMap Callback.toBytes =
    prologue.toBytes ++ (handedOver calls).flatMap Message.toBytes
  headerComplete : writer.headerComplete = complete

def Copying (front : Reader.Front Writer) : Prop :=
  match front with
  | ⟨⟨.readMagic, writer, calls⟩, _, _⟩
  | ⟨⟨.invalidData, writer, calls⟩, _, _⟩ => Silent calls writer
  | ⟨⟨.readFlagBits, writer, calls⟩, _, fileHeader⟩ =>
      Silent calls writer ∧
        fileHeader.magic.toList.take ulogFileMagicBytes.length =
          ulogFileMagicBytes
  | ⟨⟨.readHeader, writer, calls⟩, _, _⟩ => Opened false calls writer
  | ⟨⟨.readData, writer, calls⟩, _, _⟩ => Opened true calls writer

section Calls

variable {calls : List Callback} {writer reached : Writer}
  {callback : Callback} {message : Message} {before finished : Bool}

theorem Written.call (written : Written calls writer)
    (returned : handler.call callback writer = (.ok (), reached))
    (bytes : reached.output = writer.output ++ callback.toBytes)
    (handsOver : ∀ message ∈ callback.message?,
      Delivery.HandsOver callback message) :
    Written (calls ++ [callback]) reached where
  ran := Exec.forM_append_eq_ok.mpr
    ⟨_, written.ran, Exec.forM_cons_eq_ok.mpr ⟨_, returned, rfl⟩⟩
  output := by
    rw [List.flatMap_append, List.flatMap_singleton, ← written.output]
    exact bytes
  handsOver other mem := by
    rcases List.mem_append.mp mem with earlier | here
    · exact written.handsOver other earlier
    · rw [List.mem_singleton.mp here]
      exact handsOver

theorem Written.shows (written : Written calls writer)
    (mem : message ∈ handedOver calls) :
    message.Rewritable ∧ message.callback.message? = some message := by
  obtain ⟨callback, mem, shows⟩ := List.mem_filterMap.mp mem
  have handsOver := written.handsOver callback mem message shows
  rw [handsOver.call] at shows
  exact ⟨handsOver.rewritable, shows⟩

theorem toBytes_message (shows : callback.message? = some message) :
    callback.toBytes = message.toBytes := by
  cases callback with
  | fileHeader => cases shows
  | _ => exact congrArg (fun found => (found.map Message.toBytes).getD []) shows

theorem Opened.add (opened : Opened before calls writer)
    (written : Written (calls ++ [callback]) reached)
    (bytes : callback.toBytes =
      (callback.message?.map Message.toBytes).getD [])
    (headerComplete : reached.headerComplete = finished) :
    Opened finished (calls ++ [callback]) reached := by
  obtain ⟨prologue, split⟩ := opened.opened
  refine ⟨written, ⟨prologue, ?_⟩, headerComplete⟩
  have last : (handedOver [callback]).flatMap Message.toBytes =
      callback.toBytes := by
    rw [bytes]
    simp only [handedOver, List.filterMap_cons, List.filterMap_nil]
    cases callback.message? with
    | none => rfl
    | some message => exact List.flatMap_singleton _ _
  rw [List.flatMap_append, List.flatMap_singleton, split, handedOver_append,
    List.flatMap_append, last, List.append_assoc]

theorem Written.error (written : Written calls writer) (msg : Bytes)
    (isRecoverable : Bool) :
    Written (calls ++ [.error msg isRecoverable]) writer :=
  written.call rfl (List.append_nil _).symm nofun

theorem Silent.error (silent : Silent calls writer) (msg : Bytes)
    (isRecoverable : Bool) :
    Silent (calls ++ [.error msg isRecoverable]) writer where
  written := silent.written.error msg isRecoverable
  quiet callback mem := by
    rcases List.mem_append.mp mem with earlier | here
    · exact silent.quiet callback earlier
    · rw [List.mem_singleton.mp here]
      rfl
  incomplete := silent.incomplete

theorem Silent.nothing (silent : Silent calls writer) :
    calls.flatMap Callback.toBytes = [] ∧ handedOver calls = [] := by
  have errors {callback : Callback} (mem : callback ∈ calls) :
      ∃ msg isRecoverable, callback = .error msg isRecoverable := by
    have kind := silent.quiet callback mem
    cases callback with
    | error msg isRecoverable => exact ⟨msg, isRecoverable, rfl⟩
    | headerComplete | fileHeader | messageInfo | messageFormat | parameter
    | parameterDefault | addLoggedMessage | logging | data | dropout | sync =>
        cases kind
  constructor
  · refine List.flatMap_eq_nil_iff.mpr fun callback mem => ?_
    obtain ⟨msg, isRecoverable, rfl⟩ := errors mem
    rfl
  · refine List.filterMap_eq_nil_iff.mpr fun callback mem => ?_
    obtain ⟨msg, isRecoverable, rfl⟩ := errors mem
    rfl

theorem Opened.error (opened : Opened finished calls writer) (msg : Bytes)
    (isRecoverable : Bool) :
    Opened finished (calls ++ [.error msg isRecoverable]) writer :=
  opened.add (opened.written.error msg isRecoverable) rfl opened.headerComplete

theorem Opened.call (opened : Opened finished calls writer)
    (handsOver : Delivery.HandsOver callback message)
    (takes : writer.Takes message) :
    ∃ reached, handler.call callback writer = (.ok (), reached) ∧
      Opened finished (calls ++ [callback]) reached := by
  have returned := call_rewritable handsOver.rewritable takes
  rw [← handsOver.call] at returned
  have bytes := toBytes_message handsOver.object
  refine ⟨_, returned, opened.add ?_ ?_ opened.headerComplete⟩
  · refine opened.written.call returned ?_ ?_
    · rw [bytes]
    · intro other same
      rw [handsOver.object] at same
      cases same
      exact handsOver
  · rw [bytes, handsOver.object]
    rfl

theorem Opened.complete (opened : Opened before calls writer) :
    Opened true (calls ++ [.headerComplete])
      { writer with headerComplete := true } :=
  opened.add (opened.written.call rfl (List.append_nil _).symm nofun) rfl rfl

end Calls

/-! ## Messages -/

section Messages

open Delivery (decodeHeader decodeData)

variable {calls : List Callback} {writer : Writer} {message : Bytes}
  {front : Reader.Front Writer}

theorem Copying.error (copying : Copying front) (msg : Bytes)
    (isRecoverable reported : Bool) :
    Copying { front with
      delivery :=
        (Delivery.call handler (.error msg isRecoverable) front.delivery).2
      corruptionReported := reported } := by
  obtain ⟨⟨state, writer, calls⟩, _, fileHeader⟩ := front
  cases state with
  | readMagic | invalidData => exact Silent.error copying msg isRecoverable
  | readFlagBits => exact ⟨copying.1.error msg isRecoverable, copying.2⟩
  | readHeader | readData => exact Opened.error copying msg isRecoverable

theorem Copying.flag (copying : Copying front) (reported : Bool) :
    Copying { front with corruptionReported := reported } := by
  obtain ⟨⟨state, writer, calls⟩, _, fileHeader⟩ := front
  cases state <;> exact copying

theorem Opened.decodeData (opened : Opened true calls writer)
    (message : Bytes) (fileHeader : UlogFileHeader) (reported : Bool) :
    Copying ⟨((Exec.lift (decodeData message) >>= Delivery.react handler)
      ⟨.readData, writer, calls⟩).2, reported, fileHeader⟩ := by
  rcases decoded : Delivery.decodeData message with stop | _ | callback
  · exact opened
  · exact opened
  · obtain ⟨object, handsOver, data⟩ := Delivery.decodeData_rewritable decoded
    have takes : writer.Takes object := by
      rw [Takes, if_pos opened.headerComplete]
      exact data
    obtain ⟨reached, returned, added⟩ := opened.call handsOver takes
    have ordinary : callback ≠ .headerComplete := by
      rintro rfl
      cases handsOver.object
    rw [Exec.lift_ok_bind, Delivery.react_of_ne ordinary,
      @Delivery.call_ok _ handler ⟨.readData, writer, calls⟩ _ _ returned]
    exact added

theorem Opened.decodeHeader (opened : Opened false calls writer)
    (message : Bytes) (fileHeader : UlogFileHeader) (reported : Bool) :
    Copying ⟨(Delivery.deliver handler message
      ⟨.readHeader, writer, calls⟩).2, reported, fileHeader⟩ := by
  by_cases ends : Delivery.decodeHeader message = .ok (some .headerComplete)
  · rw [Delivery.deliver_complete rfl ends]
    have completed : Delivery.call handler .headerComplete
        ⟨.readData, writer, calls⟩ =
      (.ok (), ⟨.readData, { writer with headerComplete := true },
        calls ++ [.headerComplete]⟩) := rfl
    rw [Exec.bind_ok completed]
    exact opened.complete.decodeData message fileHeader reported
  · rw [(Delivery.deliver_ordinary rfl rfl ends).1]
    rcases decoded : Delivery.decodeHeader message with stop | _ | callback
    · exact opened
    · exact opened
    · rw [decoded] at ends
      have ordinary : callback ≠ .headerComplete := by
        rintro rfl
        exact ends rfl
      obtain ⟨object, handsOver, defines⟩ :=
        Delivery.decodeHeader_rewritable ordinary decoded
      have takes : writer.Takes object := by
        rw [Takes, if_neg (by rw [opened.headerComplete]; decide)]
        exact defines
      obtain ⟨reached, returned, added⟩ := opened.call handsOver takes
      rw [Exec.lift_ok_bind, Delivery.react_of_ne ordinary,
        @Delivery.call_ok _ handler ⟨.readHeader, writer, calls⟩ _ _ returned]
      exact added

theorem Copying.deliver (copying : Copying front) (message : Bytes) :
    Copying { front with
      delivery := (Delivery.deliver handler message front.delivery).2 } := by
  obtain ⟨⟨state, writer, calls⟩, reported, fileHeader⟩ := front
  cases state with
  | readMagic | readFlagBits | invalidData =>
      rw [Delivery.deliver_elsewhere State.noConfusion State.noConfusion]
      exact copying
  | readHeader => exact Opened.decodeHeader copying message fileHeader reported
  | readData =>
      rw [Delivery.deliver_readData rfl]
      exact Opened.decodeData copying message fileHeader reported

theorem Copying.corruptionDetected {reader : Reader Writer}
    (copying : Copying reader.front) :
    Copying (Reader.corruptionDetected handler reader).2.front := by
  cases silent : reader.corruptionReported with
  | true =>
      rw [Reader.corruptionDetected_again silent]
      exact copying
  | false =>
      have called : Delivery.call handler Reader.corruptionError
          reader.delivery = (.ok (), _) := rfl
      rw [Reader.corruptionDetected_first silent called]
      exact copying.error _ true true

theorem Copying.parseMessage {reader : Reader Writer}
    (copying : Copying reader.front) (sized : 3 ≤ message.length) :
    Copying (Reader.parseMessage handler message reader).2.front := by
  by_cases corrupt : Reader.Corrupt message
  · rw [Reader.parseMessage_corrupt sized corrupt]
    exact copying.corruptionDetected
  · have after := copying.deliver message
    rcases ran : Delivery.deliver handler message reader.delivery with
      ⟨stop | _, delivery⟩
    · rw [Reader.front, ran] at after
      by_cases parsing : ∃ reason, stop = .raised (.parsing reason)
      · obtain ⟨reason, rfl⟩ := parsing
        rw [Reader.parseMessage_rejected sized corrupt ran]
        exact Copying.corruptionDetected after
      · rw [Reader.parseMessage_escaped sized corrupt
          (fun reason same => parsing ⟨reason, same⟩) ran]
        exact after
    · rw [Reader.front, ran] at after
      rw [Reader.parseMessage_delivered sized corrupt ran]
      exact after

end Messages

/-! ## The start of a log -/

section Start

variable {state : State} {header : UlogFileHeader}

structure Quiet (state : State) (header : UlogFileHeader)
    (reader : Reader Writer) : Prop where
  state : reader.delivery.state = state
  fileHeader : reader.fileHeader = header
  silent : Silent reader.delivery.calls reader.delivery.handler

def Copies (_ : α) (reader : Reader Writer) : Prop := Copying reader.front

theorem quiet_lift (result : Except Stop α) (passes : ∀ reader,
    Quiet state header reader → Copying reader.front) :
    Exec.Triple (Quiet state header)
      (Exec.lift result : Exec Stop (Reader Writer) α)
      (fun _ => Quiet state header) Copies :=
  .lift (fun _ _ _ => id) fun _ _ reader quiet => passes reader quiet

theorem Quiet.copying_magic {reader : Reader Writer}
    (quiet : Quiet .readMagic header reader) : Copying reader.front := by
  obtain ⟨⟨state, writer, calls⟩⟩ := reader
  cases quiet.state
  exact quiet.silent

theorem Quiet.copying_flagBits {reader : Reader Writer}
    (magic : header.magic.toList.take ulogFileMagicBytes.length =
      ulogFileMagicBytes)
    (quiet : Quiet .readFlagBits header reader) : Copying reader.front := by
  obtain ⟨⟨state, writer, calls⟩⟩ := reader
  cases quiet.state
  cases quiet.fileHeader
  exact ⟨quiet.silent, magic⟩

theorem error_quiet (msg : String) (isRecoverable : Bool) :
    Exec.Triple (Quiet state header)
      (Reader.error handler msg isRecoverable)
      (fun _ => Quiet state header) Copies :=
  fun _ quiet => ⟨quiet.state, quiet.fileHeader, quiet.silent.error _ _⟩

theorem giveUp_copies (msg : String) (value : α) :
    Exec.Triple (Quiet state header)
      (do
        Reader.error handler msg false
        Reader.setState .invalidData
        return value) Copies Copies := by
  refine .bind (error_quiet msg false) fun _ reader quiet => ?_
  exact quiet.silent

theorem readMagic_copies (cursor : Cursor) :
    Exec.Triple (Quiet .readMagic header) (Reader.readMagic handler cursor)
      Copies Copies := by
  refine .ite (fun _ => giveUp_copies _ _) fun _ =>
    .bind (quiet_lift _ fun _ => Quiet.copying_magic) fun fileHeader =>
      .ite (fun _ => giveUp_copies _ _) fun magic => ?_
  exact fun reader quiet => ⟨quiet.silent, not_not.mp magic⟩

/-- What a file header is written as, whatever flag bits it was read with. -/
theorem serialize_apply (fileHeader : FileHeader) (output : Bytes) :
    fileHeader.serialize output =
      (.ok (), output ++ (fileHeader.header.toBytes ++
        if fileHeader.hasFlagBits then
          { fileHeader.flagBits with msgSize := 40 }.toBytes
        else [])) := by
  have whole {part : Bytes} {size : Nat} (sized : part.length = size)
      (small : size < 2 ^ 31) (output : Bytes) :
      write part (intOfSize size) output = (.ok (), output ++ part) := by
    rw [← sized]
    exact write_apply (by rw [sized]; exact small) output
  unfold FileHeader.serialize
  rw [Exec.bind_ok (whole fileHeader.header.length_toBytes (by decide) output)]
  split
  · rw [whole (UlogMessageFlagBits.length_toBytes _) (by decide),
      List.append_assoc]
  · rw [List.append_nil]
    rfl

theorem Silent.fileHeader {calls : List Callback} {writer : Writer}
    (silent : Silent calls writer) {fileHeader : FileHeader}
    {prologue : Prologue}
    (serialized : ∀ output, fileHeader.serialize output =
      (.ok (), output ++ prologue.toBytes)) :
    ∃ reached, handler.call (.fileHeader fileHeader) writer =
        (.ok (), reached) ∧
      Opened false (calls ++ [.fileHeader fileHeader]) reached := by
  have returned : handler.call (.fileHeader fileHeader) writer = (.ok (), _) :=
    emit_ok (serialized writer.output)
  have bytes : (Callback.fileHeader fileHeader).toBytes = prologue.toBytes := by
    rw [Callback.toBytes, serialized, List.nil_append]
  have nothing := silent.nothing
  refine ⟨_, returned, silent.written.call returned ?_ nofun, ⟨prologue, ?_⟩,
    silent.incomplete⟩
  · rw [bytes]
  · rw [List.flatMap_append, List.flatMap_singleton, nothing.1, bytes,
      handedOver_append, nothing.2]
    exact (List.append_nil _).symm

theorem enterHeader_copies {fileHeader : UlogFileHeader → FileHeader}
    (prologue : Prologue) (value : Int)
    (serialized : ∀ output, (fileHeader header).serialize output =
      (.ok (), output ++ prologue.toBytes)) :
    Exec.Triple (Quiet state header)
      (do
        let reader ← Exec.get
        Reader.onDelivery (Delivery.call handler
          (.fileHeader (fileHeader reader.fileHeader)))
        Reader.setState .readHeader
        return value) Copies Copies := by
  intro reader quiet
  obtain ⟨reached, returned, opened⟩ := quiet.silent.fileHeader serialized
  rw [← quiet.fileHeader] at returned opened
  have called := Delivery.call_ok returned
  rw [Exec.get_bind_apply, Exec.bind_ok (Reader.onDelivery_eq called)]
  exact opened

/-- The prologue that is written: the flag bits get their proper size. -/
def repairedPrologue (magic : header.magic.toList.take ulogFileMagicBytes.length =
    ulogFileMagicBytes) {flagBits : UlogMessageFlagBits}
    (typed : flagBits.msgType = ULogMessageType.flagBits.code)
    (compatible : Reader.hasIncompatFlags flagBits = false) : Prologue where
  header := header
  flagBits := some { flagBits with msgSize := 40 }
  magic := magic
  msgType _ present := by rw [← Option.some.inj present]; exact typed
  msgSize _ present := by rw [← Option.some.inj present]
  compatible _ present := by rw [← Option.some.inj present]; exact compatible

def barePrologue (magic : header.magic.toList.take ulogFileMagicBytes.length =
    ulogFileMagicBytes) : Prologue :=
  { Prologue.bare 0 with header, magic }

theorem readFlagBits_copies
    (magic : header.magic.toList.take ulogFileMagicBytes.length =
      ulogFileMagicBytes) (cursor : Cursor) :
    Exec.Triple (Quiet .readFlagBits header)
      (Reader.readFlagBits handler cursor) Copies Copies := by
  have warns (flagBits : UlogMessageFlagBits) :
      Exec.Triple (Quiet .readFlagBits header)
        (Reader.reportAppendedOffsets handler flagBits)
        (fun _ => Quiet .readFlagBits header) Copies :=
    .ite (fun _ => error_quiet _ _) fun _ => .pure _ fun _ => id
  refine .ite (fun _ => giveUp_copies _ _) fun _ =>
    .bind (quiet_lift _ fun _ => Quiet.copying_flagBits magic) fun flagBits =>
      .ite (fun typed => .bind (warns flagBits) fun _ =>
        .ite (fun _ => giveUp_copies _ _) fun compatible => ?_) fun _ => ?_
  · exact @enterHeader_copies _ _ (.ofFlagBits · flagBits)
      (repairedPrologue magic typed (Bool.eq_false_iff.mpr compatible)) _
      (serialize_apply (.ofFlagBits header flagBits))
  · exact @enterHeader_copies _ _ .ofHeader (barePrologue magic) _
      (serialize_apply (.ofHeader header))

theorem skipMagic_copies (cursor : Cursor) :
    Exec.Triple (fun reader => Copying reader.front)
      (Reader.skipMagic handler cursor) Copies Copies := by
  intro reader copying
  unfold Reader.skipMagic
  rw [Exec.get_bind_apply]
  by_cases here : reader.delivery.state = .readMagic
  · rw [if_pos here]
    refine Exec.Triple.bind (readMagic_copies cursor)
      (fun count => .pure (cursor.advance count) fun _ => id) reader
      ⟨here, rfl, ?_⟩
    obtain ⟨⟨state, writer, calls⟩⟩ := reader
    cases here
    exact copying
  · rw [if_neg here]
    exact copying

theorem skipFlagBits_copies (cursor : Cursor) :
    Exec.Triple (fun reader => Copying reader.front)
      (Reader.skipFlagBits handler cursor) Copies Copies := by
  intro reader copying
  unfold Reader.skipFlagBits
  rw [Exec.get_bind_apply]
  by_cases here : reader.delivery.state = .readFlagBits ∧ cursor.length > 0
  · rw [if_pos here]
    obtain ⟨⟨state, writer, calls⟩⟩ := reader
    cases here.1
    exact Exec.Triple.bind (readFlagBits_copies copying.2 cursor)
      (fun count => .pure (cursor.advance count) fun _ => id) _
      ⟨rfl, rfl, copying.1⟩
  · rw [if_neg here]
    exact copying

theorem step_readChunk_copies (cursor : Cursor) :
    Exec.Triple (fun reader => Copying reader.front)
      (Reader.step handler (.readChunk, cursor)) Copies Copies := by
  have read : Exec.Triple (fun reader : Reader Writer => Copying reader.front)
      (Exec.get : Exec Stop (Reader Writer) _) Copies Copies :=
    .get fun _ => id
  exact .bind read fun _ => .ite (fun _ => .pure _ fun _ => id) fun _ =>
    .bind (skipMagic_copies cursor) fun cursor =>
      .bind (skipFlagBits_copies cursor) fun _ => .pure _ fun _ => id

end Start

theorem copying_invariant : Reader.FrontInvariant handler Copying where
  starts {cursor reader} _ copying := by
    have after := step_readChunk_copies cursor reader copying
    rcases ran : Reader.step handler (.readChunk, cursor) reader with
      ⟨stop | value, reached⟩
    all_goals
      rw [ran] at after
      exact after
  parses whole copying := copying.parseMessage whole.header_le

theorem copying_reachable {reader : Reader Writer}
    (reachable : Reader.Reachable handler { output := [] } reader) :
    Copying reader.front :=
  copying_invariant.reachable
    (show Silent [] { output := [] } from ⟨⟨rfl, rfl, nofun⟩, nofun, rfl⟩)
    reachable

theorem Copying.written {front : Reader.Front Writer} (copying : Copying front) :
    Written front.delivery.calls front.delivery.handler := by
  obtain ⟨⟨state, writer, calls⟩, _, _⟩ := front
  cases state with
  | readMagic | invalidData => exact Silent.written copying
  | readFlagBits => exact copying.1.written
  | readHeader | readData => exact Opened.written copying

/-! ## Copies of copies -/

theorem exists_wires {messages : List Message}
    (rewritable : ∀ message ∈ messages, message.Rewritable) :
    ∃ wires : List WireMessage,
      wires.map WireMessage.message = messages.map Message.normal ∧
      wires.flatMap WireMessage.toBytes =
        messages.flatMap Message.toBytes := by
  induction messages with
  | nil => exact ⟨[], rfl, rfl⟩
  | cons message messages ih =>
      obtain ⟨here, later⟩ := List.forall_mem_cons.mp rewritable
      obtain ⟨wires, same, bytes⟩ := ih later
      refine ⟨here.wire :: wires, congrArg (message.normal :: ·) same, ?_⟩
      rw [List.flatMap_cons, List.flatMap_cons, here.toBytes_wire, bytes]

theorem kept_normal (state : State) (messages : List Message) :
    Message.kept state (messages.map Message.normal) =
      (Message.kept state messages).map Message.normal := by
  induction messages generalizing state with
  | nil => rfl
  | cons message messages ih =>
      have same := message.sameSection_normal
      rw [List.map_cons, Message.kept, same.standsIn, same.nextSection,
        Message.kept]
      split
      · rw [ih, List.map_cons]
      · exact ih state

theorem shows_normal {message : Message}
    (shows : message.callback.message? = some message) :
    message.normal.callback.message? = some message.normal := by
  cases message with
  | messageInfo info type =>
      simp only [Message.callback, Message.normal] at shows ⊢
      split at shows
      next plain =>
        cases shows
        rw [if_pos plain]
        rfl
      next other =>
        cases shows
        rw [if_neg other]
        rfl
  | messageFormat | parameterDefault | addLoggedMessage | logging | data
  | dropout | sync => rfl

theorem handedOver_calls {state : State} {messages : List Message}
    (shows : ∀ message ∈ messages, message.callback.message? = some message) :
    handedOver (Message.calls state messages) = messages := by
  induction messages generalizing state with
  | nil => rfl
  | cons message messages ih =>
      obtain ⟨here, later⟩ := List.forall_mem_cons.mp shows
      have shown : handedOver [message.callback] = [message] :=
        List.filterMap_cons_some here
      have single : handedOver (message.handOver state) = [message] := by
        cases state with
        | readHeader =>
            simp only [Message.handOver]
            split
            · exact shown
            · exact shown
        | readMagic | readFlagBits | readData | invalidData => exact shown
      rw [Message.calls, handedOver_append, single, ih later]
      rfl

theorem prologue_calls (prologue : Prologue) :
    prologue.calls.forM handler.call { output := [] } =
      (.ok (), { output := prologue.toBytes }) := by
  have warned : prologue.warnings.forM handler.call { output := [] } =
      (.ok (), { output := [] }) := by
    unfold Prologue.warnings
    split
    · split <;> rfl
    · rfl
  have serialized : prologue.fileHeader.serialize [] =
      (.ok (), [] ++ prologue.toBytes) := by
    rw [serialize_apply]
    obtain ⟨header, _ | bits, _, _, sized, _⟩ := prologue
    · rfl
    · have same : { bits with msgSize := 40 } = bits := by
        rw [← sized bits rfl]
      simp only [Prologue.fileHeader, FileHeader.ofFlagBits, if_true, same,
        Prologue.toBytes]
  refine Exec.forM_append_eq_ok.mpr ⟨_, warned, ?_⟩
  exact Exec.forM_cons_eq_ok.mpr ⟨_, emit_ok serialized, rfl⟩

theorem prologue_quiet {prologue : Prologue} {callback : Callback}
    (mem : callback ∈ prologue.calls) :
    callback.message? = none ∧
      (callback.kind = .error → callback = Reader.appendedOffsetsError) := by
  rcases List.mem_append.mp mem with warned | opened
  · have same : callback = Reader.appendedOffsetsError := by
      unfold Prologue.warnings at warned
      split at warned
      · split at warned
        · exact List.mem_singleton.mp warned
        · cases warned
      · cases warned
    rw [same]
    exact ⟨rfl, fun _ => rfl⟩
  · rw [List.mem_singleton.mp opened]
    exact ⟨rfl, nofun⟩

theorem toBytes_sublist {messages more : List Message}
    (sublist : messages.Sublist more)
    (same : messages.flatMap Message.toBytes = more.flatMap Message.toBytes) :
    messages = more := by
  induction sublist with
  | slnil => rfl
  | @cons messages more message sublist ih =>
      have lengths := congrArg List.length same
      have few := (sublist.flatMap Message.toBytes).length_le
      rw [List.flatMap_cons, List.length_append] at lengths
      have some : 0 < message.toBytes.length := by
        simp only [Message.toBytes, frameBytes, List.length_append,
          List.length_cons]
        omega
      omega
  | @cons_cons messages more message sublist ih =>
      rw [List.flatMap_cons, List.flatMap_cons] at same
      rw [ih (List.append_cancel_left same)]

theorem Copying.opened {front : Reader.Front Writer} (copying : Copying front)
    (more : front.delivery.handler.output ≠ []) :
    ∃ prologue : Prologue, front.delivery.handler.output = prologue.toBytes ++
      (handedOver front.delivery.calls).flatMap Message.toBytes := by
  have whole := copying.written.output
  obtain ⟨⟨state, writer, calls⟩, _, fileHeader⟩ := front
  cases state with
  | readHeader | readData =>
      obtain ⟨prologue, split⟩ := Opened.opened copying
      exact ⟨prologue, whole.trans split⟩
  | readMagic | invalidData =>
      exact absurd (whole.trans (Silent.nothing copying).1) more
  | readFlagBits =>
      exact absurd (whole.trans (Silent.nothing copying.1).1) more

section Copies

variable {reader : Reader Writer} {first : Bytes} {chunks : List Bytes}

theorem written_reachable
    (reachable : Reader.Reachable handler { output := [] } reader) :
    Written reader.delivery.calls reader.delivery.handler :=
  (copying_reachable reachable).written

theorem copy_read
    (reachable : Reader.Reachable handler { output := [] } reader)
    (layout : (first :: chunks).flatten = reader.delivery.handler.output)
    (sized : 59 ≤ first.length) :
    ∃ (prologue : Prologue) (again : Reader Writer),
      Reader.readChunks handler (first :: chunks)
        (Reader.init { output := [] }) = (.ok (), again) ∧
      reader.delivery.handler.output = prologue.toBytes ++
        (handedOver reader.delivery.calls).flatMap Message.toBytes ∧
      again.delivery.handler.output = prologue.toBytes ++
        (Message.kept .readHeader (handedOver reader.delivery.calls)).flatMap
          Message.toBytes ∧
      again.delivery.calls = prologue.calls ++ Message.calls .readHeader
        ((Message.kept .readHeader (handedOver reader.delivery.calls)).map
          Message.normal) := by
  have written := written_reachable reachable
  obtain ⟨prologue, output⟩ := (copying_reachable reachable).opened (by
    intro nothing
    have lengths := congrArg List.length layout
    change reader.delivery.handler.output = [] at nothing
    rw [nothing, List.flatten_cons, List.length_append, List.length_nil]
      at lengths
    omega)
  change reader.delivery.handler.output = prologue.toBytes ++
    (handedOver reader.delivery.calls).flatMap Message.toBytes at output
  generalize messagesEq : handedOver reader.delivery.calls = messages at output
  have rewritable : ∀ message ∈ messages, message.Rewritable := by
    rw [← messagesEq]
    exact fun message mem => (written.shows mem).1
  obtain ⟨wires, same, bytes⟩ := exists_wires rewritable
  have kept := Message.kept_sublist .readHeader messages
  obtain ⟨standing, normal, keptBytes⟩ := exists_wires
    fun message mem => rewritable message (kept.mem mem)
  have keptEq : Message.kept .readHeader (wires.map WireMessage.message) =
      standing.map WireMessage.message := by
    rw [same, kept_normal, normal]
  have ordered : Message.Ordered .readHeader
      (standing.map WireMessage.message) := by
    rw [← keptEq]
    exact Message.ordered_kept _ _
  obtain ⟨final, copied, finalOutput⟩ := @calls_copy standing .readHeader
    { output := prologue.toBytes } rfl ordered
  obtain ⟨again, reads, handlerEq, callsEq⟩ :=
    @Reader.readChunks_kept _ handler prologue wires first chunks
      { output := [] } final (by rw [layout, output, bytes]) sized
      (Exec.forM_append_eq_ok.mpr ⟨_, prologue_calls prologue, by
        rw [keptEq]
        exact copied⟩)
  refine ⟨prologue, again, reads, output, ?_, ?_⟩
  · rw [handlerEq, finalOutput, keptBytes]
  · rw [callsEq, keptEq, normal]

/-- Whatever a reader makes of any bytes, its writer takes all of it: the
output is what has been handed over, and no call has failed. -/
theorem copies_all
    (reachable : Reader.Reachable handler { output := [] } reader) :
    reader.delivery.calls.forM handler.call { output := [] } =
        (.ok (), reader.delivery.handler) ∧
      reader.delivery.handler.output =
        reader.delivery.calls.flatMap Callback.toBytes := by
  have written := written_reachable reachable
  exact ⟨written.ran, written.output⟩

theorem copies_all_zeros :
    let reader := Exec.final (Reader.readEach handler) Reader.zerosLog
      (Reader.init { output := [] })
    reader.delivery.calls.forM handler.call { output := [] } =
        (.ok (), reader.delivery.handler) ∧
      reader.delivery.handler.output =
        reader.delivery.calls.flatMap Callback.toBytes :=
  copies_all (Reader.Reachable.init.readEach _)

/-- The copy of any bytes is a log. Reading it loses only the messages that no
longer stand in their section, and its own copy does not change again. -/
theorem copies_settle
    (reachable : Reader.Reachable handler { output := [] } reader)
    (layout : (first :: chunks).flatten = reader.delivery.handler.output)
    (sized : 59 ≤ first.length) :
    ∃ again,
      Reader.readChunks handler (first :: chunks)
        (Reader.init { output := [] }) = (.ok (), again) ∧
      handedOver again.delivery.calls =
        (Message.kept .readHeader (handedOver reader.delivery.calls)).map
          Message.normal ∧
      (∀ callback ∈ again.delivery.calls, callback.kind = .error →
        callback = Reader.appendedOffsetsError) ∧
      (again.delivery.handler.output = reader.delivery.handler.output ↔
        Message.Ordered .readHeader (handedOver reader.delivery.calls)) ∧
      ∀ (second : Bytes) (more : List Bytes),
        (second :: more).flatten = again.delivery.handler.output →
        59 ≤ second.length →
        ∃ third,
          Reader.readChunks handler (second :: more)
            (Reader.init { output := [] }) = (.ok (), third) ∧
          third.delivery.handler.output = again.delivery.handler.output := by
  obtain ⟨prologue, again, reads, output, copied, callsEq⟩ :=
    copy_read reachable layout sized
  have written := written_reachable reachable
  generalize messagesEq : handedOver reader.delivery.calls = messages at *
  have kept := Message.kept_sublist .readHeader messages
  have handed : handedOver again.delivery.calls =
      (Message.kept .readHeader messages).map Message.normal := by
    have none : handedOver prologue.calls = [] :=
      List.filterMap_eq_nil_iff.mpr fun _ mem => (prologue_quiet mem).1
    rw [callsEq, handedOver_append, none, List.nil_append]
    refine handedOver_calls fun message mem => ?_
    obtain ⟨original, stands, rfl⟩ := List.mem_map.mp mem
    refine shows_normal (written.shows ?_).2
    rw [messagesEq]
    exact kept.mem stands
  refine ⟨again, reads, handed, fun callback mem error => ?_, ?_, ?_⟩
  · rw [callsEq] at mem
    rcases List.mem_append.mp mem with opening | later
    · exact (prologue_quiet opening).2 error
    · exact absurd error (Message.calls_kind later)
  · rw [copied, output, List.append_cancel_left_eq, ← Message.kept_eq_self]
    exact ⟨toBytes_sublist kept, fun same => by rw [same]⟩
  · intro second more secondLayout secondSized
    have reached : Reader.Reachable handler { output := [] } again :=
      Reader.Reachable.init.readChunks reads
    obtain ⟨prologue', third, readsAgain, output', copied', _⟩ :=
      copy_read reached secondLayout secondSized
    refine ⟨third, readsAgain, ?_⟩
    rw [copied', output', handed, kept_normal, Message.kept_kept]

/-- A rejected subscription ends the header, and the dropout after it is
written before any subscription. -/
theorem copies_settle_dropout :
    let opened := (Reader.readChunk handler (.ofChunk
      (((FileHeader.ofTimestamp 0 false).serialize []).2 ++
        [3, 0, 65, 0, 0, 0, 2, 0, 79, 1, 0])) (Reader.init { output := [] })).2
    let reader := (Reader.readChunk handler
      (.ofChunk [4, 0, 65, 0, 0, 0, 97]) opened).2
    ∃ again,
      Reader.readChunks handler [reader.delivery.handler.output]
        (Reader.init { output := [] }) = (.ok (), again) ∧
      handedOver again.delivery.calls =
        (Message.kept .readHeader (handedOver reader.delivery.calls)).map
          Message.normal ∧
      (∀ callback ∈ again.delivery.calls, callback.kind = .error →
        callback = Reader.appendedOffsetsError) ∧
      (again.delivery.handler.output = reader.delivery.handler.output ↔
        Message.Ordered .readHeader (handedOver reader.delivery.calls)) ∧
      ∀ (second : Bytes) (more : List Bytes),
        (second :: more).flatten = again.delivery.handler.output →
        59 ≤ second.length →
        ∃ third,
          Reader.readChunks handler (second :: more)
            (Reader.init { output := [] }) = (.ok (), third) ∧
          third.delivery.handler.output = again.delivery.handler.output := by
  intro opened reader
  have reachable : Reader.Reachable handler { output := [] } reader :=
    .readChunk (.readChunk .init (Cursor.ofChunk_valid _))
      (Cursor.ofChunk_valid _)
  exact copies_settle reachable (List.append_nil _) (by decide +kernel)

end Copies

end Writer

end UlogCpp
