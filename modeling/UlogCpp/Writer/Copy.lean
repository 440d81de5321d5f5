import UlogCpp.Messages.Emission
import UlogCpp.Reader.Log
import UlogCpp.Writer.Model

namespace UlogCpp

/-! A writer as the handler of a reader copies the log. -/

namespace Writer

def Takes (writer : Writer) (message : Message) : Prop :=
  if writer.headerComplete then message.isData = true
  else message.isDefinition = true

theorem call_wire {writer : Writer} {wire : WireMessage}
    (takes : writer.Takes wire.message) :
    handler.call wire.message.callback writer =
      (.ok (), { writer with output := writer.output ++ wire.toBytes }) := by
  have emitted := emit_ok (wire.serialize writer.output)
  have typed := wire.typed
  generalize wire.toBytes = bytes at *
  cases message : wire.message with
  | messageInfo info type =>
      rw [message] at emitted typed
      simp only [Message.callback]
      split
      next plain =>
        obtain ⟨_, rfl⟩ := plain
        exact emitted
      next other =>
        have same : info.serialize .info = info.serialize type := by
          rcases typed with multi | rfl | rfl
          · simp only [MessageInfo.serialize, multi, if_true]
          · rfl
          · cases multi : info.isMulti with
            | true => simp only [MessageInfo.serialize, multi, if_true]
            | false => exact absurd ⟨multi, rfl⟩ other
        refine Eq.trans ?_ emitted
        exact congrArg (emit · writer) same
  | messageFormat format =>
      rw [message] at emitted takes
      have header : writer.headerComplete = false := by
        unfold Takes at takes
        split at takes
        · cases takes
        next open' => simpa using open'
      refine Eq.trans ?_ emitted
      change Handle.messageFormat format writer = _
      unfold Handle.messageFormat
      rw [Exec.get_bind_apply, header]
      rfl
  | addLoggedMessage addLogged =>
      rw [message] at emitted takes
      have complete : writer.headerComplete = true := by
        unfold Takes at takes
        split at takes
        · assumption
        · cases takes
      refine Eq.trans ?_ emitted
      change Handle.addLoggedMessage addLogged writer = _
      unfold Handle.addLoggedMessage
      rw [Exec.get_bind_apply, complete]
      rfl
  | parameterDefault | logging | data | dropout | sync =>
      rw [message] at emitted
      exact emitted

def InStep (writer : Writer) : State → Prop
  | .readHeader => writer.headerComplete = false
  | .readData => writer.headerComplete = true
  | _ => False

theorem handOver_copy {wire : WireMessage} {state : State} {writer : Writer}
    (inStep : writer.InStep state)
    (stands : wire.message.standsIn state = true) :
    ∃ reached,
      (wire.message.handOver state).forM handler.call writer =
        (.ok (), reached) ∧
      reached.output = writer.output ++ wire.toBytes ∧
      reached.InStep (wire.message.nextSection state) := by
  rcases Message.standsIn_cases stands with ⟨rfl, defines⟩ | ⟨rfl, ends⟩ |
    ⟨rfl, data⟩
  · obtain ⟨next, handed⟩ := Message.nextSection_definition defines
    have header : writer.headerComplete = false := inStep
    have called := @call_wire writer wire (by
      rw [Takes, if_neg (by rw [header]; decide)]
      exact defines)
    rw [handed, next]
    exact ⟨_, Exec.forM_cons_eq_ok.mpr ⟨_, called, rfl⟩, rfl, inStep⟩
  · obtain ⟨next, handed⟩ := Message.nextSection_ends ends
    have called := @call_wire { writer with headerComplete := true } wire (by
      rw [Takes, if_pos rfl]
      exact Message.isData_of_endsHeader ends)
    rw [handed, next]
    exact ⟨_, Exec.forM_cons_eq_ok.mpr ⟨_, rfl,
      Exec.forM_cons_eq_ok.mpr ⟨_, called, rfl⟩⟩, rfl, rfl⟩
  · have complete : writer.headerComplete = true := inStep
    have called := @call_wire writer wire (by
      rw [Takes, if_pos complete]
      exact data)
    exact ⟨_, Exec.forM_cons_eq_ok.mpr ⟨_, called, rfl⟩, rfl, inStep⟩

theorem calls_copy {wires : List WireMessage} {state : State} {writer : Writer}
    (inStep : writer.InStep state)
    (ordered : Message.Ordered state (wires.map WireMessage.message)) :
    ∃ final,
      (Message.calls state (wires.map WireMessage.message)).forM handler.call
        writer = (.ok (), final) ∧
      final.output = writer.output ++ wires.flatMap WireMessage.toBytes := by
  induction wires generalizing state writer with
  | nil => exact ⟨writer, rfl, (List.append_nil _).symm⟩
  | cons wire wires ih =>
      obtain ⟨reached, here, output, inStep⟩ := handOver_copy inStep ordered.1
      obtain ⟨final, later, written⟩ := ih inStep ordered.2
      refine ⟨final, Exec.forM_append_eq_ok.mpr ⟨reached, here, later⟩, ?_⟩
      rw [written, output, List.flatMap_cons, List.append_assoc]

end Writer

/-! ## Logs that are emitted -/

structure FileHeader.Copyable (fileHeader : FileHeader) : Prop where
  hasFlagBits : fileHeader.hasFlagBits = true
  magic : fileHeader.header.magic.toList.take ulogFileMagicBytes.length =
    ulogFileMagicBytes
  msgType : fileHeader.flagBits.msgType = ULogMessageType.flagBits.code
  msgSize : fileHeader.flagBits.msgSize = 40
  compatible : Reader.hasIncompatFlags fileHeader.flagBits = false
  appendedOffsets : fileHeader.flagBits.appendedOffsets.head = 0

namespace FileHeader.Copyable

variable {fileHeader : FileHeader}

def prologue (copyable : fileHeader.Copyable) : Prologue where
  header := fileHeader.header
  flagBits := some fileHeader.flagBits
  magic := copyable.magic
  msgType _ present := by rw [← Option.some.inj present]; exact copyable.msgType
  msgSize _ present := by rw [← Option.some.inj present]; exact copyable.msgSize
  compatible _ present := by
    rw [← Option.some.inj present]
    exact copyable.compatible

theorem serialize (copyable : fileHeader.Copyable) (output : Bytes) :
    fileHeader.serialize output =
      (.ok (), output ++ copyable.prologue.toBytes) := by
  have header : write fileHeader.header.toBytes (intOfSize UlogFileHeader.size)
      output = (.ok (), output ++ fileHeader.header.toBytes) := by
    have sized := fileHeader.header.length_toBytes
    rw [← sized]
    exact write_apply (by rw [sized]; decide) output
  have same : { fileHeader.flagBits with msgSize := 40 } =
      fileHeader.flagBits := by
    rw [← copyable.msgSize]
  have bits : write fileHeader.flagBits.toBytes
      (intOfSize UlogMessageFlagBits.size)
      (output ++ fileHeader.header.toBytes) =
      (.ok (), output ++ fileHeader.header.toBytes ++
        fileHeader.flagBits.toBytes) := by
    have sized := fileHeader.flagBits.length_toBytes
    rw [← sized]
    exact write_apply (by rw [sized]; decide) _
  unfold FileHeader.serialize
  rw [Exec.bind_ok header, if_pos copyable.hasFlagBits, same, bits,
    List.append_assoc]
  rfl

theorem calls (copyable : fileHeader.Copyable) :
    copyable.prologue.calls = [.fileHeader fileHeader] := by
  have none : copyable.prologue.warnings = [] := by
    simp only [Prologue.warnings, prologue, copyable.appendedOffsets]
    rfl
  have same : copyable.prologue.fileHeader = fileHeader := by
    obtain ⟨header, bits, flagged⟩ := fileHeader
    cases copyable.hasFlagBits
    rfl
  rw [Prologue.calls, none, same, List.nil_append]

end FileHeader.Copyable

namespace Message

structure Copyable (message : Message) : Prop where
  wellFormed : message.WellFormed
  emits : (message.serialize []).1 = .ok ()
  accepts : ∃ object, message.reconstruct message.emitted = .ok object

theorem SameSection.standsIn {message other : Message}
    (same : message.SameSection other) (state : State) :
    message.standsIn state = other.standsIn state := by
  cases state with
  | readHeader => exact congrArg₂ or same.definition same.ends
  | readData => exact same.data
  | readMagic | readFlagBits | invalidData => rfl

theorem SameSection.nextSection {message other : Message}
    (same : message.SameSection other) (state : State) :
    message.nextSection state = other.nextSection state := by
  cases state with
  | readHeader => simp only [Message.nextSection, same.ends]
  | readData | readMagic | readFlagBits | invalidData => rfl

theorem SameSection.ordered {wires : List WireMessage}
    {messages : List Message} {state : State}
    (sections : List.Forall₂ (fun wire message =>
      wire.message.SameSection message) wires messages)
    (ordered : Ordered state messages) :
    Ordered state (wires.map WireMessage.message) := by
  induction sections generalizing state with
  | nil => trivial
  | cons same _ ih =>
      refine ⟨(same.standsIn state).trans ordered.1, ?_⟩
      rw [same.nextSection]
      exact ih ordered.2

theorem exists_wires {messages : List Message}
    (copyable : ∀ message ∈ messages, message.Copyable) :
    ∃ wires : List WireMessage,
      wires.flatMap WireMessage.toBytes = messages.flatMap emitted ∧
      List.Forall₂ (fun wire message => wire.message.SameSection message)
        wires messages := by
  induction messages with
  | nil => exact ⟨[], rfl, .nil⟩
  | cons message messages ih =>
      obtain ⟨here, later⟩ := List.forall_mem_cons.mp copyable
      obtain ⟨object, accepted⟩ := here.accepts
      obtain ⟨wire, same, sections⟩ := emitted_wire here.wellFormed
        (Prod.ext here.emits rfl) accepted
      obtain ⟨wires, bytes, others⟩ := ih later
      refine ⟨wire :: wires, ?_, .cons sections others⟩
      rw [List.flatMap_cons, List.flatMap_cons, bytes, same]
      rfl

end Message

namespace Writer

open Reader

theorem ofTimestamp_copyable (timestamp : UInt64) :
    (FileHeader.ofTimestamp timestamp false).Copyable where
  hasFlagBits := rfl
  magic := rfl
  msgType := rfl
  msgSize := rfl
  compatible := (Prologue.ofTimestamp timestamp).compatible _ rfl
  appendedOffsets := rfl

end Writer

end UlogCpp
