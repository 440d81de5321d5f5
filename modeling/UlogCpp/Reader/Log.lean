import UlogCpp.Messages.Wire
import UlogCpp.Reader.Chunking

namespace UlogCpp

/-! Logs that are given as messages. To read such a log is to make the calls
that hand its messages over. -/

namespace Message

def standsIn : State → Message → Bool
  | .readHeader, message => message.isDefinition || message.endsHeader
  | .readData, message => message.isData
  | _, _ => false

def nextSection : State → Message → State
  | .readHeader, message =>
      if message.endsHeader then .readData else .readHeader
  | state, _ => state

def handOver : State → Message → List Callback
  | .readHeader, message =>
      if message.endsHeader then [.headerComplete, message.callback]
      else [message.callback]
  | _, message => [message.callback]

/-- The messages stand in the sections in which the reader takes them. -/
def Ordered : State → List Message → Prop
  | _, [] => True
  | state, message :: messages =>
      message.standsIn state = true ∧
        Ordered (message.nextSection state) messages

def calls : State → List Message → List Callback
  | _, [] => []
  | state, message :: messages =>
      message.handOver state ++ calls (message.nextSection state) messages

def sectionAfter (state : State) (messages : List Message) : State :=
  messages.foldl nextSection state

section Sections

variable {state : State} {message : Message} {messages more : List Message}

theorem standsIn_cases (stands : message.standsIn state = true) :
    state = .readHeader ∧ message.isDefinition = true ∨
      state = .readHeader ∧ message.endsHeader = true ∨
      state = .readData ∧ message.isData = true := by
  cases state with
  | readHeader =>
      rcases Bool.or_eq_true_iff.mp stands with defines | ends
      · exact .inl ⟨rfl, defines⟩
      · exact .inr (.inl ⟨rfl, ends⟩)
  | readData => exact .inr (.inr ⟨rfl, stands⟩)
  | readMagic | readFlagBits | invalidData => cases stands

theorem nextSection_definition (defines : message.isDefinition = true) :
    message.nextSection .readHeader = .readHeader ∧
      message.handOver .readHeader = [message.callback] := by
  have stays := endsHeader_of_isDefinition defines
  constructor
  · simp only [nextSection, stays, Bool.false_eq_true, if_false]
  · simp only [handOver, stays, Bool.false_eq_true, if_false]

theorem nextSection_ends (ends : message.endsHeader = true) :
    message.nextSection .readHeader = .readData ∧
      message.handOver .readHeader =
        [.headerComplete, message.callback] := by
  exact ⟨if_pos ends, if_pos ends⟩

theorem standsIn_definition (defines : message.isDefinition = true)
    (either : state = .readHeader ∨
      state = .readData ∧ message.isData = true) :
    message.standsIn state = true ∧ message.nextSection state = state := by
  rcases either with rfl | ⟨rfl, data⟩
  · exact ⟨Bool.or_eq_true_iff.mpr (.inl defines),
      (nextSection_definition defines).1⟩
  · exact ⟨data, rfl⟩

theorem standsIn_ends (ends : message.endsHeader = true)
    (either : state = .readHeader ∨ state = .readData) :
    message.standsIn state = true ∧ message.nextSection state = .readData := by
  rcases either with rfl | rfl
  · exact ⟨Bool.or_eq_true_iff.mpr (.inr ends), (nextSection_ends ends).1⟩
  · exact ⟨isData_of_endsHeader ends, rfl⟩

theorem sectionAfter_concat (state : State) (messages : List Message)
    (message : Message) :
    sectionAfter state (messages ++ [message]) =
      message.nextSection (sectionAfter state messages) :=
  List.foldl_concat _ _ _ _

theorem ordered_append :
    Ordered state (messages ++ more) ↔
      Ordered state messages ∧ Ordered (sectionAfter state messages) more := by
  induction messages generalizing state with
  | nil => exact ⟨fun ordered => ⟨trivial, ordered⟩, And.right⟩
  | cons message messages ih =>
      exact (and_congr_right fun _ => ih).trans and_assoc.symm

theorem calls_append :
    calls state (messages ++ more) =
      calls state messages ++ calls (sectionAfter state messages) more := by
  induction messages generalizing state with
  | nil => rfl
  | cons message messages ih =>
      exact (congrArg (message.handOver state ++ ·) ih).trans
        (List.append_assoc _ _ _).symm

theorem callback_kind (message : Message) : message.callback.kind ≠ .error := by
  cases message with
  | messageInfo info type =>
      simp only [callback]
      split <;> nofun
  | _ => nofun

theorem calls_kind {callback : Callback}
    (mem : callback ∈ calls state messages) : callback.kind ≠ .error := by
  induction messages generalizing state with
  | nil => cases mem
  | cons message messages ih =>
      rcases List.mem_append.mp mem with here | later
      · have handed : callback = .headerComplete ∨
            callback = message.callback := by
          unfold handOver at here
          grind
        rcases handed with rfl | rfl
        · nofun
        · exact message.callback_kind
      · exact ih later

end Sections

end Message

namespace Delivery

section Decode

theorem isMulti_of_reconstruct {info : MessageInfo} {type : ULogMessageType}
    {bytes : Bytes} {object : Message}
    (accepted : (Message.messageInfo info type).reconstruct bytes =
      .ok object) :
    ∃ read : MessageInfo, object = .messageInfo read type ∧
      MessageInfo.ofMessage bytes info.isMulti = .ok read ∧
      read.isMulti = info.isMulti := by
  obtain ⟨read, decoded, same⟩ := map_eq_ok accepted
  exact ⟨read, same.symm, decoded,
    MessageInfo.ofMessage_isMulti bytes info.isMulti read decoded⟩

variable {message object : Message} {bytes : Bytes}
  (accepted : message.reconstruct bytes = .ok object)

include accepted

theorem dataCall_accepted (typed : message.Typed)
    (stands : message.isData = true) :
    dataCall bytes (some message.msgType) = .ok (some object.callback) := by
  cases message with
  | messageInfo info type =>
      obtain ⟨read, rfl, decoded, multi⟩ := isMulti_of_reconstruct accepted
      simp only [Message.msgType, Message.callback, multi]
      cases same : info.isMulti with
      | true =>
          rw [same] at decoded
          exact congrArg (Except.map _) decoded
      | false =>
          rw [same] at decoded
          rcases typed with isMulti | rfl | rfl
          · rw [same] at isMulti
            cases isMulti
          all_goals exact congrArg (Except.map _) decoded
  | messageFormat format => cases stands
  | logging logged =>
      obtain ⟨read, decoded, rfl⟩ := map_eq_ok accepted
      simp only [Message.msgType]
      cases tagged : logged.hasTag with
      | true =>
          rw [tagged] at decoded
          exact congrArg (Except.map _) decoded
      | false =>
          rw [tagged] at decoded
          exact congrArg (Except.map _) decoded
  | parameterDefault | addLoggedMessage | data | dropout | sync =>
      obtain ⟨read, decoded, rfl⟩ := map_eq_ok accepted
      exact congrArg (Except.map _) decoded

/-- Both sections take infos and parameters in the same way. -/
theorem headerCall_accepted (typed : message.Typed)
    (defines : message.isDefinition = true) :
    headerCall bytes (some message.msgType) = .ok (some object.callback) := by
  cases message with
  | messageInfo info type =>
      refine Eq.trans ?_ (dataCall_accepted accepted typed rfl)
      simp only [Message.msgType]
      cases multi : info.isMulti with
      | true => rfl
      | false =>
          rcases typed with isMulti | rfl | rfl
          · rw [multi] at isMulti
            cases isMulti
          all_goals rfl
  | messageFormat format =>
      obtain ⟨read, decoded, rfl⟩ := map_eq_ok accepted
      exact congrArg (Except.map _) decoded
  | parameterDefault parameter =>
      exact dataCall_accepted accepted typed rfl
  | addLoggedMessage | logging | data | dropout | sync => cases defines

omit accepted

variable (sized : 3 ≤ bytes.length)
  (tagged : ULogMessageType.ofCode? (UlogCpp.msgType bytes) =
    some message.msgType)

include sized tagged

theorem decodeHeader_ends (ends : message.endsHeader = true) :
    decodeHeader bytes = .ok (some .headerComplete) := by
  rw [decodeHeader_eq sized, tagged]
  cases message with
  | addLoggedMessage addLogged => rfl
  | logging logged =>
      simp only [Message.msgType]
      cases logged.hasTag <;> rfl
  | messageInfo | messageFormat | parameterDefault | data | dropout | sync =>
      cases ends

include accepted

theorem decodeData_accepted (typed : message.Typed)
    (stands : message.isData = true) :
    decodeData bytes = .ok (some object.callback) := by
  rw [decodeData_eq sized, tagged]
  exact dataCall_accepted accepted typed stands

theorem decodeHeader_accepted (typed : message.Typed)
    (defines : message.isDefinition = true) :
    decodeHeader bytes = .ok (some object.callback) := by
  rw [decodeHeader_eq sized, tagged]
  exact headerCall_accepted accepted typed defines

end Decode

section Wire

variable {wire : WireMessage}

theorem msgType_wire (wire : WireMessage) :
    ULogMessageType.ofCode? (UlogCpp.msgType wire.toBytes) =
      some wire.message.msgType := by
  have type : UlogCpp.msgType wire.toBytes = wire.message.msgType.code :=
    wire.frame.msgType_toBytes
  rw [type, ULogMessageType.ofCode?_code]

theorem header_le_wire (wire : WireMessage) : 3 ≤ wire.toBytes.length :=
  wire.frame.isMessage.header_le

theorem decodeData_wire (stands : wire.message.isData = true) :
    decodeData wire.toBytes = .ok (some wire.message.callback) :=
  decodeData_accepted wire.reconstruct (header_le_wire wire) (msgType_wire wire)
    wire.typed stands

theorem callback_ne_headerComplete (message : Message) :
    message.callback ≠ .headerComplete := by
  cases message with
  | messageInfo info type =>
      simp only [Message.callback]
      split <;> nofun
  | _ => nofun

end Wire

/-! ## Delivering messages -/

section Deliver

variable {σ : Type} {handler : DataHandlerInterface σ} {delivery : Delivery σ}
  {wire : WireMessage}

theorem call_ok {callback : Callback} {reached : σ}
    (returned : handler.call callback delivery.handler = (.ok (), reached)) :
    call handler callback delivery =
      (.ok (), { delivery with
        handler := reached, calls := delivery.calls ++ [callback] }) := by
  unfold call
  rw [returned]
  rfl

theorem forM_call_ok {callbacks : List Callback} {final : σ}
    (returned : callbacks.forM handler.call delivery.handler =
      (.ok (), final)) :
    (callbacks.forM (call handler)) delivery = (.ok (), { delivery with
      handler := final, calls := delivery.calls ++ callbacks }) := by
  induction callbacks generalizing delivery with
  | nil =>
      cases returned
      rw [List.append_nil]
      rfl
  | cons callback callbacks ih =>
      obtain ⟨_, first, rest⟩ := Exec.forM_cons_eq_ok.mp returned
      refine Exec.forM_cons_eq_ok.mpr ⟨_, call_ok first, ?_⟩
      have later := @ih { delivery with
        handler := _, calls := delivery.calls ++ [callback] } rest
      rw [later, List.append_assoc]
      rfl

theorem deliver_definition (header : delivery.state = .readHeader)
    (defines : wire.message.isDefinition = true) :
    deliver handler wire.toBytes delivery =
      call handler wire.message.callback delivery := by
  have decoded := decodeHeader_accepted wire.reconstruct (header_le_wire wire)
    (msgType_wire wire) wire.typed defines
  have ordinary := callback_ne_headerComplete wire.message
  rw [(deliver_ordinary header decoded (fun same =>
    ordinary (Option.some.inj (Except.ok.inj same)))).1, Exec.lift_ok_bind,
    react_of_ne ordinary]

theorem deliver_data (data : delivery.state = .readData)
    (stands : wire.message.isData = true) :
    deliver handler wire.toBytes delivery =
      call handler wire.message.callback delivery := by
  rw [deliver_readData data, decodeData_wire stands, Exec.lift_ok_bind,
    react_of_ne (callback_ne_headerComplete wire.message)]

theorem deliver_ends (header : delivery.state = .readHeader)
    (ends : wire.message.endsHeader = true) :
    deliver handler wire.toBytes delivery =
      (do
        call handler .headerComplete
        call handler wire.message.callback)
        { delivery with state := .readData } := by
  rw [deliver_complete header (decodeHeader_ends (header_le_wire wire)
      (msgType_wire wire) ends),
    decodeData_wire (Message.isData_of_endsHeader ends), Exec.lift_ok_bind,
    react_of_ne (callback_ne_headerComplete wire.message)]

theorem deliver_wire {state : State} {final : σ}
    (here : delivery.state = state)
    (stands : wire.message.standsIn state = true)
    (ran : (wire.message.handOver state).forM handler.call delivery.handler =
      (.ok (), final)) :
    deliver handler wire.toBytes delivery = (.ok (), {
      state := wire.message.nextSection state
      handler := final
      calls := delivery.calls ++ wire.message.handOver state }) := by
  rcases Message.standsIn_cases stands with ⟨rfl, defines⟩ | ⟨rfl, ends⟩ |
    ⟨rfl, data⟩
  · obtain ⟨next, handed⟩ := Message.nextSection_definition defines
    rw [handed] at ran ⊢
    obtain ⟨_, called, same⟩ := Exec.forM_cons_eq_ok.mp ran
    cases same
    rw [deliver_definition here defines, call_ok called, next, here]
  · obtain ⟨next, handed⟩ := Message.nextSection_ends ends
    rw [handed] at ran ⊢
    obtain ⟨_, complete, ran⟩ := Exec.forM_cons_eq_ok.mp ran
    obtain ⟨_, called, same⟩ := Exec.forM_cons_eq_ok.mp ran
    cases same
    have completed := @call_ok _ handler { delivery with state := .readData }
      _ _ complete
    rw [deliver_ends here ends, Exec.bind_ok completed, call_ok called, next,
      List.append_assoc]
    rfl
  · obtain ⟨_, called, same⟩ := Exec.forM_cons_eq_ok.mp ran
    cases same
    rw [deliver_data here data, call_ok called, here]
    rfl

end Deliver

end Delivery

namespace WireMessage

variable {σ : Type} {handler : DataHandlerInterface σ}

/-- Delivering the messages makes the calls and takes the handler to a state. -/
def Delivers (handler : DataHandlerInterface σ) (delivery : Delivery σ)
    (wires : List WireMessage) (calls : List Callback) (final : σ) : Prop :=
  ∃ reached,
    Delivery.deliverAll handler (wires.map frame) delivery =
      (.ok (), reached) ∧
    reached.handler = final ∧ reached.calls = delivery.calls ++ calls

theorem Delivers.cons {wire : WireMessage} {wires : List WireMessage}
    {delivery middle : Delivery σ} {first rest : List Callback} {final : σ}
    (delivered : Delivery.deliver handler wire.toBytes delivery =
      (.ok (), middle))
    (calls : middle.calls = delivery.calls ++ first)
    (delivers : Delivers handler middle wires rest final) :
    Delivers handler delivery (wire :: wires) (first ++ rest) final := by
  obtain ⟨reached, after, handlerEq, callsEq⟩ := delivers
  refine ⟨reached, Delivery.deliverAll_cons_eq_ok.mpr
    ⟨middle, delivered, after⟩, handlerEq, ?_⟩
  rw [callsEq, calls, List.append_assoc]

/-- If the handler takes the calls one after the other, the reader delivers the
messages. -/
theorem delivers_calls {wires : List WireMessage} {delivery : Delivery σ}
    {final : σ} {state : State} (here : delivery.state = state)
    (ordered : Message.Ordered state (wires.map message))
    (ran : (Message.calls state (wires.map message)).forM handler.call
      delivery.handler = (.ok (), final)) :
    Delivers handler delivery wires (Message.calls state (wires.map message))
      final := by
  induction wires generalizing delivery state with
  | nil =>
      cases ran
      exact ⟨delivery, rfl, rfl, (List.append_nil _).symm⟩
  | cons wire wires ih =>
      obtain ⟨stands, ordered⟩ := ordered
      obtain ⟨_, first, rest⟩ := Exec.forM_append_eq_ok.mp ran
      exact .cons (Delivery.deliver_wire here stands first) rfl
        (ih rfl ordered rest)

end WireMessage

section

variable {σ : Type} {handler : DataHandlerInterface σ}

theorem Prologue.deliver_calls {prologue : Prologue} {delivery : Delivery σ}
    {final : σ} (ran : prologue.calls.forM handler.call delivery.handler =
      (.ok (), final)) :
    prologue.deliver handler delivery =
      (.ok (), {
        state := .readHeader
        handler := final
        calls := delivery.calls ++ prologue.calls }) := by
  obtain ⟨_, warned, called⟩ := Exec.forM_append_eq_ok.mp ran
  obtain ⟨_, opened, same⟩ := Exec.forM_cons_eq_ok.mp called
  cases same
  have warns := @Delivery.forM_call_ok _ handler
    { delivery with state := .readFlagBits } _ _ warned
  unfold Prologue.deliver
  refine Exec.bind_eq_ok.mpr ⟨(), _, rfl, ?_⟩
  refine Exec.bind_eq_ok.mpr ⟨(), _, warns, ?_⟩
  refine Exec.bind_eq_ok.mpr ⟨(), _, Delivery.call_ok opened, ?_⟩
  simp only [Delivery.setState, Exec.modify_apply, List.append_assoc,
    Prologue.calls]

/-- Reading a log of messages makes the calls, if the handler takes them. -/
theorem Reader.readChunks_messages {prologue : Prologue}
    {wires : List WireMessage} {first : Bytes} {chunks : List Bytes}
    {state final : σ} {bits : UlogMessageFlagBits}
    (flagged : prologue.flagBits = some bits)
    (ordered : Message.Ordered .readHeader (wires.map WireMessage.message))
    (layout : (first :: chunks).flatten =
      prologue.toBytes ++ wires.flatMap WireMessage.toBytes)
    (sized : 59 ≤ first.length)
    (ran : (prologue.calls ++
      Message.calls .readHeader (wires.map WireMessage.message)).forM
        handler.call state = (.ok (), final)) :
    ∃ reached,
      readChunks handler (first :: chunks) (init state) = (.ok (), reached) ∧
      reached.delivery.handler = final ∧
      reached.delivery.calls =
        prologue.calls ++
          Message.calls .readHeader (wires.map WireMessage.message) := by
  obtain ⟨middle, start, rest⟩ := Exec.forM_append_eq_ok.mp ran
  have opens := @Prologue.deliver_calls _ handler _ (init state).delivery _
    start
  obtain ⟨delivered, delivers, handlerEq, callsEq⟩ :=
    @WireMessage.delivers_calls _ handler wires
      { state := .readHeader, handler := middle, calls := [] ++ prologue.calls }
      _ _ rfl ordered rest
  obtain ⟨reached, _, reads, _, progressed⟩ :=
    @readChunks_log _ handler prologue (wires.map WireMessage.frame) first []
      chunks state _ _ sized (fun absent => by rw [absent] at flagged; cases flagged)
      (by
        rw [List.append_nil, WireMessage.stream_frames]
        exact layout)
      opens delivers
  cases delivers.symm.trans progressed.complete
  exact ⟨reached, reads, handlerEq, callsEq⟩

/-- The output is a log of the messages, and reading it takes the handler from
the start to the final state. -/
def Reader.Arrives (handler : DataHandlerInterface σ) (prologue : Prologue)
    (start : σ) (output : Bytes) (messages : List Message) (final : σ) : Prop :=
  ∃ wires : List WireMessage, wires.map WireMessage.message = messages ∧
    output = prologue.toBytes ++ wires.flatMap WireMessage.toBytes ∧
    Message.Ordered .readHeader messages ∧
    (prologue.calls ++ Message.calls .readHeader messages).forM
        handler.call start = (.ok (), final)

namespace Reader.Arrives

variable {prologue : Prologue} {start middle final : σ} {output : Bytes}
  {messages : List Message}

theorem opened (ran : prologue.calls.forM handler.call start =
    (.ok (), final)) :
    Arrives handler prologue start prologue.toBytes [] final := by
  refine ⟨[], rfl, (List.append_nil _).symm, trivial, ?_⟩
  exact Exec.forM_append_eq_ok.mpr ⟨final, ran, rfl⟩

theorem emit {wire : WireMessage}
    (arrives : Arrives handler prologue start output messages middle)
    (stands : wire.message.standsIn
      (Message.sectionAfter .readHeader messages) = true)
    (ran : (wire.message.handOver
      (Message.sectionAfter .readHeader messages)).forM handler.call middle =
        (.ok (), final)) :
    Arrives handler prologue start (output ++ wire.toBytes)
      (messages ++ [wire.message]) final := by
  obtain ⟨wires, rfl, rfl, ordered, called⟩ := arrives
  refine ⟨wires ++ [wire], List.map_append, ?_, ?_, ?_⟩
  · rw [List.flatMap_append, List.flatMap_singleton, List.append_assoc]
  · exact Message.ordered_append.mpr ⟨ordered, stands, trivial⟩
  · rw [Message.calls_append, ← List.append_assoc]
    refine Exec.forM_append_eq_ok.mpr ⟨middle, called, ?_⟩
    exact Exec.forM_append_eq_ok.mpr ⟨final, ran, rfl⟩

theorem readChunks {first : Bytes} {chunks : List Bytes}
    {bits : UlogMessageFlagBits}
    (arrives : Arrives handler prologue start output messages final)
    (flagged : prologue.flagBits = some bits)
    (layout : (first :: chunks).flatten = output)
    (sized : 59 ≤ first.length) :
    ∃ reached,
      Reader.readChunks handler (first :: chunks) (init start) =
        (.ok (), reached) ∧
      reached.delivery.handler = final := by
  obtain ⟨wires, rfl, rfl, ordered, called⟩ := arrives
  obtain ⟨reached, reads, handlerEq, _⟩ :=
    readChunks_messages flagged ordered layout sized called
  exact ⟨reached, reads, handlerEq⟩

end Reader.Arrives

end

end UlogCpp
