import UlogCpp.Messages.Access
import UlogCpp.Reader.Model

namespace UlogCpp

inductive CallbackKind where
  | error
  | fileHeader
  | headerComplete
  | format
  | definition
  | data
  deriving DecidableEq

def Callback.kind : Callback → CallbackKind
  | .error _ _ => .error
  | .fileHeader _ => .fileHeader
  | .headerComplete => .headerComplete
  | .messageFormat _ => .format
  | .messageInfo _ | .parameter _ | .parameterDefault _ => .definition
  | .addLoggedMessage _ | .logging _ | .data _ | .dropout _ | .sync _ => .data

def Callback.Early : Callback → Prop
  | .error _ _ | .fileHeader _ => True
  | _ => False

namespace Delivery

variable {σ : Type} {handler : DataHandlerInterface σ}

/-! A message is first decoded into the call to make, if any. Decoding does not
depend on the handler. -/

def decoded (callback : α → Callback) (object : Except Stop α) :
    Except Stop (Option Callback) :=
  object.map fun value => some (callback value)

def headerCall (message : Bytes) :
    Option ULogMessageType → Except Stop (Option Callback)
  | some .info => decoded .messageInfo (MessageInfo.ofMessage message false)
  | some .infoMultiple => decoded .messageInfo (MessageInfo.ofMessage message true)
  | some .format => decoded .messageFormat (MessageFormat.ofMessage message)
  | some .parameter => decoded .parameter (MessageInfo.ofMessage message false)
  | some .parameterDefault =>
      decoded .parameterDefault (ParameterDefault.ofMessage message)
  | some .addLoggedMsg | some .logging | some .loggingTagged =>
      .ok (some .headerComplete)
  | _ => .ok none

def dataCall (message : Bytes) :
    Option ULogMessageType → Except Stop (Option Callback)
  | some .info => decoded .messageInfo (MessageInfo.ofMessage message false)
  | some .infoMultiple => decoded .messageInfo (MessageInfo.ofMessage message true)
  | some .parameter => decoded .parameter (MessageInfo.ofMessage message false)
  | some .parameterDefault =>
      decoded .parameterDefault (ParameterDefault.ofMessage message)
  | some .addLoggedMsg =>
      decoded .addLoggedMessage (AddLoggedMessage.ofMessage message)
  | some .logging => decoded .logging (Logging.ofMessage message false)
  | some .loggingTagged => decoded .logging (Logging.ofMessage message true)
  | some .data => decoded .data (Data.ofMessage message)
  | some .dropout => decoded .dropout (Dropout.ofMessage message)
  | some .sync => decoded .sync (Sync.ofMessage message)
  | _ => .ok none

def decodeHeader (message : Bytes) : Except Stop (Option Callback) := do
  let msgType ← readUInt8 message 2
  headerCall message (ULogMessageType.ofCode? msgType)

def decodeData (message : Bytes) : Except Stop (Option Callback) := do
  let msgType ← readUInt8 message 2
  dataCall message (ULogMessageType.ofCode? msgType)

/-- Make the call; the end of the header also changes the state. -/
def react (handler : DataHandlerInterface σ) :
    Option Callback → Exec Stop (Delivery σ) Unit
  | none => pure ()
  | some .headerComplete => do
      setState .readData
      call handler .headerComplete
  | some callback => call handler callback

theorem react_of_ne {callback : Callback}
    (ordinary : callback ≠ .headerComplete) :
    react handler (some callback) = call handler callback := by
  unfold react
  split
  next same => cases same
  next same => cases same; exact absurd rfl ordinary
  next same => cases same; rfl

theorem decoded_react {callback : α → Callback}
    (ordinary : ∀ value, callback value ≠ .headerComplete)
    (object : Except Stop α) :
    (Exec.lift object >>= fun value => call handler (callback value)) =
      (Exec.lift (decoded callback object) >>= react handler) := by
  funext delivery
  cases object with
  | error stop => rfl
  | ok value =>
      have reacts := @react_of_ne σ handler _ (ordinary value)
      exact (congrFun reacts delivery).symm

theorem readHeaderMessage_eq (message : Bytes) :
    readHeaderMessage handler message =
      (Exec.lift (decodeHeader message) >>= react handler) := by
  unfold readHeaderMessage decodeHeader
  cases readUInt8 message 2 with
  | error stop => rfl
  | ok msgType =>
      rw [Exec.lift_ok_bind, ok_bind]
      rcases ULogMessageType.ofCode? msgType with _ | type
      · rfl
      · cases type <;> first
          | rfl
          | (apply decoded_react; exact fun _ => nofun)

theorem readDataMessage_eq (message : Bytes) :
    readDataMessage handler message =
      (Exec.lift (decodeData message) >>= react handler) := by
  unfold readDataMessage decodeData
  cases readUInt8 message 2 with
  | error stop => rfl
  | ok msgType =>
      rw [Exec.lift_ok_bind, ok_bind]
      rcases ULogMessageType.ofCode? msgType with _ | type
      · rfl
      · cases type <;> first
          | rfl
          | (apply decoded_react; exact fun _ => nofun)

theorem decoded_eq_ok {callback : α → Callback} {object : Except Stop α}
    {answer : Option Callback} (returned : decoded callback object = .ok answer) :
    ∃ value, object = .ok value ∧ answer = some (callback value) := by
  cases object with
  | error stop => cases returned
  | ok value =>
      cases returned
      exact ⟨value, rfl, rfl⟩

theorem headerCall_kind {message : Bytes} {type : Option ULogMessageType}
    {callback : Callback}
    (returned : headerCall message type = .ok (some callback)) :
    callback = .headerComplete ∨ callback.kind = .format ∨
      callback.kind = .definition := by
  rcases type with _ | type
  · cases returned
  · cases type
    case addLoggedMsg | logging | loggingTagged =>
      cases returned
      exact .inl rfl
    case format =>
      obtain ⟨_, _, same⟩ := decoded_eq_ok returned
      cases same
      exact .inr (.inl rfl)
    case info | infoMultiple | parameter | parameterDefault =>
      obtain ⟨_, _, same⟩ := decoded_eq_ok returned
      cases same
      exact .inr (.inr rfl)
    all_goals cases returned

theorem dataCall_kind {message : Bytes} {type : Option ULogMessageType}
    {callback : Callback}
    (returned : dataCall message type = .ok (some callback)) :
    callback.kind = .definition ∨ callback.kind = .data := by
  rcases type with _ | type
  · cases returned
  · cases type
    case info | infoMultiple | parameter | parameterDefault =>
      obtain ⟨_, _, same⟩ := decoded_eq_ok returned
      cases same
      exact .inl rfl
    case addLoggedMsg | logging | loggingTagged | data | dropout | sync =>
      obtain ⟨_, _, same⟩ := decoded_eq_ok returned
      cases same
      exact .inr rfl
    all_goals cases returned

theorem decodeHeader_kind {message : Bytes} {callback : Callback}
    (returned : decodeHeader message = .ok (some callback)) :
    callback = .headerComplete ∨ callback.kind = .format ∨
      callback.kind = .definition := by
  unfold decodeHeader at returned
  cases read : readUInt8 message 2 with
  | error stop => rw [read] at returned; cases returned
  | ok msgType =>
      rw [read, ok_bind] at returned
      exact headerCall_kind returned

theorem decodeData_kind {message : Bytes} {callback : Callback}
    (returned : decodeData message = .ok (some callback)) :
    callback.kind = .definition ∨ callback.kind = .data := by
  unfold decodeData at returned
  cases read : readUInt8 message 2 with
  | error stop => rw [read] at returned; cases returned
  | ok msgType =>
      rw [read, ok_bind] at returned
      exact dataCall_kind returned

theorem decodeHeader_eq {message : Bytes} (sized : 3 ≤ message.length) :
    decodeHeader message =
      headerCall message (ULogMessageType.ofCode? (msgType message)) := by
  unfold decodeHeader
  rw [readUInt8_msgType sized, ok_bind]

theorem decodeData_eq {message : Bytes} (sized : 3 ≤ message.length) :
    decodeData message =
      dataCall message (ULogMessageType.ofCode? (msgType message)) := by
  unfold decodeData
  rw [readUInt8_msgType sized, ok_bind]

/-! ## Delivery in terms of decoding -/

section Deliver

variable {message : Bytes} {delivery : Delivery σ}

@[simp] theorem call_state (callback : Callback) (delivery : Delivery σ) :
    (call handler callback delivery).2.state = delivery.state := rfl

theorem call_accepted {callback : Callback} {delivery : Delivery σ}
    (accepts : handler.Accepts callback) :
    (call handler callback delivery).1 = .ok () := by
  obtain ⟨reached, returned⟩ := accepts delivery.handler
  unfold call
  rw [returned]
  rfl

theorem deliver_readHeader (header : delivery.state = .readHeader) :
    deliver handler message delivery =
      (do
        Exec.lift (decodeHeader message) >>= react handler
        inState .readData (readDataMessage handler message)) delivery := by
  unfold deliver
  have entered : inState .readHeader (readHeaderMessage handler message)
      delivery = readHeaderMessage handler message delivery := by
    unfold inState
    rw [Exec.get_bind_apply, if_pos header]
  rw [Exec.bind_apply, entered, readHeaderMessage_eq, ← Exec.bind_apply]

theorem inState_skip {state : State} (other : delivery.state ≠ state)
    (program : Exec Stop (Delivery σ) Unit) :
    inState state program delivery = (.ok (), delivery) := by
  unfold inState
  rw [Exec.get_bind_apply, if_neg other, Exec.pure_apply]

theorem inState_enter {state : State} (same : delivery.state = state)
    (program : Exec Stop (Delivery σ) Unit) :
    inState state program delivery = program delivery := by
  unfold inState
  rw [Exec.get_bind_apply, if_pos same]

theorem deliver_readData (data : delivery.state = .readData) :
    deliver handler message delivery =
      (Exec.lift (decodeData message) >>= react handler) delivery := by
  unfold deliver
  rw [Exec.bind_ok (inState_skip (by rw [data]; nofun) _), inState_enter data,
    readDataMessage_eq]

theorem deliver_elsewhere (noHeader : delivery.state ≠ .readHeader)
    (noData : delivery.state ≠ .readData) :
    deliver handler message delivery = (.ok (), delivery) := by
  unfold deliver
  rw [Exec.bind_ok (inState_skip noHeader _), inState_skip noData]

end Deliver

/-! ## The calls for a message -/

def answer : Except Stop (Option Callback) → List Callback
  | .ok (some callback) => [callback]
  | _ => []

/-- The calls that a message leads to in a state when nothing is thrown. -/
def callbacks : State → Bytes → List Callback
  | .readHeader, message =>
      match decodeHeader message with
      | .ok (some .headerComplete) =>
          .headerComplete :: answer (decodeData message)
      | outcome => answer outcome
  | .readData, message => answer (decodeData message)
  | _, _ => []

def nextState : State → Bytes → State
  | .readHeader, message =>
      match decodeHeader message with
      | .ok (some .headerComplete) => .readData
      | _ => .readHeader
  | state, _ => state

def Decodes : State → Bytes → Prop
  | .readHeader, message =>
      match decodeHeader message with
      | .ok (some .headerComplete) => ∃ call, decodeData message = .ok call
      | outcome => ∃ call, outcome = .ok call
  | .readData, message => ∃ call, decodeData message = .ok call
  | _, _ => True

/-- How far the delivery of a message has come. Only a throwing `headerComplete`
leaves a call out. -/
structure Progress (state : State) (message : Bytes) (before : List Callback)
    (outcome : Except Stop Unit × Delivery σ) : Prop where
  state_eq : outcome.2.state = nextState state message
  calls_eq : outcome.2.calls = before ++ callbacks state message ∨
    outcome.1 ≠ .ok () ∧ outcome.2.calls = before ++ [.headerComplete] ∧
      ∃ rest, callbacks state message = .headerComplete :: rest

theorem react_calls (callback : Option Callback) (delivery : Delivery σ) :
    (react handler callback delivery).2.calls =
      delivery.calls ++ answer (.ok callback) := by
  rcases callback with _ | callback
  · exact (List.append_nil _).symm
  · cases callback <;> rfl

theorem decoded_calls (decoding : Except Stop (Option Callback))
    (delivery : Delivery σ) :
    ((Exec.lift decoding >>= react handler) delivery).2.calls =
      delivery.calls ++ answer decoding := by
  cases decoding with
  | error stop => exact (List.append_nil _).symm
  | ok callback => exact react_calls callback delivery

theorem react_data_state {callback : Option Callback} {delivery : Delivery σ}
    (data : delivery.state = .readData) :
    (react handler callback delivery).2.state = .readData := by
  rcases callback with _ | callback
  · exact data
  · cases callback <;> first | exact data | rfl

section Header

variable {message : Bytes} {delivery : Delivery σ}

theorem header_ordinary {answered : Except Stop (Option Callback)}
    (decided : decodeHeader message = answered)
    (ordinary : answered ≠ .ok (some .headerComplete)) :
    callbacks .readHeader message = answer answered ∧
      nextState .readHeader message = .readHeader ∧
      (Decodes .readHeader message ↔ ∃ call, answered = .ok call) := by
  simp only [callbacks, nextState, Decodes, decided, and_self]

theorem header_complete
    (decided : decodeHeader message = .ok (some .headerComplete)) :
    callbacks .readHeader message =
        .headerComplete :: answer (decodeData message) ∧
      nextState .readHeader message = .readData ∧
      (Decodes .readHeader message ↔
        ∃ call, decodeData message = .ok call) := by
  simp only [callbacks, nextState, Decodes, decided, true_and]

theorem deliver_ordinary {answered : Except Stop (Option Callback)}
    (header : delivery.state = .readHeader)
    (decided : decodeHeader message = answered)
    (ordinary : answered ≠ .ok (some .headerComplete)) :
    deliver handler message delivery =
        (Exec.lift answered >>= react handler) delivery ∧
      (deliver handler message delivery).2.state = .readHeader := by
  have kept : ((Exec.lift answered >>= react handler) delivery).2.state =
      .readHeader := by
    rcases answered with stop | _ | callback
    · exact header
    · exact header
    · have reacts := @react_of_ne σ handler callback fun same =>
        ordinary (by rw [same])
      rw [Exec.lift_ok_bind, reacts, call_state, header]
  have same : deliver handler message delivery =
      (Exec.lift answered >>= react handler) delivery := by
    rw [deliver_readHeader header, decided]
    rcases ran : (Exec.lift answered >>= react handler) delivery with
      ⟨stop | _, reached⟩
    · exact Exec.bind_error ran _
    · rw [ran] at kept
      rw [Exec.bind_ok ran, inState_skip (by rw [kept]; nofun)]
  exact ⟨same, same ▸ kept⟩

/-- The message that ends the header is delivered as data after the call of
`headerComplete`. -/
theorem deliver_complete (header : delivery.state = .readHeader)
    (decided : decodeHeader message = .ok (some .headerComplete)) :
    deliver handler message delivery =
      (do
        call handler .headerComplete
        Exec.lift (decodeData message) >>= react handler)
        { delivery with state := .readData } := by
  have reacted : (Exec.lift (decodeHeader message) >>= react handler) delivery =
      call handler .headerComplete { delivery with state := .readData } := by
    rw [decided]
    rfl
  rw [deliver_readHeader header, Exec.bind_apply, reacted, Exec.bind_apply]
  rcases called : call handler .headerComplete
      { delivery with state := .readData } with ⟨stop | _, reached⟩
  · rfl
  · have data : reached.state = .readData :=
      (congrArg (fun outcome => outcome.2.state) called).symm
    simp only [inState_enter data, readDataMessage_eq]

end Header

theorem callbacks_headerComplete {state : State} {rest : List Callback}
    (calls : callbacks state message = .headerComplete :: rest) :
    state = .readHeader ∧ nextState state message = .readData := by
  cases state with
  | readHeader =>
      by_cases ends : decodeHeader message = .ok (some .headerComplete)
      · exact ⟨rfl, (header_complete ends).2.1⟩
      · rw [(header_ordinary rfl ends).1] at calls
        rcases decoded : decodeHeader message with stop | _ | callback
        all_goals
          rw [decoded] at calls ends
          cases calls
        exact absurd rfl ends
  | readData =>
      rcases decoded : decodeData message with stop | _ | callback
      all_goals
        simp only [callbacks, decoded] at calls
        cases calls
      rcases decodeData_kind decoded with kind | kind <;> cases kind
  | readMagic | readFlagBits | invalidData => cases calls

theorem deliver_progress (message : Bytes) (delivery : Delivery σ) :
    Progress delivery.state message delivery.calls
      (deliver handler message delivery) := by
  cases state : delivery.state with
  | readHeader =>
      by_cases ends : decodeHeader message = .ok (some .headerComplete)
      · obtain ⟨expected, next, _⟩ := header_complete ends
        rw [deliver_complete state ends]
        rcases called : call handler .headerComplete
            { delivery with state := .readData } with ⟨stop | _, reached⟩
        all_goals
          have data : reached.state = .readData :=
            (congrArg (fun outcome => outcome.2.state) called).symm
          have first : reached.calls = delivery.calls ++ [.headerComplete] :=
            (congrArg (fun outcome => outcome.2.calls) called).symm
        · rw [Exec.bind_error called]
          exact ⟨data.trans next.symm, .inr ⟨nofun, first, _, expected⟩⟩
        · rw [Exec.bind_ok called]
          refine ⟨?_, .inl ?_⟩
          · rw [next]
            cases decodeData message with
            | error stop => exact data
            | ok callback => exact react_data_state data
          · rw [decoded_calls, first, expected]
            exact List.append_assoc _ _ _
      · obtain ⟨expected, next, _⟩ := header_ordinary rfl ends
        obtain ⟨same, kept⟩ := @deliver_ordinary _ handler _ _ _ state rfl ends
        refine ⟨by rw [kept, next], .inl ?_⟩
        rw [same, decoded_calls, expected]
  | readData =>
      rw [deliver_readData state]
      refine ⟨?_, .inl (decoded_calls _ _)⟩
      cases decodeData message with
      | error stop => exact state
      | ok callback => exact react_data_state state
  | readMagic | readFlagBits | invalidData =>
      rw [deliver_elsewhere (by rw [state]; nofun) (by rw [state]; nofun)]
      exact ⟨state, .inl (List.append_nil _).symm⟩

/-- A handler that accepts every call lets a message through exactly when the
constructors do. -/
theorem deliver_accepted {message : Bytes} {delivery : Delivery σ}
    (accepts : ∀ callback, handler.Accepts callback)
    (decodes : Decodes delivery.state message) :
    (deliver handler message delivery).1 = .ok () := by
  have reacts : ∀ callback (delivery : Delivery σ),
      (react handler callback delivery).1 = .ok () := by
    intro callback delivery
    rcases callback with _ | callback
    · rfl
    · cases callback <;> exact call_accepted (accepts _)
  cases state : delivery.state with
  | readHeader =>
      rw [state] at decodes
      by_cases ends : decodeHeader message = .ok (some .headerComplete)
      · obtain ⟨answered, decoded⟩ := (header_complete ends).2.2.mp decodes
        have called := @call_accepted _ _ _
          { delivery with state := State.readData }
          (accepts .headerComplete)
        rw [deliver_complete state ends, Exec.bind_apply]
        rcases ran : call handler .headerComplete
            { delivery with state := .readData } with ⟨outcome, reached⟩
        rw [ran] at called
        cases called
        simp only
        rw [decoded, Exec.lift_ok_bind]
        exact reacts answered reached
      · obtain ⟨answered, decoded⟩ := (header_ordinary rfl ends).2.2.mp decodes
        rw [(deliver_ordinary state rfl ends).1, decoded, Exec.lift_ok_bind]
        exact reacts answered delivery
  | readData =>
      rw [state] at decodes
      obtain ⟨answered, decoded⟩ := decodes
      rw [deliver_readData state, decoded, Exec.lift_ok_bind]
      exact reacts answered delivery
  | readMagic | readFlagBits | invalidData =>
      rw [deliver_elsewhere (by rw [state]; nofun) (by rw [state]; nofun)]

/-! ## What stops a delivery -/

/-- The message has a key, and the array length in it is rejected. -/
def RejectsKeyOf (message : Bytes) : Option ULogMessageType → Prop
  | some .info | some .parameter => RejectsKey message 1
  | some .infoMultiple | some .parameterDefault => RejectsKey message 2
  | _ => False

/-- A field text that a constructor reaches, in the message and the state
given, has a bad array length. -/
def RejectsField (state : State) (message : Bytes) : Prop :=
  let type := ULogMessageType.ofCode? (msgType message)
  match state with
  | .readHeader => RejectsKeyOf message type ∨
      type = some .format ∧ RejectsFormat message
  | .readData => RejectsKeyOf message type
  | _ => False

theorem decoded_raises {allowed : Exception → Prop} {callback : α → Callback}
    {object : Except Stop α} (raises : Raises allowed object) :
    Raises allowed (decoded callback object) := by
  intro stop stopped
  cases object with
  | ok value => cases stopped
  | error inner =>
      cases stopped
      exact raises stop rfl

theorem headerCall_raises {message : Bytes} (whole : IsMessage message)
    (type : Option ULogMessageType) :
    Raises (fun exception => exception.IsParsing ∨ RejectsKeyOf message type ∨
        type = some .format ∧ RejectsFormat message)
      (headerCall message type) := by
  rcases type with _ | type
  · exact .ok _
  · cases type
    case info | parameter =>
      refine decoded_raises ((MessageInfo.ofMessage_raises whole false).mono ?_)
      exact fun _ => Or.imp_right .inl
    case infoMultiple =>
      refine decoded_raises ((MessageInfo.ofMessage_raises whole true).mono ?_)
      exact fun _ => Or.imp_right .inl
    case parameterDefault =>
      refine decoded_raises ((ParameterDefault.ofMessage_raises whole).mono ?_)
      exact fun _ => Or.imp_right .inl
    case format =>
      refine decoded_raises ((MessageFormat.ofMessage_raises whole).mono ?_)
      exact fun _ => Or.imp_right fun rejected => .inr ⟨rfl, rejected⟩
    all_goals exact .ok _

theorem dataCall_raises {message : Bytes} (whole : IsMessage message)
    (type : Option ULogMessageType) :
    Raises (fun exception => exception.IsParsing ∨ RejectsKeyOf message type)
      (dataCall message type) := by
  rcases type with _ | type
  · exact .ok _
  · cases type
    case info | parameter =>
      exact decoded_raises (MessageInfo.ofMessage_raises whole false)
    case infoMultiple =>
      exact decoded_raises (MessageInfo.ofMessage_raises whole true)
    case parameterDefault =>
      exact decoded_raises (ParameterDefault.ofMessage_raises whole)
    case addLoggedMsg =>
      exact decoded_raises ((AddLoggedMessage.ofMessage_raises whole).mono
        fun _ => .inl)
    case logging =>
      exact decoded_raises ((Logging.ofMessage_raises whole false).mono fun _ => .inl)
    case loggingTagged =>
      exact decoded_raises ((Logging.ofMessage_raises whole true).mono fun _ => .inl)
    case data => exact decoded_raises ((Data.ofMessage_raises whole).mono fun _ => .inl)
    case dropout =>
      exact decoded_raises ((Dropout.ofMessage_raises whole).mono fun _ => .inl)
    case sync => exact decoded_raises ((Sync.ofMessage_raises whole).mono fun _ => .inl)
    all_goals exact .ok _

def ThrowsFrom (handler : DataHandlerInterface σ) (callback : Callback)
    (exception : Exception) : Prop :=
  ∃ state, (handler.call callback state).1 = .error exception

def Throws (handler : DataHandlerInterface σ) (exception : Exception) : Prop :=
  ∃ callback, ThrowsFrom handler callback exception

def MayStop (handler : DataHandlerInterface σ) (state : State) (message : Bytes)
    (stop : Stop) : Prop :=
  ∃ exception, stop = .raised exception ∧
    (exception.IsParsing ∨ RejectsField state message ∨
      Throws handler exception)

theorem call_stops {callback : Callback} {delivery reached : Delivery σ}
    {stop : Stop}
    (stopped : call handler callback delivery = (.error stop, reached)) :
    ∃ exception, stop = .raised exception ∧
      ThrowsFrom handler callback exception := by
  have result : (handler.call callback delivery.handler).1.mapError Stop.raised =
      .error stop := congrArg Prod.fst stopped
  cases called : (handler.call callback delivery.handler).1 with
  | ok value => rw [called] at result; cases result
  | error exception =>
      rw [called] at result
      cases result
      exact ⟨exception, rfl, delivery.handler, called⟩

theorem decoded_stops {decoding : Except Stop (Option Callback)}
    {allowed : Exception → Prop} (raises : Raises allowed decoding)
    {delivery reached : Delivery σ} {stop : Stop}
    (stopped : (Exec.lift decoding >>= react handler) delivery =
      (.error stop, reached)) :
    ∃ exception, stop = .raised exception ∧
      (allowed exception ∨ Throws handler exception) := by
  cases decoding with
  | error inner =>
      cases stopped
      obtain ⟨exception, same, holds⟩ := raises stop rfl
      exact ⟨exception, same, .inl holds⟩
  | ok callback =>
      rw [Exec.lift_ok_bind] at stopped
      have called : ∃ callback start,
          call handler callback start = (.error stop, reached) := by
        rcases callback with _ | callback
        · cases stopped
        · cases callback <;> exact ⟨_, _, stopped⟩
      obtain ⟨_, _, called⟩ := called
      obtain ⟨exception, same, throws⟩ := call_stops called
      exact ⟨exception, same, .inr ⟨_, throws⟩⟩

theorem deliver_stops {message : Bytes} (whole : IsMessage message)
    {delivery reached : Delivery σ} {stop : Stop}
    (stopped : deliver handler message delivery = (.error stop, reached)) :
    MayStop handler delivery.state message stop := by
  have sized := whole.header_le
  have inHeader := headerCall_raises whole
    (ULogMessageType.ofCode? (msgType message))
  have inData := dataCall_raises whole
    (ULogMessageType.ofCode? (msgType message))
  rw [← decodeHeader_eq sized] at inHeader
  rw [← decodeData_eq sized] at inData
  cases state : delivery.state with
  | readHeader =>
      by_cases ends : decodeHeader message = .ok (some .headerComplete)
      · rw [deliver_complete state ends] at stopped
        rcases Exec.bind_eq_error.mp stopped with called | ⟨_, _, _, decoded⟩
        · obtain ⟨exception, same, throws⟩ := call_stops called
          exact ⟨exception, same, .inr (.inr ⟨_, throws⟩)⟩
        · obtain ⟨exception, same, holds | throws⟩ :=
            decoded_stops inData decoded
          · exact ⟨exception, same, holds.imp_right fun rejected =>
              .inl (.inl rejected)⟩
          · exact ⟨exception, same, .inr (.inr throws)⟩
      · rw [(deliver_ordinary state rfl ends).1] at stopped
        obtain ⟨exception, same, holds | throws⟩ :=
          decoded_stops inHeader stopped
        · exact ⟨exception, same, holds.imp_right .inl⟩
        · exact ⟨exception, same, .inr (.inr throws)⟩
  | readData =>
      rw [deliver_readData state] at stopped
      obtain ⟨exception, same, holds | throws⟩ := decoded_stops inData stopped
      · exact ⟨exception, same, holds.imp_right .inl⟩
      · exact ⟨exception, same, .inr (.inr throws)⟩
  | readMagic | readFlagBits | invalidData =>
      rw [deliver_elsewhere (by rw [state]; nofun) (by rw [state]; nofun)]
        at stopped
      cases stopped

theorem headerCall_escapes {message : Bytes} (whole : IsMessage message)
    {type : Option ULogMessageType}
    (rejected : RejectsKeyOf message type ∨
      type = some .format ∧ RejectsFormat message) :
    Escapes (headerCall message type) := by
  rcases rejected with keyed | ⟨rfl, format⟩
  · rcases type with _ | type
    · exact keyed.elim
    · cases type
      case info | parameter =>
        exact (@MessageInfo.ofMessage_escapes message whole false keyed).bind
      case infoMultiple =>
        exact (@MessageInfo.ofMessage_escapes message whole true keyed).bind
      case parameterDefault =>
        exact (ParameterDefault.ofMessage_escapes whole keyed).bind
      all_goals exact keyed.elim
  · exact (MessageFormat.ofMessage_escapes whole format).bind

theorem dataCall_escapes {message : Bytes} (whole : IsMessage message)
    {type : Option ULogMessageType} (rejected : RejectsKeyOf message type) :
    Escapes (dataCall message type) := by
  rcases type with _ | type
  · exact rejected.elim
  · cases type
    case info | parameter =>
      exact (@MessageInfo.ofMessage_escapes message whole false rejected).bind
    case infoMultiple =>
      exact (@MessageInfo.ofMessage_escapes message whole true rejected).bind
    case parameterDefault =>
      exact (ParameterDefault.ofMessage_escapes whole rejected).bind
    all_goals exact rejected.elim

/-- The exception of a rejected array length leaves the `try` block as it is. -/
theorem deliver_escapes {message : Bytes} (whole : IsMessage message)
    {delivery : Delivery σ} (rejected : RejectsField delivery.state message) :
    ∃ exception reached, deliver handler message delivery =
      (.error (.raised exception), reached) ∧ ¬ exception.IsParsing := by
  have sized := whole.header_le
  cases state : delivery.state with
  | readHeader =>
      rw [state] at rejected
      obtain ⟨exception, escapes, foreign⟩ := headerCall_escapes whole rejected
      rw [← decodeHeader_eq sized] at escapes
      refine ⟨exception, delivery, ?_, foreign⟩
      rw [(deliver_ordinary state escapes nofun).1]
      rfl
  | readData =>
      rw [state] at rejected
      obtain ⟨exception, escapes, foreign⟩ := dataCall_escapes whole rejected
      rw [← decodeData_eq sized] at escapes
      refine ⟨exception, delivery, ?_, foreign⟩
      rw [deliver_readData state, escapes]
      rfl
  | readMagic | readFlagBits | invalidData =>
      rw [state] at rejected
      exact rejected.elim

end Delivery

end UlogCpp
