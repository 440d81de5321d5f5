import UlogCpp.SimpleWriter.Written
import UlogCpp.Writer.Copy

namespace UlogCpp

/-! What a `SimpleWriter` has written is what a `DataContainer` holds after it
has been read. -/

namespace DataContainer

open SimpleWriter (Written)

structure Holds (written : Written) (container : DataContainer) : Prop where
  storageConfig : container.storageConfig = .fullLog
  parsingErrors : container.parsingErrors = []
  hadFatalError : container.hadFatalError = false
  messageFormats : ∀ name,
    container.messageFormats.lookup name = written.formats.lookup name
  messageInfo : ∀ key,
    container.messageInfo.lookup key = written.infos.lookup key
  logging : container.logging = written.texts
  subscriptions : ∀ id,
    container.subscriptions.lookup id = written.subscription id

def Keeps (written grown : Written) (callback : Callback) : Prop :=
  ∀ {container}, Holds written container →
    ∃ next, handler.call callback container = (.ok (), next) ∧
      Holds grown next

section Keeps

variable {written : Written}

theorem keeps_headerComplete : Keeps written written .headerComplete :=
  fun holds => ⟨_, rfl, { holds with }⟩

theorem keeps_parameter (parameter : Parameter) :
    Keeps written written (.parameter parameter) := by
  intro container holds
  refine ⟨_, unlessSkipped_fullLog holds.storageConfig _, ?_⟩
  dsimp only
  split <;> exact { holds with }

theorem keeps_messageInfo {info : MessageInfo} (single : info.isMulti = false) :
    Keeps written
      { written with infos := written.infos ++ [(info.field.name, info)] }
      (.messageInfo info) := by
  intro container holds
  refine ⟨_, call_messageInfo holds.storageConfig single, ?_⟩
  exact { holds with
    messageInfo := fun key => by
      rw [Map.lookup_insertNew, Map.lookup_concat, holds.messageInfo] }

theorem keeps_messageFormat {format : MessageFormat}
    (fresh : written.formats.lookup format.name = none)
    (known : ∀ added ∈ written.subscriptions,
      (written.formats.lookup added.2.messageName).isSome = true) :
    Keeps written
      { written with
        formats := written.formats ++ [(format.name, format)] }
      (.messageFormat format) := by
  intro container holds
  have absent := (holds.messageFormats format.name).trans fresh
  refine ⟨_, call_messageFormat absent, ?_⟩
  exact { holds with
    messageFormats := fun name => by
      rw [Map.lookup_insertNew, Map.lookup_concat, holds.messageFormats]
    subscriptions := fun id => by
      rw [holds.subscriptions, Written.subscription_addFormat known] }

theorem keeps_addLoggedMessage {addLogged : AddLoggedMessage}
    (fresh : written.subscriptions.lookup addLogged.msgId = none)
    (unused : ∀ name, written.dataOf addLogged.msgId name = []) :
    Keeps written
      { written with
        subscriptions := written.subscriptions ++
          [(addLogged.msgId, addLogged)] }
      (.addLoggedMessage addLogged) := by
  intro container holds
  have absent : container.subscriptions.lookup addLogged.msgId = none := by
    rw [holds.subscriptions, Written.subscription, fresh]
    rfl
  refine ⟨_, call_addLoggedMessage holds.storageConfig absent, ?_⟩
  exact { holds with
    subscriptions := fun id => by
      rw [Map.lookup_insertNew, holds.subscriptions, Written.subscription,
        Written.subscription, Map.lookup_concat, Option.map_or]
      refine congrArg (Option.or _) ?_
      by_cases same : id = addLogged.msgId
      · rw [if_pos same, if_pos same, same]
        exact congrArg (fun data => some (Subscription.mk addLogged data))
          (unused _).symm
      · rw [if_neg same, if_neg same]
        rfl }

theorem keeps_logging (logging : Logging) :
    Keeps written { written with texts := written.texts ++ [logging] }
      (.logging logging) := by
  intro container holds
  refine ⟨_, call_logging holds.storageConfig logging, ?_⟩
  exact { holds with logging := by rw [holds.logging] }

theorem keeps_data {id : UInt16} {data : Bytes} {added : AddLoggedMessage}
    (found : written.subscriptions.lookup id = some added) :
    Keeps written { written with samples := written.samples ++ [(id, data)] }
      (.data ⟨id, data.take (written.sizeOf added.messageName)⟩) := by
  intro container holds
  have subscribed := holds.subscriptions id
  rw [Written.subscription, found] at subscribed
  refine ⟨_, call_data holds.storageConfig subscribed, ?_⟩
  exact { holds with
    subscriptions := fun other => by
      rw [Map.lookup_insert_eq, holds.subscriptions, Written.subscription,
        Written.subscription]
      simp only [Written.dataOf_addSample]
      by_cases same : other = id
      · simp only [same, if_true, found, Option.map_some]
      · simp only [same, if_false, List.append_nil] }

theorem Keeps.handOver {written grown : Written} {message : Message}
    {container : DataContainer} (keeps : Keeps written grown message.callback)
    (holds : Holds written container) (state : State) :
    ∃ next,
      (message.handOver state).forM handler.call container =
        (.ok (), next) ∧
      Holds grown next := by
  have single : ∀ {container}, Holds written container →
      ∃ next, [message.callback].forM handler.call container =
        (.ok (), next) ∧ Holds grown next := by
    intro container holds
    obtain ⟨next, called, held⟩ := keeps holds
    exact ⟨next, Exec.forM_cons_eq_ok.mpr ⟨next, called, rfl⟩, held⟩
  have completed : ∃ next,
      [.headerComplete, message.callback].forM handler.call container =
        (.ok (), next) ∧ Holds grown next := by
    obtain ⟨middle, complete, held⟩ := keeps_headerComplete holds
    obtain ⟨next, called, held⟩ := single held
    exact ⟨next, Exec.forM_cons_eq_ok.mpr ⟨middle, complete, called⟩, held⟩
  cases state with
  | readHeader =>
      simp only [Message.handOver]
      split
      · exact completed
      · exact single holds
  | readData | readMagic | readFlagBits | invalidData => exact single holds

end Keeps

end DataContainer

namespace SimpleWriter

open DataContainer (Holds Keeps)

structure EndsIn (simple : SimpleWriter) (state : State) : Prop where
  inHeader : simple.headerComplete = false → state = .readHeader
  inData : simple.subscriptions ≠ [] → state = .readData
  either : state = .readHeader ∨ state = .readData

namespace EndsIn

variable {simple middle : SimpleWriter} {state : State} {message : Message}

theorem closed (endsIn : simple.EndsIn state) (writer : Writer) :
    { simple with writer, headerComplete := true }.EndsIn state :=
  { endsIn with inHeader := nofun }

theorem definition (defines : message.isDefinition = true)
    (allowed : simple.headerComplete = false ∨ message.isData = true)
    (header : middle.headerComplete = simple.headerComplete)
    (subscriptions : middle.subscriptions = simple.subscriptions)
    (endsIn : simple.EndsIn state) :
    message.standsIn state = true ∧
      middle.EndsIn (message.nextSection state) := by
  have either : state = .readHeader ∨
      state = .readData ∧ message.isData = true := by
    rcases allowed with incomplete | data
    · exact .inl (endsIn.inHeader incomplete)
    · exact endsIn.either.imp_right fun same => ⟨same, data⟩
  obtain ⟨stands, next⟩ := Message.standsIn_definition defines either
  rw [next]
  refine ⟨stands, ?_, ?_, endsIn.either⟩
  · rw [header]
    exact endsIn.inHeader
  · rw [subscriptions]
    exact endsIn.inData

theorem complete (header : middle.headerComplete = true) :
    middle.EndsIn .readData :=
  ⟨fun incomplete => (by rw [header] at incomplete; cases incomplete),
    fun _ => rfl, .inr rfl⟩

theorem ends (ends : message.endsHeader = true)
    (header : middle.headerComplete = true) (endsIn : simple.EndsIn state) :
    message.standsIn state = true ∧
      middle.EndsIn (message.nextSection state) := by
  obtain ⟨stands, next⟩ := Message.standsIn_ends ends endsIn.either
  rw [next]
  exact ⟨stands, complete header⟩

theorem data (data : message.isData = true)
    (subscribed : simple.subscriptions ≠ [])
    (header : middle.headerComplete = true) (endsIn : simple.EndsIn state) :
    message.standsIn state = true ∧
      middle.EndsIn (message.nextSection state) := by
  obtain rfl := endsIn.inData subscribed
  exact ⟨data, complete header⟩

end EndsIn

/-- The output is a log of the messages. The tables of the writer and, once it
has read the output, the container agree with what has been written. -/
structure Mirrors (timestampUs : UInt64) (written : Written)
    (messages : List Message) (simple : SimpleWriter) : Prop where
  registered : Registered written simple
  endsIn : simple.EndsIn (Message.sectionAfter .readHeader messages)
  arrives : ∃ container,
    Reader.Arrives DataContainer.handler
      (Writer.ofTimestamp_copyable timestampUs).prologue
      { storageConfig := .fullLog } simple.writer.output messages container ∧
    Holds written container

theorem construct_ok (timestampUs : UInt64) :
    Method.construct timestampUs { writer := { output := [] } } =
      (.ok (), { writer := { output :=
        (Writer.ofTimestamp_copyable timestampUs).prologue.toBytes } }) := by
  have serialized :=
    (Writer.ofTimestamp_copyable timestampUs).serialize []
  have written := @Writer.emit_ok _ { output := [] } _ serialized
  exact congrArg (fun outcome =>
    (outcome.1, SimpleWriter.mk outcome.2 false ∅ [])) written

namespace Mirrors

variable {timestampUs : UInt64} {written grown : Written}
  {messages : List Message} {before middle reached : SimpleWriter}
  {message : Message}

theorem constructed (timestampUs : UInt64) :
    Mirrors timestampUs {} [] (constructed timestampUs) := by
  have copyable := Writer.ofTimestamp_copyable timestampUs
  have made := construct_ok timestampUs
  refine ⟨.constructed timestampUs, ?_,
    { storageConfig := .fullLog, fileHeader := .ofTimestamp timestampUs false },
    ?_, ?_⟩
  · exact ⟨fun _ => rfl, fun some => absurd rfl some, .inl rfl⟩
  · rw [SimpleWriter.constructed, made]
    refine .opened ?_
    rw [copyable.calls]
    rfl
  · exact ⟨rfl, rfl, rfl, fun _ => rfl, fun _ => rfl, rfl, fun _ => rfl⟩

theorem emit (mirrors : Mirrors timestampUs written messages before)
    (emits : Emits message middle reached)
    (same : middle.writer = before.writer)
    (typed : message.Typed) (encodable : message.Encodable)
    (small : message.body.length < 2 ^ 31)
    (stands : ∀ {state}, before.EndsIn state →
      message.standsIn state = true ∧
        middle.EndsIn (message.nextSection state))
    (keeps : Keeps written grown message.callback)
    (registered : Registered grown middle) :
    Mirrors timestampUs grown (messages ++ [message]) reached := by
  obtain ⟨_, endsIn, container, arrives, holds⟩ := mirrors
  obtain ⟨output, serialized, rfl⟩ := emits
  rw [same] at serialized
  obtain ⟨rfl, sized, keyed⟩ := Message.serialize_ok small serialized
  obtain ⟨taken, ends⟩ := stands endsIn
  obtain ⟨next, called, held⟩ := keeps.handOver holds _
  let wire : WireMessage := ⟨message, typed, encodable, sized, keyed⟩
  have arrived := @Reader.Arrives.emit _ _ _ _ _ _ _ _ wire arrives taken called
  refine ⟨{ registered with }, ?_, next, arrived, held⟩
  rw [Message.sectionAfter_concat]
  exact { ends with }

/-- Parameters may be written before and after the header is complete. -/
theorem parameter {key : Bytes} {value : InfoValue}
    (mirrors : Mirrors timestampUs written messages before)
    (allowed : before.headerComplete = false ∨
      (Message.messageInfo (value.messageInfo key) .parameter).isData = true)
    (small : (Message.messageInfo (value.messageInfo key)
      .parameter).body.length < 2 ^ 31)
    (emits : Emits (.messageInfo (value.messageInfo key) .parameter) before
      reached) :
    Mirrors timestampUs written
      (messages ++ [.messageInfo (value.messageInfo key) .parameter])
      reached := by
  refine mirrors.emit emits rfl (.inr (.inr rfl)) (InfoValue.encodable small)
    small (EndsIn.definition rfl allowed rfl rfl) ?_ mirrors.registered
  rw [Message.callback, if_pos ⟨(value.single key).1, rfl⟩]
  exact DataContainer.keeps_parameter _

/-- Each call keeps the mirror, on which the run lemma rests. -/
theorem call {call : Call} {result : Option UInt16}
    (mirrors : Mirrors timestampUs written messages before)
    (sound : Sound before call) (performed : Performed before reached call result) :
    Mirrors timestampUs (written.add (call, result))
      (messages ++ (call.message before).toList) reached := by
  have registered := mirrors.registered
  obtain ⟨admissible, sizeNonzero, small⟩ := sound
  cases performed with
  | @writeInfo key value header emits =>
      have small := small _ rfl
      obtain ⟨single, name⟩ := value.single key
      have keeps := @DataContainer.keeps_messageInfo written _ single
      rw [name] at keeps
      refine mirrors.emit emits rfl (.inr (.inl rfl))
        (InfoValue.encodable small) small
        (EndsIn.definition rfl (.inl header) rfl rfl) ?_ { registered with }
      rw [Message.callback, if_neg (by rintro ⟨_, ⟨⟩⟩)]
      exact keeps
  | @writeParameter key value header emits =>
      exact mirrors.parameter (.inl header) (small _ rfl) emits
  | @writeMessageFormat name fields size header fresh named fieldsNamed basic
      sized emits =>
      have small := small _ rfl
      have nonempty := (@not_mem_of_all _ _ 58 named (by decide)).1
      refine mirrors.emit emits rfl trivial
        (format_encodable named fieldsNamed basic admissible) small
        (EndsIn.definition rfl (.inl header) rfl rfl)
        (DataContainer.keeps_messageFormat (registered.fresh_format fresh)
          registered.known)
        (registered.addFormat nonempty fresh sized)
  | headerComplete same =>
      obtain ⟨_, endsIn, container, arrives, holds⟩ := mirrors
      rw [same, Call.message, Option.toList_none, List.append_nil]
      exact ⟨{ registered with }, endsIn.closed _, container, arrives, holds⟩
  | @writeParameterChange key value header emits =>
      exact mirrors.parameter (.inr rfl) (small _ rfl) emits
  | @writeAddLoggedMessage name multiId format header known emits =>
      obtain ⟨fresh, unused⟩ := registered.fresh_id admissible
      refine mirrors.emit emits rfl trivial ?_ (small _ rfl)
        (EndsIn.ends rfl header)
        (DataContainer.keeps_addLoggedMessage fresh unused)
        (registered.addSubscription admissible known)
      rintro rfl
      have size := registered.formats []
      rw [known, registered.unnamed] at size
      cases size
  | @writeTextMessage level message timestamp header emits =>
      refine mirrors.emit emits rfl trivial admissible
        (small _ rfl) (EndsIn.ends rfl header)
        (DataContainer.keeps_logging _) { registered with }
  | @writeData id data subscription header subscribed covered emits =>
      obtain ⟨added, found, size⟩ := registered.subscribed subscribed
      have keeps := @DataContainer.keeps_data written id data added found
      rw [← size] at keeps
      have given : Call.message before (.writeData id data) =
          some (.data ⟨id, data.take subscription.messageSize.toNat⟩) := by
        rw [Call.message, subscribed]
        rfl
      have nonempty : before.subscriptions ≠ [] := by
        rintro none
        rw [none] at subscribed
        cases subscribed
      rw [given]
      refine mirrors.emit emits rfl trivial ?_ (small _ given)
        (EndsIn.data rfl nonempty header) keeps (registered.addSample subscribed)
      have positive : subscription.messageSize.toNat ≠ 0 := fun zero =>
        sizeNonzero _ subscribed (UInt32.toNat_inj.mp zero)
      have length := List.length_take_of_le covered
      refine List.ne_nil_of_length_pos ?_
      rw [length]
      exact Nat.pos_of_ne_zero positive

theorem run {trace : List (Call × Option UInt16)}
    (run : Exec.Run perform Sound (SimpleWriter.constructed timestampUs) trace
      reached) :
    ∃ messages, Mirrors timestampUs (.ofTrace trace) messages reached := by
  refine @Exec.Run.invariant _ _ _ _ _ _ _ (fun trace reached =>
    ∃ messages, Mirrors timestampUs (.ofTrace trace) messages reached)
    ⟨[], constructed timestampUs⟩ ?_ _ _ run
  rintro trace before after call result ⟨messages, mirrors⟩ sound returned
  rw [Written.ofTrace_concat]
  exact ⟨_, mirrors.call sound (performed returned)⟩

end Mirrors

end SimpleWriter

end UlogCpp
