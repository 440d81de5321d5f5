import UlogCpp.SimpleWriter.Payload

namespace UlogCpp

/-! What a call on a `SimpleWriter` has registered when it throws. -/

namespace Message

def TooLong (message : Message) : Prop :=
  65535 < message.body.length ∨ 255 < message.keyLength

instance (message : Message) : Decidable message.TooLong :=
  inferInstanceAs (Decidable (_ ∨ _))

variable {message : Message}

theorem serialize_tooLong (small : message.body.length < 2 ^ 31)
    (long : message.TooLong) (output : Bytes) :
    message.serialize output = (.error messageTooLong, output) := by
  have checked : 65535 < (intOfSize message.body.length).toInt ∨
      255 < message.keyLength := by
    rw [toInt_intOfSize small]
    exact long.imp_left Int.ofNat_lt.mpr
  rw [body, List.length_append] at checked
  rw [serialize_eq, emitMessage, if_pos checked]
  rfl

theorem serialize_returns (fits : ¬ message.TooLong) (output : Bytes) :
    (message.serialize output).1 = .ok () := by
  obtain ⟨short, keyed⟩ := not_or.mp fits
  have passed : ¬ (65535 < (intOfSize message.body.length).toInt ∨
      255 < message.keyLength) := by
    rw [toInt_intOfSize (by omega)]
    omega
  rw [body, List.length_append] at passed
  rw [serialize_eq, emitMessage, if_neg passed]
  exact congrArg Prod.fst (writePieces_arriving message.pieces _)

end Message

namespace SimpleWriter

section Checks

variable {self : SimpleWriter} {matchesField : Bytes → Bool} {regex name : Bytes}
  {fields : List Field} {size : UInt32}

structure FormatChecks (matchesField : Bytes → Bool) (before : SimpleWriter)
    (name : Bytes) (fields : List Field) (size : UInt32) : Prop where
  header : before.headerComplete = false
  timestamped : fields.head? =
    some { type := ascii "uint64_t", name := ascii "timestamp" }
  fresh : name ∉ before.formats
  named : matchesFormatName name = true
  fieldsNamed : ∀ field ∈ fields, matchesField field.name = true
  sized : addSizes 0 fields before = (.ok size, before)

/-- What `writeMessageFormat` does after its checks. -/
def registerFormat (name : Bytes) (fields : List Field) (size : UInt32) :
    Method Unit := do
  Exec.modify fun self =>
    { self with formats := self.formats.insert name { messageSize := size } }
  onWriter (Writer.Handle.messageFormat { name, fields })

theorem throwUsageIf_ok {condition : Prop} [Decidable condition]
    (fails : ¬ condition) (reason : Bytes) (self : SimpleWriter) :
    throwUsageIf condition reason self = (.ok (), self) :=
  throwUsageIf_eq_ok.mpr ⟨fails, rfl⟩

theorem headerOpen_passes (header : self.headerComplete = false) :
    headerOpen self = (.ok (), self) := by
  apply throwUsageIf_ok
  simp [header]

theorem headerClosed_passes (header : self.headerComplete = true) :
    headerClosed self = (.ok (), self) := by
  apply throwUsageIf_ok
  simp [header]

theorem forM_throwUsageIf {α : Type} {condition : α → Prop}
    [DecidablePred condition] {reason : α → Bytes} {list : List α}
    (fails : ∀ value ∈ list, ¬ condition value) (self : SimpleWriter) :
    (list.forM fun value => throwUsageIf (condition value) (reason value)) self =
      (.ok (), self) := by
  induction list with
  | nil => rfl
  | cons value list ih =>
      apply (Exec.bind_ok (throwUsageIf_ok (fails value List.mem_cons_self) _ _)
        _).trans
      exact ih fun other mem => fails other (List.mem_cons_of_mem _ mem)

theorem FormatChecks.writeFormat
    (checks : FormatChecks matchesField self name fields size) :
    Method.writeFormat matchesField regex name fields self =
      registerFormat name fields size self := by
  obtain ⟨header, timestamped, fresh, named, fieldsNamed, sized⟩ := checks
  apply (Exec.bind_ok (headerOpen_passes header) _).trans
  apply (Exec.bind_ok (throwUsageIf_ok (not_not.mpr timestamped) _ _) _).trans
  rw [Exec.get_bind_apply]
  apply (Exec.bind_ok (throwUsageIf_ok fresh _ _) _).trans
  apply (Exec.bind_ok (throwUsageIf_ok (by simp [named]) _ _) _).trans
  apply (Exec.bind_ok (forM_throwUsageIf
    (fun field mem => by simp [fieldsNamed field mem]) _) _).trans
  exact Exec.bind_ok sized _

def Stopped (self : SimpleWriter) (ran : Except Exception α × SimpleWriter) :
    Prop :=
  ∃ reason, ran = (.error (.usage reason), self)

theorem Checks.stopped_or {checks : Method α} {next : α → Method β}
    {passed : Prop} (check : Checks checks)
    (later : ∀ value, checks self = (.ok value, self) →
      Stopped self (next value self) ∨ passed) :
    Stopped self ((checks >>= next) self) ∨ passed := by
  rcases check.bind_cases next self with ⟨reason, same⟩ | ⟨value, ran, same⟩
  · exact .inl ⟨reason, same⟩
  · rw [same]
    exact later value ran

theorem writeFormat_cases (matchesField : Bytes → Bool) (regex name : Bytes)
    (fields : List Field) (self : SimpleWriter) :
    Stopped self (Method.writeFormat matchesField regex name fields self) ∨
      ∃ size, FormatChecks matchesField self name fields size := by
  refine Checks.headerOpen.stopped_or fun _ opened => ?_
  have header := (headerOpen_ok opened).1
  refine (Checks.throwUsageIf _ _).stopped_or fun _ first => ?_
  have timestamped := not_not.mp (throwUsageIf_eq_ok.mp first).1
  rw [Exec.get_bind_apply]
  refine (Checks.throwUsageIf (name ∈ self.formats) _).stopped_or
    fun _ new => ?_
  have fresh := (throwUsageIf_eq_ok.mp new).1
  refine (Checks.throwUsageIf _ _).stopped_or fun _ matched => ?_
  have named : matchesFormatName name = true := by
    simpa using (throwUsageIf_eq_ok.mp matched).1
  refine (Checks.forM fun _ => .throwUsageIf _ _).stopped_or
    fun _ allMatched => ?_
  have fieldsNamed : ∀ field ∈ fields, matchesField field.name = true := by
    simpa using (forM_throwUsageIf_ok allMatched).1
  refine (Checks.addSizes fields 0).stopped_or fun size sized => ?_
  exact .inr ⟨size, header, timestamped, fresh, named, fieldsNamed, sized⟩

theorem writeAddLoggedMessage_cases (name : Bytes) (multiId : UInt8)
    (self : SimpleWriter) :
    Stopped self (Method.writeAddLoggedMessage name multiId self) ∨
      self.headerComplete = true ∧
        ∃ format, self.formats.lookup name = some format := by
  refine Checks.headerClosed.stopped_or fun _ closed => ?_
  have header := (headerClosed_ok closed).1
  rw [Exec.get_bind_apply]
  cases known : self.formats.lookup name with
  | none => exact .inl ⟨_, rfl⟩
  | some format => exact .inr ⟨header, format, rfl⟩

def handed (message : Message) (self : SimpleWriter) : SimpleWriter :=
  { self with
    writer := { self.writer with
      output := (message.serialize self.writer.output).2 } }

theorem onWriter_handed {handle : Writer.Handle} {message : Message}
    (hands : handle self.writer = Writer.emit message.serialize self.writer) :
    onWriter handle self =
      ((message.serialize self.writer.output).1, self.handed message) := by
  rw [onWriter, Exec.focus, hands]
  rfl

/-- The format is entered before its message is handed over. -/
theorem registerFormat_apply (synced : self.Synced)
    (header : self.headerComplete = false) :
    registerFormat name fields size self =
      (((Message.messageFormat { name, fields }).serialize
          self.writer.output).1,
        handed (.messageFormat { name, fields })
          { self with
            formats := self.formats.insert name { messageSize := size } }) := by
  rw [registerFormat, Exec.modify_bind_apply]
  apply onWriter_handed
  have still : self.writer.headerComplete = false := synced.trans header
  rw [Writer.Handle.messageFormat, Exec.get_bind_apply, still]
  rfl

def nextSubscription (self : SimpleWriter) (name : Bytes) (multiId : UInt8) :
    AddLoggedMessage :=
  ⟨multiId, UInt16.ofNat self.subscriptions.length, name⟩

/-- The subscription is entered before its message is handed over. -/
theorem writeAddLoggedMessage_apply {multiId : UInt8} {format : Format}
    (synced : self.Synced) (header : self.headerComplete = true)
    (known : self.formats.lookup name = some format) :
    Method.writeAddLoggedMessage name multiId self =
      (((Message.addLoggedMessage (self.nextSubscription name multiId)).serialize
          self.writer.output).1.map fun _ =>
            UInt16.ofNat self.subscriptions.length,
        handed (.addLoggedMessage (self.nextSubscription name multiId))
          { self with
            subscriptions :=
              self.subscriptions ++ [⟨format.messageSize⟩] }) := by
  have hands : Writer.Handle.addLoggedMessage
      (self.nextSubscription name multiId) self.writer =
        Writer.emit (Message.addLoggedMessage
          (self.nextSubscription name multiId)).serialize self.writer := by
    have complete : self.writer.headerComplete = true := synced.trans header
    rw [Writer.Handle.addLoggedMessage, Exec.get_bind_apply, complete]
    rfl
  apply (Exec.bind_ok (headerClosed_passes header) _).trans
  rw [Exec.get_bind_apply]
  simp only [known]
  rw [Exec.modify_bind_apply, report_apply]
  exact congrArg (fun ran : Except Exception Unit × SimpleWriter =>
    (ran.1.map fun _ => UInt16.ofNat self.subscriptions.length, ran.2))
    (@onWriter_handed { self with
      subscriptions := self.subscriptions ++ [⟨format.messageSize⟩] } _ _ hands)

end Checks

/-! ## Calls that throw -/

structure Unchanged (before after : SimpleWriter) : Prop where
  headerComplete : after.headerComplete = before.headerComplete
  formats : after.formats = before.formats
  subscriptions : after.subscriptions = before.subscriptions
  output : after.writer.output = before.writer.output

/-- The message that a call hands to its serializer if its checks pass. -/
def messageFor (self : SimpleWriter) : Call → Option Message
  | .writeInfo key value => some (.messageInfo (value.messageInfo key) .info)
  | .writeParameter key value | .writeParameterChange key value =>
      some (.messageInfo (value.messageInfo key) .parameter)
  | .writeMessageFormat name fields => some (.messageFormat { name, fields })
  | .headerComplete => none
  | .writeAddLoggedMessage name multiId =>
      some (.addLoggedMessage (self.nextSubscription name multiId))
  | .writeTextMessage level message timestamp =>
      some (.logging (.ofText level message timestamp))
  | .writeData id data =>
      (self.subscriptions[id.toNat]?).map fun subscription =>
        .data ⟨id, data.take subscription.messageSize.toNat⟩

/-- The size of the message is not narrowed. -/
def Narrow (self : SimpleWriter) (call : Call) : Prop :=
  ∀ message ∈ self.messageFor call, message.body.length < 2 ^ 31

instance (self : SimpleWriter) (call : Call) : Decidable (Narrow self call) :=
  inferInstanceAs (Decidable (∀ _ ∈ self.messageFor call, _))

/-- A call changes nothing if it throws. -/
def FailsClean (self : SimpleWriter) (call : Call) : Prop :=
  ∀ exception, (perform call self).1 = .error exception →
    Unchanged self (perform call self).2

/-- A format or a subscription is registered whose message is too long for the
serializer. -/
inductive Overlong (self : SimpleWriter) : Call → Prop
  | writeMessageFormat {name : Bytes} {fields : List Field} {size : UInt32}
      (checks : FormatChecks matchesFieldName self name fields size)
      (long : (Message.messageFormat { name, fields }).TooLong) :
      Overlong self (.writeMessageFormat name fields)
  | writeAddLoggedMessage {name : Bytes} {multiId : UInt8}
      (header : self.headerComplete = true) (known : name ∈ self.formats)
      (long : (Message.addLoggedMessage
        (self.nextSubscription name multiId)).TooLong) :
      Overlong self (.writeAddLoggedMessage name multiId)

section Failures

variable {self : SimpleWriter} {call : Call}

theorem Unchanged.of_eq {after : SimpleWriter} (same : after = self) :
    Unchanged self after := by
  rw [same]
  exact ⟨rfl, rfl, rfl, rfl⟩

theorem FailsClean.of_ok {result : Option UInt16}
    (returned : (perform call self).1 = .ok result) : FailsClean self call := by
  intro exception failed
  cases returned.symm.trans failed

theorem perform_writeMessageFormat (name : Bytes) (fields : List Field)
    (self : SimpleWriter) :
    perform (.writeMessageFormat name fields) self =
      ((Method.writeMessageFormat name fields self).1.map fun _ => none,
        (Method.writeMessageFormat name fields self).2) :=
  report_apply _ self

theorem perform_writeAddLoggedMessage (name : Bytes) (multiId : UInt8)
    (self : SimpleWriter) :
    perform (.writeAddLoggedMessage name multiId) self =
      ((Method.writeAddLoggedMessage name multiId self).1.map some,
        (Method.writeAddLoggedMessage name multiId self).2) :=
  report_apply _ self

/-- A format whose message is too long is registered all the same. -/
theorem overlong_format {name : Bytes} {fields : List Field} {size : UInt32}
    (synced : self.Synced) (narrow : Narrow self (.writeMessageFormat name fields))
    (checks : FormatChecks matchesFieldName self name fields size)
    (long : (Message.messageFormat { name, fields }).TooLong) :
    (perform (.writeMessageFormat name fields) self).1 =
        .error messageTooLong ∧
      name ∈ (perform (.writeMessageFormat name fields) self).2.formats := by
  rw [perform_writeMessageFormat, Method.writeMessageFormat, checks.writeFormat,
    registerFormat_apply synced checks.header,
    Message.serialize_tooLong (narrow _ rfl) long]
  exact ⟨rfl, Finmap.mem_insert.mpr (.inl rfl)⟩

theorem overlong_subscription {name : Bytes} {multiId : UInt8}
    (synced : self.Synced)
    (narrow : Narrow self (.writeAddLoggedMessage name multiId))
    (header : self.headerComplete = true)
    (known : name ∈ self.formats)
    (long : (Message.addLoggedMessage
      (self.nextSubscription name multiId)).TooLong) :
    (perform (.writeAddLoggedMessage name multiId) self).1 =
        .error messageTooLong ∧
      (perform (.writeAddLoggedMessage name multiId) self).2.subscriptions.length =
        self.subscriptions.length + 1 := by
  obtain ⟨format, found⟩ := Finmap.mem_iff.mp known
  rw [perform_writeAddLoggedMessage, writeAddLoggedMessage_apply synced header found,
    Message.serialize_tooLong (narrow _ rfl) long]
  exact ⟨rfl, List.length_append⟩

theorem failsClean_format_iff {name : Bytes} {fields : List Field}
    (synced : self.Synced)
    (narrow : Narrow self (.writeMessageFormat name fields)) :
    FailsClean self (.writeMessageFormat name fields) ↔
      ¬ Overlong self (.writeMessageFormat name fields) := by
  constructor
  · rintro clean ⟨checks, long⟩
    obtain ⟨failed, entered⟩ := overlong_format synced narrow checks long
    rw [(clean _ failed).formats] at entered
    exact checks.fresh entered
  · intro fits
    rcases writeFormat_cases matchesFieldName (ascii "[a-z0-9_]+") name fields self
      with ⟨reason, stopped⟩ | ⟨size, checks⟩
    · intro exception _
      rw [perform_writeMessageFormat, Method.writeMessageFormat, stopped]
      exact .of_eq rfl
    · have short : ¬ (Message.messageFormat { name, fields }).TooLong :=
        fun long => fits (.writeMessageFormat checks long)
      apply FailsClean.of_ok
      rw [perform_writeMessageFormat, Method.writeMessageFormat,
        checks.writeFormat, registerFormat_apply synced checks.header,
        Message.serialize_returns short]
      rfl

theorem failsClean_subscription_iff {name : Bytes} {multiId : UInt8}
    (synced : self.Synced)
    (narrow : Narrow self (.writeAddLoggedMessage name multiId)) :
    FailsClean self (.writeAddLoggedMessage name multiId) ↔
      ¬ Overlong self (.writeAddLoggedMessage name multiId) := by
  constructor
  · rintro clean (_ | ⟨header, known, long⟩)
    obtain ⟨failed, entered⟩ :=
      overlong_subscription synced narrow header known long
    rw [(clean _ failed).subscriptions] at entered
    exact absurd entered (Nat.succ_ne_self _).symm
  · intro fits
    rcases writeAddLoggedMessage_cases name multiId self with
      ⟨reason, stopped⟩ | ⟨header, format, found⟩
    · intro exception _
      rw [perform_writeAddLoggedMessage, stopped]
      exact .of_eq rfl
    · have short : ¬ (Message.addLoggedMessage
          (self.nextSubscription name multiId)).TooLong := fun long =>
        fits (.writeAddLoggedMessage header
          (Finmap.mem_of_lookup_eq_some found) long)
      apply FailsClean.of_ok
      rw [perform_writeAddLoggedMessage,
        writeAddLoggedMessage_apply synced header found,
        Message.serialize_returns short]
      rfl

/-- A call that throws has changed nothing, except where a format or a
subscription has been registered whose message is too long. -/
theorem failsClean_iff (synced : self.Synced) (narrow : Narrow self call) :
    FailsClean self call ↔ ¬ Overlong self call := by
  have other : call.isRegistration = false → FailsClean self call := by
    intro plain exception failed
    cases refused synced failed with
    | checked same | tooLong _ same => exact .of_eq same
    | writeMessageFormat | writeAddLoggedMessage => cases plain
  cases call with
  | writeMessageFormat name fields => exact failsClean_format_iff synced narrow
  | writeAddLoggedMessage name multiId =>
      exact failsClean_subscription_iff synced narrow
  | writeInfo | writeParameter | headerComplete | writeParameterChange
  | writeTextMessage | writeData => exact iff_of_true (other rfl) nofun

end Failures

/-! ## What is registered is in the log -/

/-- Each format and each subscription has its message in the output. -/
structure Logged (simple : SimpleWriter) : Prop where
  formats : ∀ {name format}, simple.formats.lookup name = some format →
    ∃ fields, format.messageSize.toNat = messageSize fields ∧
      (Message.messageFormat { name, fields }).emitted <:+: simple.writer.output
  subscriptions : ∀ {index}, index < simple.subscriptions.length →
    ∃ name multiId, (Message.addLoggedMessage
      ⟨multiId, UInt16.ofNat index, name⟩).emitted <:+: simple.writer.output

namespace Logged

variable {before after : SimpleWriter} {call : Call}

theorem constructed (timestampUs : UInt64) : Logged (constructed timestampUs) :=
  ⟨nofun, nofun⟩

theorem grow (logged : Logged before) (formats : after.formats = before.formats)
    (subscriptions : after.subscriptions = before.subscriptions)
    (grows : before.writer.output <+: after.writer.output) : Logged after where
  formats found := by
    rw [formats] at found
    obtain ⟨fields, sized, emitted⟩ := logged.formats found
    exact ⟨fields, sized, emitted.trans grows.isInfix⟩
  subscriptions among := by
    rw [subscriptions] at among
    obtain ⟨name, multiId, emitted⟩ := logged.subscriptions among
    exact ⟨name, multiId, emitted.trans grows.isInfix⟩

theorem addFormat (logged : Logged before) {name : Bytes} {fields : List Field}
    {size : UInt32} (sized : size.toNat = messageSize fields)
    (formats : after.formats =
      before.formats.insert name { messageSize := size })
    (subscriptions : after.subscriptions = before.subscriptions)
    (output : after.writer.output = before.writer.output ++
      (Message.messageFormat { name, fields }).emitted) : Logged after := by
  have grows : before.writer.output <+: after.writer.output :=
    ⟨_, output.symm⟩
  constructor
  · intro other format found
    rw [formats, Map.lookup_insert_eq] at found
    split at found
    next same =>
      cases found
      rw [same, output]
      exact ⟨fields, sized, (List.suffix_append _ _).isInfix⟩
    next =>
      obtain ⟨others, othersSized, emitted⟩ := logged.formats found
      exact ⟨others, othersSized, emitted.trans grows.isInfix⟩
  · intro index among
    rw [subscriptions] at among
    obtain ⟨other, multiId, emitted⟩ := logged.subscriptions among
    exact ⟨other, multiId, emitted.trans grows.isInfix⟩

theorem addSubscription (logged : Logged before) {name : Bytes} {multiId : UInt8}
    {subscription : Subscription} (formats : after.formats = before.formats)
    (subscriptions : after.subscriptions =
      before.subscriptions ++ [subscription])
    (output : after.writer.output = before.writer.output ++
      (Message.addLoggedMessage
        ⟨multiId, UInt16.ofNat before.subscriptions.length, name⟩).emitted) :
    Logged after := by
  have grows : before.writer.output <+: after.writer.output :=
    ⟨_, output.symm⟩
  constructor
  · intro other format found
    rw [formats] at found
    obtain ⟨fields, sized, emitted⟩ := logged.formats found
    exact ⟨fields, sized, emitted.trans grows.isInfix⟩
  · intro index among
    rw [subscriptions, List.length_append, List.length_singleton] at among
    rcases Nat.lt_succ_iff_lt_or_eq.mp among with earlier | rfl
    · obtain ⟨other, otherId, emitted⟩ := logged.subscriptions earlier
      exact ⟨other, otherId, emitted.trans grows.isInfix⟩
    · refine ⟨name, multiId, ?_⟩
      rw [output]
      exact (List.suffix_append _ _).isInfix

theorem performed (logged : Logged before) {result : Option UInt16}
    (performed : Performed before after call result) : Logged after := by
  cases performed with
  | writeInfo header emits | writeParameter header emits
  | writeParameterChange header emits | writeTextMessage header emits
  | writeData header subscribed covered emits =>
      have grows := Tabled.emitted emits rfl
      obtain ⟨_, _, rfl⟩ := emits
      exact logged.grow rfl rfl grows
  | headerComplete same =>
      rw [same]
      exact logged.grow rfl rfl (List.prefix_refl _)
  | writeMessageFormat header fresh named fieldsNamed basic sized emits =>
      have output := emits.output.1
      obtain ⟨_, _, rfl⟩ := emits
      exact logged.addFormat sized rfl rfl output
  | writeAddLoggedMessage header known emits =>
      have output := emits.output.1
      obtain ⟨_, _, rfl⟩ := emits
      exact logged.addSubscription rfl rfl output

theorem perform (logged : Logged before) (clean : FailsClean before call) :
    Logged (perform call before).2 := by
  cases ran : (SimpleWriter.perform call before).1 with
  | error exception =>
      have unchanged := clean exception ran
      apply logged.grow unchanged.formats unchanged.subscriptions
      rw [unchanged.output]
  | ok result => exact logged.performed (SimpleWriter.performed (Prod.ext ran rfl))

end Logged

theorem synced_final (timestampUs : UInt64) (calls : List Call) :
    (Exec.final perform calls (constructed timestampUs)).Synced :=
  @Exec.final_invariant _ _ _ _ _ Synced _
    (fun _ synced => (attempted synced).synced synced) _ rfl

/-- In every state that calls lead to, a call that throws has changed nothing,
exactly unless it registers something whose message is too long; and without
such calls all that is registered is in the log. -/
theorem failures_clean (timestampUs : UInt64) (calls : List Call) :
    (∀ call, Narrow (Exec.final perform calls (constructed timestampUs)) call →
      (FailsClean (Exec.final perform calls (constructed timestampUs)) call ↔
        ¬ Overlong (Exec.final perform calls (constructed timestampUs)) call)) ∧
    (Exec.Throughout perform
        (fun self call => Narrow self call ∧ ¬ Overlong self call) calls
        (constructed timestampUs) →
      Logged (Exec.final perform calls (constructed timestampUs))) := by
  constructor
  · intro call narrow
    exact failsClean_iff (synced_final timestampUs calls) narrow
  · intro short
    have kept : ∀ {self call}, call ∈ calls → self.Synced ∧ Logged self →
        Narrow self call ∧ ¬ Overlong self call →
          (SimpleWriter.perform call self).2.Synced ∧
            Logged (SimpleWriter.perform call self).2 := by
      intro self call _ invariant fits
      obtain ⟨synced, logged⟩ := invariant
      exact ⟨(attempted synced).synced synced,
        logged.perform ((failsClean_iff synced fits.1).mpr fits.2)⟩
    have initial : (SimpleWriter.constructed timestampUs).Synced ∧
        Logged (SimpleWriter.constructed timestampUs) :=
      ⟨rfl, .constructed timestampUs⟩
    exact (@Exec.Throughout.final _ _ _ _ _
      (fun self => self.Synced ∧ Logged self) _ _ kept _ initial short).2

def registering : List Call :=
  [.writeMessageFormat [109] [timestampField], .headerComplete,
    .writeAddLoggedMessage [109] 0]

theorem failures_clean_registering :
    (FailsClean (Exec.final perform registering (constructed 0))
        (.writeMessageFormat [109] [timestampField]) ↔
      ¬ Overlong (Exec.final perform registering (constructed 0))
        (.writeMessageFormat [109] [timestampField])) ∧
      Logged (Exec.final perform registering (constructed 0)) := by
  have format : ¬ Overlong (constructed 0)
      (.writeMessageFormat [109] [timestampField]) := by
    rintro (⟨_, long⟩ | _)
    exact absurd long (by decide +kernel)
  have subscription : ¬ Overlong
      (Exec.final perform
        [.writeMessageFormat [109] [timestampField], .headerComplete]
        (constructed 0))
      (.writeAddLoggedMessage [109] 0) := by
    rintro (_ | ⟨_, _, long⟩)
    exact absurd long (by decide +kernel)
  exact ⟨(failures_clean 0 registering).1 _ (by decide +kernel),
    (failures_clean 0 registering).2 ⟨⟨by decide +kernel, format⟩,
      ⟨nofun, nofun⟩, ⟨by decide +kernel, subscription⟩, trivial⟩⟩

def byteField : Field := { type := ascii "uint8_t", name := [97] }

def manyFields (count : Nat) : List Field :=
  timestampField :: List.replicate count byteField

theorem length_manyFields (count : Nat) :
    (Message.messageFormat ⟨[109], manyFields count⟩).body.length =
      21 + count * 10 := by
  have byte : byteField.encode.length = 9 := by decide +kernel
  have bytes : (MessageFormat.encodeFields
      (List.replicate count byteField)).length = count * 10 := by
    induction count with
    | zero => rfl
    | succ count ih =>
        rw [MessageFormat.encodeFields] at ih ⊢
        rw [List.replicate_succ, List.flatMap_cons, List.length_append, ih,
          List.length_append, byte, List.length_singleton]
        omega
  have first : (timestampField.encode ++ [59]).length = 19 := by decide +kernel
  rw [MessageFormat.encodeFields] at bytes
  rw [body_messageFormat, MessageFormat.formatStr, manyFields,
    MessageFormat.encodeFields, List.flatMap_cons, List.length_append,
    List.length_singleton, List.length_cons, List.length_append, bytes, first]
  omega

theorem addSizes_bytes (count : Nat) (start : UInt32) (self : SimpleWriter) :
    ∃ size, addSizes start (List.replicate count byteField) self =
      (.ok size, self) := by
  induction count generalizing start with
  | zero => exact ⟨start, rfl⟩
  | succ count ih =>
      have known : Field.kBasicTypes.lookup byteField.type = some 1 := rfl
      have aligned : start % UInt32.ofNat 1 = 0 := by
        apply UInt32.toNat_inj.mp
        rw [UInt32.toNat_mod]
        exact Nat.mod_one _
      obtain ⟨size, later⟩ := ih (start + 1)
      refine ⟨size, ?_⟩
      rw [List.replicate_succ, addSizes, known]
      exact (Exec.bind_ok (throwUsageIf_ok (not_not.mpr aligned) _ _) _).trans
        later

theorem overlong_fields {count : Nat} (long : 6552 ≤ count) :
    Overlong (constructed 0) (.writeMessageFormat [109] (manyFields count)) := by
  have named : ∀ field ∈ manyFields count,
      matchesFieldName field.name = true := by
    refine List.forall_mem_cons.mpr ⟨by decide, fun field mem => ?_⟩
    rw [List.eq_of_mem_replicate mem]
    decide
  obtain ⟨size, sized⟩ := addSizes_bytes count 8 (constructed 0)
  apply Overlong.writeMessageFormat (@FormatChecks.mk _ _ _ _ size rfl rfl
    Finmap.notMem_empty (by decide) named sized)
  left
  rw [length_manyFields]
  omega

theorem many_fields_not_clean :
    ¬ FailsClean (Exec.final perform [] (constructed 0))
      (.writeMessageFormat [109] (manyFields 6552)) := by
  have narrow : Narrow (constructed 0)
      (.writeMessageFormat [109] (manyFields 6552)) := by
    intro message is
    cases is
    rw [length_manyFields]
    decide
  rw [failsClean_iff (synced_final 0 []) narrow, not_not]
  exact overlong_fields (Nat.le_refl _)

end SimpleWriter

end UlogCpp
