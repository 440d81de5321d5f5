import UlogCpp.Messages.Emission
import UlogCpp.SimpleWriter.Run

namespace UlogCpp

/-! What a call on a `SimpleWriter` does when it throws. -/

theorem Message.length_addLoggedMessage (message : AddLoggedMessage) :
    (Message.addLoggedMessage message).body.length =
      3 + message.messageName.length := by
  simp only [Message.body, Message.fixed, Message.pieces, List.length_append,
    List.flatten_singleton, length_leBytes, List.length_singleton]

namespace SimpleWriter

structure Checks (program : Method α) : Prop where
  same : ∀ simple, (program simple).2 = simple
  usage : ∀ {simple exception}, (program simple).1 = .error exception →
    ∃ reason, exception = .usage reason

namespace Checks

variable {self reached : SimpleWriter} {program : Method α}
  {next : α → Method β}

theorem pure (value : α) : Checks (Pure.pure value : Method α) :=
  ⟨fun _ => rfl, nofun⟩

theorem throwUsageIf (condition : Prop) [Decidable condition]
    (reason : Bytes) : Checks (throwUsageIf condition reason) := by
  unfold SimpleWriter.throwUsageIf
  split
  · refine ⟨fun _ => rfl, fun same => ?_⟩
    cases same
    exact ⟨reason, rfl⟩
  · exact .pure ()

theorem get_bind {next : SimpleWriter → Method α}
    (checks : ∀ simple, Checks (next simple)) :
    Checks (Exec.get >>= next) :=
  ⟨fun simple => (checks simple).same simple,
    fun {simple _} failed => (checks simple).usage failed⟩

theorem bind_cases (checks : Checks program) (next : α → Method β)
    (self : SimpleWriter) :
    (∃ reason, (program >>= next) self = (.error (.usage reason), self)) ∨
      ∃ value, program self = (.ok value, self) ∧
        (program >>= next) self = next value self := by
  have same := checks.same self
  rcases ran : program self with ⟨exception | value, reached⟩
  · rw [ran] at same
    cases same
    obtain ⟨reason, is⟩ := checks.usage (congrArg Prod.fst ran)
    rw [Exec.bind_error ran, is]
    exact .inl ⟨reason, rfl⟩
  · rw [ran] at same
    cases same
    exact .inr ⟨value, rfl, Exec.bind_ok ran next⟩

theorem bind (checks : Checks program) (later : ∀ value, Checks (next value)) :
    Checks (program >>= next) := by
  refine ⟨fun self => ?_, fun {self exception} failed => ?_⟩
  · rcases checks.bind_cases next self with ⟨reason, same⟩ | ⟨value, _, same⟩
    · rw [same]
    · rw [same]
      exact (later value).same self
  · rcases checks.bind_cases next self with ⟨reason, same⟩ | ⟨value, _, same⟩
    · rw [same] at failed
      cases failed
      exact ⟨reason, rfl⟩
    · rw [same] at failed
      exact (later value).usage failed

theorem forM {list : List α} {program : α → Method Unit}
    (each : ∀ value, Checks (program value)) : Checks (list.forM program) := by
  induction list with
  | nil => exact .pure ()
  | cons value list ih => exact (each value).bind fun _ => ih

theorem headerOpen : Checks headerOpen :=
  .get_bind fun _ => .throwUsageIf _ _

theorem headerClosed : Checks headerClosed :=
  .get_bind fun _ => .throwUsageIf _ _

theorem addSizes (fields : List Field) (start : UInt32) :
    Checks (addSizes start fields) := by
  induction fields generalizing start with
  | nil => exact .pure start
  | cons field fields ih =>
      unfold SimpleWriter.addSizes
      split
      · refine ⟨fun _ => rfl, fun same => ?_⟩
        cases same
        exact ⟨_, rfl⟩
      · exact (throwUsageIf _ _).bind fun _ => ih _

end Checks

def Synced (self : SimpleWriter) : Prop :=
  self.writer.headerComplete = self.headerComplete

def Call.isRegistration : Call → Bool
  | writeMessageFormat _ _ | writeAddLoggedMessage _ _ => true
  | _ => false

def Call.isData : Call → Bool
  | writeData _ _ => true
  | _ => false

inductive Refused (before after : SimpleWriter) : Call → Exception → Prop
  | checked {call : Call} {reason : Bytes} (same : after = before) :
      Refused before after call (.usage reason)
  | tooLong {call : Call} (plain : call.isRegistration = false)
      (same : after = before) :
      Refused before after call messageTooLong
  | writeMessageFormat {name : Bytes} {fields : List Field} {size : UInt32}
      (fresh : name ∉ before.formats)
      (long : 65535 < (Message.messageFormat { name, fields }).body.length)
      (same : after = { before with
        formats := before.formats.insert name { messageSize := size } }) :
      Refused before after (.writeMessageFormat name fields) messageTooLong
  | writeAddLoggedMessage {name : Bytes} {multiId : UInt8} {format : Format}
      (known : before.formats.lookup name = some format)
      (long : 65535 < 3 + name.length)
      (same : after = { before with
        subscriptions := before.subscriptions ++ [⟨format.messageSize⟩] }) :
      Refused before after (.writeAddLoggedMessage name multiId) messageTooLong

def Attempted (before after : SimpleWriter) (call : Call) :
    Except Exception (Option UInt16) → Prop
  | .ok result => Performed before after call result
  | .error exception => Refused before after call exception

section Attempted

variable {self reached : SimpleWriter} {exception : Exception}

theorem onWriter_error {handle : Writer.Handle} {message : Message}
    (hands : handle self.writer = Writer.emit message.serialize self.writer)
    (failed : (onWriter handle self).1 = .error exception) :
    (onWriter handle self).2 = self ∧ exception = messageTooLong ∧
      (65535 < message.body.length ∨ 255 < message.keyLength) := by
  change (handle self.writer).1 = _ at failed
  change { self with writer := (handle self.writer).2 } = self ∧ _
  rw [hands] at failed ⊢
  obtain ⟨same, is, long⟩ := Message.serialize_error (Prod.ext failed rfl)
  refine ⟨?_, is, long⟩
  exact congrArg (fun output =>
    { self with writer := { self.writer with output } }) same

theorem Checks.refused {call : Call} {checks : Method α} {next : α → Method β}
    (check : Checks checks)
    (later : ∀ value, checks self = (.ok value, self) →
      (next value self).1 = .error exception →
        Refused self (next value self).2 call exception)
    (failed : ((checks >>= next) self).1 = .error exception) :
    Refused self ((checks >>= next) self).2 call exception := by
  rcases check.bind_cases next self with ⟨reason, same⟩ | ⟨value, ran, same⟩
  · rw [same] at failed ⊢
    cases failed
    exact .checked rfl
  · rw [same] at failed ⊢
    exact later value ran failed

theorem onWriter_refused {call : Call} {handle : Writer.Handle}
    {message : Message} (plain : call.isRegistration = false)
    (hands : handle self.writer = Writer.emit message.serialize self.writer)
    (failed : (onWriter handle self).1 = .error exception) :
    Refused self (onWriter handle self).2 call exception := by
  obtain ⟨kept, rfl, _⟩ := onWriter_error hands failed
  exact .tooLong plain kept

theorem writeFormat_refused {matchesField : Bytes → Bool} {regex name : Bytes}
    {fields : List Field} (synced : self.Synced)
    (failed : (Method.writeFormat matchesField regex name fields self).1 =
      .error exception) :
    Refused self (Method.writeFormat matchesField regex name fields self).2
      (.writeMessageFormat name fields) exception := by
  refine Checks.headerOpen.refused (fun _ opened failed => ?_) failed
  have header := (headerOpen_ok opened).1
  refine (Checks.throwUsageIf _ _).refused (fun _ _ failed => ?_) failed
  refine (Checks.throwUsageIf (name ∈ self.formats) _).refused
    (fun _ new failed => ?_) failed
  have fresh := (throwUsageIf_eq_ok.mp new).1
  refine (Checks.throwUsageIf _ _).refused (fun _ _ failed => ?_) failed
  refine (Checks.forM fun _ => .throwUsageIf _ _).refused
    (fun _ _ failed => ?_) failed
  refine (Checks.addSizes fields 0).refused (fun size _ failed => ?_) failed
  have hands : Writer.Handle.messageFormat { name, fields } self.writer =
      Writer.emit (Message.messageFormat { name, fields }).serialize
        self.writer := by
    have still : self.writer.headerComplete = false := synced.trans header
    unfold Writer.Handle.messageFormat
    rw [Exec.get_bind_apply, still]
    rfl
  obtain ⟨kept, rfl, long⟩ := @onWriter_error
    { self with formats := self.formats.insert name { messageSize := size } } _
    _ _ hands failed
  exact .writeMessageFormat fresh (long.resolve_right nofun) kept

theorem writeAddLoggedMessage_refused {name : Bytes} {multiId : UInt8}
    (synced : self.Synced)
    (failed : (Method.writeAddLoggedMessage name multiId self).1 =
      .error exception) :
    Refused self (Method.writeAddLoggedMessage name multiId self).2
      (.writeAddLoggedMessage name multiId) exception := by
  refine Checks.headerClosed.refused (fun _ closed failed => ?_) failed
  have header := (headerClosed_ok closed).1
  rw [Exec.get_bind_apply] at failed ⊢
  cases known : self.formats.lookup name with
  | none =>
      rw [known] at failed
      cases failed
      exact .checked rfl
  | some format =>
      rw [known] at failed
      simp only [Exec.modify_bind_apply] at failed ⊢
      have hands : ∀ addLogged, Writer.Handle.addLoggedMessage addLogged
          self.writer = Writer.emit (Message.addLoggedMessage addLogged).serialize
            self.writer := by
        intro addLogged
        have complete : self.writer.headerComplete = true := synced.trans header
        unfold Writer.Handle.addLoggedMessage
        rw [Exec.get_bind_apply, complete]
        rfl
      obtain stopped | ⟨_, _, _, rest⟩ :=
        Exec.bind_eq_error.mp (Prod.ext failed rfl)
      · obtain ⟨kept, rfl, long⟩ := @onWriter_error
          { self with
            subscriptions := self.subscriptions ++ [⟨format.messageSize⟩] } _
          _ _ (hands _) (congrArg Prod.fst stopped)
        rw [stopped] at kept
        have size := Message.length_addLoggedMessage
          ⟨multiId, UInt16.ofNat self.subscriptions.length, name⟩
        have unfit := long.resolve_right nofun
        rw [size] at unfit
        exact .writeAddLoggedMessage known unfit kept
      · cases rest

theorem report_apply {method : Method α} (report : α → β)
    (self : SimpleWriter) :
    (method >>= fun value => (pure (report value) : Method _)) self =
      ((method self).1.map report, (method self).2) := by
  rw [Exec.bind_apply]
  rcases method self with ⟨_ | _, _⟩ <;> rfl

theorem writeData_refused {id : UInt16} {data : Bytes}
    (failed : (Method.writeData id data self).1 = .error exception) :
    Refused self (Method.writeData id data self).2 (.writeData id data)
      exception := by
  refine Checks.headerClosed.refused (fun _ _ failed => ?_) failed
  rw [Exec.get_bind_apply] at failed ⊢
  cases subscribed : self.subscriptions[id.toNat]? with
  | none =>
      rw [subscribed] at failed
      cases failed
      exact .checked rfl
  | some subscription =>
      rw [subscribed] at failed
      refine (Checks.throwUsageIf _ _).refused (fun _ _ failed => ?_) failed
      exact @onWriter_refused _ _ _ _ (.data _) rfl rfl failed

theorem refused {call : Call} (synced : self.Synced)
    (failed : (perform call self).1 = .error exception) :
    Refused self (perform call self).2 call exception := by
  have reported : ∀ {α : Type} {method : Method α}
      (report : α → Option UInt16),
      perform call = (method >>= fun value => pure (report value)) →
      (∀ {exception}, (method self).1 = .error exception →
        Refused self (method self).2 call exception) →
      Refused self (perform call self).2 call exception := by
    intro α method report same refused
    rw [same, report_apply] at failed ⊢
    rcases ran : (method self).1 with other | value
    · rw [ran] at failed
      cases failed
      exact refused ran
    · rw [ran] at failed
      cases failed
  have written : ∀ {checks : Method Unit} {handle : Writer.Handle}
      {message : Message}, Checks checks →
      handle self.writer = Writer.emit message.serialize self.writer →
      call.isRegistration = false →
      perform call = ((checks >>= fun _ => onWriter handle) >>= fun _ =>
        pure none) →
      Refused self (perform call self).2 call exception := by
    intro checks handle message check hands plain same
    refine reported (fun _ => none) same fun failed => ?_
    exact check.refused (fun _ _ failed => onWriter_refused plain hands failed)
      failed
  cases call with
  | writeInfo key value =>
      exact @written _ _ (.messageInfo (value.messageInfo key) .info)
        .headerOpen rfl rfl rfl
  | writeParameter key value =>
      exact @written _ _ (.messageInfo (value.messageInfo key) .parameter)
        .headerOpen rfl rfl rfl
  | writeMessageFormat name fields =>
      exact reported (fun _ => none) rfl (writeFormat_refused synced)
  | headerComplete =>
      refine reported (fun _ => none) rfl fun failed => ?_
      exact Checks.headerOpen.refused (fun _ _ failed => nomatch failed) failed
  | writeParameterChange key value =>
      exact @written _ _ (.messageInfo (value.messageInfo key) .parameter)
        .headerClosed rfl rfl rfl
  | writeAddLoggedMessage name multiId =>
      exact reported some rfl (writeAddLoggedMessage_refused synced)
  | writeTextMessage level message timestamp =>
      exact @written _ _ (.logging (.ofText level message timestamp))
        .headerClosed rfl rfl rfl
  | writeData id data =>
      exact reported (fun _ => none) rfl writeData_refused

theorem attempted {call : Call} (synced : self.Synced) :
    Attempted self (perform call self).2 call (perform call self).1 := by
  rcases ran : (perform call self).1 with exception | result
  · exact refused synced ran
  · exact performed (Prod.ext ran rfl)

theorem Attempted.synced {call : Call}
    {outcome : Except Exception (Option UInt16)}
    (attempted : Attempted self reached call outcome) (synced : self.Synced) :
    reached.Synced := by
  rcases outcome with exception | result
  · cases attempted with
    | checked same | tooLong plain same => rwa [same]
    | writeMessageFormat fresh long same
    | writeAddLoggedMessage known long same =>
        rw [same]
        exact synced
  · cases attempted with
    | headerComplete same =>
        rw [same]
        rfl
    | writeInfo header emits | writeParameter header emits
    | writeMessageFormat header fresh named fieldsNamed basic sized emits
    | writeParameterChange header emits
    | writeAddLoggedMessage header known emits
    | writeTextMessage header emits
    | writeData header subscribed covered emits =>
        obtain ⟨output, _, rfl⟩ := emits
        exact synced

end Attempted

/-! ## Methods of other classes -/

def Faithful (call : Call) (method : Method α) (report : α → Option UInt16) :
    Prop :=
  ∀ simple : SimpleWriter, simple.Synced →
    Attempted simple (method simple).2 call ((method simple).1.map report)

theorem faithful_of_perform {call : Call} {method : Method α}
    {report : α → Option UInt16}
    (same : perform call = (method >>= fun value => pure (report value))) :
    Faithful call method report := by
  intro simple synced
  have attempted := @attempted simple call synced
  rwa [same, report_apply] at attempted

theorem faithful_writeFormat {matchesField : Bytes → Bool} {regex name : Bytes}
    {fields : List Field}
    (plain : ∀ name, matchesField name = true → 59 ∉ name) :
    Faithful (.writeMessageFormat name fields)
      (Method.writeFormat matchesField regex name fields) fun _ => none := by
  intro simple synced
  cases ran : (Method.writeFormat matchesField regex name fields simple).1 with
  | error exception => exact writeFormat_refused synced ran
  | ok value => exact writeFormat_ok plain (Prod.ext ran rfl)

end SimpleWriter

end UlogCpp
