import UlogCpp.Messages.RoundTrip
import UlogCpp.SimpleWriter.Model

namespace UlogCpp

/-! What a call on a `SimpleWriter` does when it returns. -/

namespace SimpleWriter

/-! ## The size of a message -/

def countedSize (field : Field) : Nat :=
  (if field.arrayLength ≤ 0 then 1 else field.arrayLength.toNatClampNeg) *
    (Field.kBasicTypes.lookup field.type).getD 0

/-- `message_size`: the sizes of the fields, added up as an `unsigned`. -/
def messageSize (fields : List Field) : Nat :=
  (fields.map countedSize).sum % 2 ^ 32

def timestampField : Field :=
  { type := ascii "uint64_t", name := ascii "timestamp" }

/-- A type that is in the table of basic types, so that its text is plain. -/
def IsBasic (field : Field) : Prop :=
  ∃ size, Field.kBasicTypes.lookup field.type = some size

section Inversion

variable {self reached : SimpleWriter}

theorem throwUsageIf_eq_ok {condition : Prop} [Decidable condition]
    {reason : Bytes} :
    throwUsageIf condition reason self = (.ok (), reached) ↔
      ¬ condition ∧ reached = self := by
  unfold throwUsageIf
  by_cases holds : condition
  · rw [if_pos holds]
    exact ⟨nofun, fun passed => absurd holds passed.1⟩
  · rw [if_neg holds]
    exact ⟨fun same => ⟨holds, by cases same; rfl⟩, by rintro ⟨_, rfl⟩; rfl⟩

theorem headerOpen_ok (returned : headerOpen self = (.ok (), reached)) :
    self.headerComplete = false ∧ reached = self := by
  obtain ⟨passed, same⟩ := throwUsageIf_eq_ok.mp returned
  exact ⟨by simpa using passed, same⟩

theorem headerClosed_ok (returned : headerClosed self = (.ok (), reached)) :
    self.headerComplete = true ∧ reached = self := by
  obtain ⟨passed, same⟩ := throwUsageIf_eq_ok.mp returned
  exact ⟨by simpa using passed, same⟩

theorem countedSize_product {field : Field} {size : Nat}
    (known : Field.kBasicTypes.lookup field.type = some size) :
    ((if field.arrayLength ≤ 0 then 1 else field.arrayLength).toUInt32 *
      UInt32.ofNat size).toNat = countedSize field % 2 ^ 32 := by
  rw [UInt32.toNat_mul, UInt32.toNat_ofNat', countedSize, known,
    Option.getD_some, Nat.mul_mod_mod]
  by_cases scalar : field.arrayLength ≤ 0
  · rw [if_pos scalar, if_pos scalar]
    rfl
  · have positive : 0 ≤ field.arrayLength :=
      Int32.le_of_lt (Int32.not_le.mp scalar)
    rw [if_neg scalar, if_neg scalar, Int32.toNat_toUInt32_of_le positive]

theorem addSizes_ok {fields : List Field} {start size : UInt32}
    (returned : addSizes start fields self = (.ok size, reached)) :
    reached = self ∧ (∀ field ∈ fields, IsBasic field) ∧
      size.toNat = (start.toNat + (fields.map countedSize).sum) % 2 ^ 32 := by
  induction fields generalizing start with
  | nil =>
      cases returned
      exact ⟨rfl, nofun, (Nat.mod_eq_of_lt (UInt32.toNat_lt _)).symm⟩
  | cons field fields ih =>
      unfold addSizes at returned
      cases known : Field.kBasicTypes.lookup field.type with
      | none =>
        rw [known] at returned
        cases returned
      | some unit =>
        rw [known] at returned
        obtain ⟨_, _, passed, rest⟩ := Exec.bind_eq_ok.mp returned
        obtain ⟨_, rfl⟩ := throwUsageIf_eq_ok.mp passed
        obtain ⟨same, basic, total⟩ := ih rest
        refine ⟨same, List.forall_mem_cons.mpr ⟨⟨unit, known⟩, basic⟩, ?_⟩
        rw [total, UInt32.toNat_add, countedSize_product known, List.map_cons,
          List.sum_cons]
        omega

theorem forM_throwUsageIf_ok {α : Type} {condition : α → Prop}
    [DecidablePred condition] {reason : α → Bytes} {list : List α}
    (returned : (list.forM fun value =>
      throwUsageIf (condition value) (reason value)) self =
        (.ok (), reached)) :
    (∀ value ∈ list, ¬ condition value) ∧ reached = self := by
  induction list with
  | nil =>
      cases returned
      exact ⟨nofun, rfl⟩
  | cons value list ih =>
      obtain ⟨_, here, later⟩ := Exec.forM_cons_eq_ok.mp returned
      obtain ⟨passed, rfl⟩ := throwUsageIf_eq_ok.mp here
      obtain ⟨others, same⟩ := ih later
      exact ⟨List.forall_mem_cons.mpr ⟨passed, others⟩, same⟩

end Inversion

def Emits (message : Message) (self reached : SimpleWriter) : Prop :=
  ∃ output, message.serialize self.writer.output = (.ok (), output) ∧
    reached = { self with writer := { self.writer with output } }

inductive Performed (self reached : SimpleWriter) :
    Call → Option UInt16 → Prop
  | writeInfo {key : Bytes} {value : InfoValue}
      (header : self.headerComplete = false)
      (emits : Emits (.messageInfo (value.messageInfo key) .info) self
        reached) :
      Performed self reached (.writeInfo key value) none
  | writeParameter {key : Bytes} {value : InfoValue}
      (header : self.headerComplete = false)
      (emits : Emits (.messageInfo (value.messageInfo key) .parameter) self
        reached) :
      Performed self reached (.writeParameter key value) none
  | writeMessageFormat {name : Bytes} {fields : List Field} {size : UInt32}
      (header : self.headerComplete = false)
      (fresh : name ∉ self.formats)
      (named : matchesFormatName name = true)
      (fieldsNamed : ∀ field ∈ fields, 59 ∉ field.name)
      (basic : ∀ field ∈ fields, IsBasic field)
      (sized : size.toNat = messageSize fields)
      (emits : Emits (.messageFormat { name, fields })
        { self with
          formats := self.formats.insert name { messageSize := size } }
        reached) :
      Performed self reached (.writeMessageFormat name fields) none
  | headerComplete
      (same : reached = { self with
        headerComplete := true
        writer := { self.writer with headerComplete := true } }) :
      Performed self reached .headerComplete none
  | writeParameterChange {key : Bytes} {value : InfoValue}
      (header : self.headerComplete = true)
      (emits : Emits (.messageInfo (value.messageInfo key) .parameter) self
        reached) :
      Performed self reached (.writeParameterChange key value) none
  | writeAddLoggedMessage {name : Bytes} {multiId : UInt8} {format : Format}
      (header : self.headerComplete = true)
      (known : self.formats.lookup name = some format)
      (emits : Emits
        (.addLoggedMessage
          ⟨multiId, UInt16.ofNat self.subscriptions.length, name⟩)
        { self with
          subscriptions := self.subscriptions ++ [⟨format.messageSize⟩] }
        reached) :
      Performed self reached (.writeAddLoggedMessage name multiId)
        (some (UInt16.ofNat self.subscriptions.length))
  | writeTextMessage {level : Level} {message : Bytes} {timestamp : UInt64}
      (header : self.headerComplete = true)
      (emits : Emits (.logging (.ofText level message timestamp)) self reached) :
      Performed self reached (.writeTextMessage level message timestamp) none
  | writeData {id : UInt16} {data : Bytes} {subscription : Subscription}
      (header : self.headerComplete = true)
      (subscribed : self.subscriptions[id.toNat]? = some subscription)
      (covered : subscription.messageSize.toNat ≤ data.length)
      (emits : Emits
        (.data ⟨id, data.take subscription.messageSize.toNat⟩) self reached) :
      Performed self reached (.writeData id data) none

section Performed

variable {self reached : SimpleWriter}

theorem not_mem_of_all {name : Bytes} {allowed : UInt8 → Bool} {byte : UInt8}
    (valid : (name != [] && name.all allowed) = true)
    (excluded : allowed byte = false) : name ≠ [] ∧ byte ∉ name := by
  obtain ⟨nonempty, all⟩ := Bool.and_eq_true_iff.mp valid
  refine ⟨by simpa using nonempty, fun mem => ?_⟩
  have permitted := List.all_eq_true.mp all byte mem
  rw [excluded] at permitted
  cases permitted

theorem onWriter_emits {message : Message} {handle : Writer.Handle}
    (hands : ∀ {writer after}, handle writer = (.ok (), after) →
      Writer.emit message.serialize writer = (.ok (), after))
    (returned : onWriter handle self = (.ok (), reached)) :
    Emits message self reached := by
  obtain ⟨outcome, state⟩ := Prod.mk.inj returned
  obtain ⟨output, serialized, same⟩ :=
    Writer.emit_eq_ok (hands (Prod.ext outcome rfl))
  refine ⟨output, serialized, state.symm.trans ?_⟩
  exact congrArg (fun writer => { self with writer }) same

theorem returns_none {method : Method Unit} {result : Option UInt16}
    (returned : (method >>= fun _ => pure none) self = (.ok result, reached)) :
    method self = (.ok (), reached) ∧ result = none := by
  obtain ⟨_, _, first, rest⟩ := Exec.bind_eq_ok.mp returned
  cases rest
  exact ⟨first, rfl⟩

theorem headerOpen_bind {next : Unit → Method α} {result : α}
    (returned : (headerOpen >>= next) self = (.ok result, reached)) :
    self.headerComplete = false ∧ next () self = (.ok result, reached) := by
  obtain ⟨_, _, first, rest⟩ := Exec.bind_eq_ok.mp returned
  obtain ⟨header, rfl⟩ := headerOpen_ok first
  exact ⟨header, rest⟩

theorem headerClosed_bind {next : Unit → Method α} {result : α}
    (returned : (headerClosed >>= next) self = (.ok result, reached)) :
    self.headerComplete = true ∧ next () self = (.ok result, reached) := by
  obtain ⟨_, _, first, rest⟩ := Exec.bind_eq_ok.mp returned
  obtain ⟨header, rfl⟩ := headerClosed_ok first
  exact ⟨header, rest⟩

theorem throwUsageIf_bind {condition : Prop} [Decidable condition]
    {reason : Bytes} {next : Unit → Method α} {result : α}
    (returned : (throwUsageIf condition reason >>= next) self =
      (.ok result, reached)) :
    ¬ condition ∧ next () self = (.ok result, reached) := by
  obtain ⟨_, _, first, rest⟩ := Exec.bind_eq_ok.mp returned
  obtain ⟨passed, rfl⟩ := throwUsageIf_eq_ok.mp first
  exact ⟨passed, rest⟩

theorem forM_throwUsageIf_bind {α β : Type} {list : List α} {condition : α → Prop}
    [DecidablePred condition] {reason : α → Bytes} {next : Unit → Method β}
    {result : β}
    (returned : ((list.forM fun value =>
      throwUsageIf (condition value) (reason value)) >>= next) self =
        (.ok result, reached)) :
    (∀ value ∈ list, ¬ condition value) ∧
      next () self = (.ok result, reached) := by
  obtain ⟨_, _, first, rest⟩ := Exec.bind_eq_ok.mp returned
  obtain ⟨passed, rfl⟩ := forM_throwUsageIf_ok first
  exact ⟨passed, rest⟩

theorem addSizes_bind {α : Type} {fields : List Field} {next : UInt32 → Method α}
    {result : α}
    (returned : (addSizes 0 fields >>= next) self = (.ok result, reached)) :
    ∃ size : UInt32, (∀ field ∈ fields, IsBasic field) ∧
      size.toNat = messageSize fields ∧
      next size self = (.ok result, reached) := by
  obtain ⟨size, _, first, rest⟩ := Exec.bind_eq_ok.mp returned
  obtain ⟨rfl, basic, total⟩ := addSizes_ok first
  refine ⟨size, basic, ?_, rest⟩
  rw [total, messageSize]
  exact congrArg (· % _) (Nat.zero_add _)

theorem writeFormat_ok {matchesField : Bytes → Bool} {regex name : Bytes}
    {fields : List Field}
    (plain : ∀ name, matchesField name = true → 59 ∉ name)
    (returned : Method.writeFormat matchesField regex name fields self =
      (.ok (), reached)) :
    Performed self reached (.writeMessageFormat name fields) none := by
  obtain ⟨header, returned⟩ := headerOpen_bind returned
  obtain ⟨_, returned⟩ := throwUsageIf_bind returned
  rw [Exec.get_bind_apply] at returned
  obtain ⟨fresh, returned⟩ := throwUsageIf_bind returned
  obtain ⟨named, returned⟩ := throwUsageIf_bind returned
  obtain ⟨fieldsNamed, returned⟩ := forM_throwUsageIf_bind returned
  obtain ⟨size, basic, sized, returned⟩ := addSizes_bind returned
  rw [Exec.modify_bind_apply] at returned
  have named' : ∀ field ∈ fields, 59 ∉ field.name := by
    intro field mem
    apply plain
    simpa using fieldsNamed field mem
  exact .writeMessageFormat header fresh (by simpa using named) named' basic sized
    (onWriter_emits Writer.Handle.messageFormat_ok returned)

theorem writeAddLoggedMessage_ok {name : Bytes} {multiId : UInt8}
    {id : UInt16}
    (returned : Method.writeAddLoggedMessage name multiId self =
      (.ok id, reached)) :
    Performed self reached (.writeAddLoggedMessage name multiId) (some id) := by
  obtain ⟨header, returned⟩ := headerClosed_bind returned
  rw [Exec.get_bind_apply] at returned
  cases known : self.formats.lookup name with
  | none =>
      rw [known] at returned
      cases returned
  | some format =>
      rw [known] at returned
      simp only [Exec.modify_bind_apply] at returned
      obtain ⟨_, _, emitted, same⟩ := Exec.bind_eq_ok.mp returned
      cases same
      exact .writeAddLoggedMessage header known
        (onWriter_emits Writer.Handle.addLoggedMessage_ok emitted)

theorem writeData_ok {id : UInt16} {data : Bytes}
    (returned : Method.writeData id data self = (.ok (), reached)) :
    Performed self reached (.writeData id data) none := by
  obtain ⟨header, returned⟩ := headerClosed_bind returned
  rw [Exec.get_bind_apply] at returned
  cases subscribed : self.subscriptions[id.toNat]? with
  | none =>
      rw [subscribed] at returned
      cases returned
  | some subscription =>
      rw [subscribed] at returned
      obtain ⟨large, returned⟩ := throwUsageIf_bind returned
      have covered : subscription.messageSize.toNat ≤ data.length := by
        have enough := UInt32.le_iff_toNat_le.mp (UInt32.not_lt.mp large)
        rw [UInt32.toNat_ofNat'] at enough
        exact Nat.le_trans enough (Nat.mod_le _ _)
      exact .writeData header subscribed covered
        (onWriter_emits (fun handed => handed) returned)

/-- The spec of the calls. -/
theorem performed {call : Call} {result : Option UInt16}
    (returned : perform call self = (.ok result, reached)) :
    Performed self reached call result := by
  cases call with
  | writeInfo key value =>
      obtain ⟨ran, rfl⟩ := returns_none returned
      obtain ⟨header, rest⟩ := headerOpen_bind ran
      refine .writeInfo header (onWriter_emits (fun handed => ?_) rest)
      exact handed
  | writeParameter key value =>
      obtain ⟨ran, rfl⟩ := returns_none returned
      obtain ⟨header, rest⟩ := headerOpen_bind ran
      refine .writeParameter header (onWriter_emits (fun handed => ?_) rest)
      exact handed
  | writeMessageFormat name fields =>
      obtain ⟨ran, rfl⟩ := returns_none returned
      refine writeFormat_ok (fun name matched => ?_) ran
      exact (not_mem_of_all matched (by decide)).2
  | headerComplete =>
      obtain ⟨ran, rfl⟩ := returns_none returned
      obtain ⟨_, rest⟩ := headerOpen_bind ran
      cases rest
      exact .headerComplete rfl
  | writeParameterChange key value =>
      obtain ⟨ran, rfl⟩ := returns_none returned
      obtain ⟨header, rest⟩ := headerClosed_bind ran
      refine .writeParameterChange header
        (onWriter_emits (fun handed => ?_) rest)
      exact handed
  | writeAddLoggedMessage name multiId =>
      obtain ⟨id, _, returned, same⟩ := Exec.bind_eq_ok.mp returned
      cases same
      exact writeAddLoggedMessage_ok returned
  | writeTextMessage level message timestamp =>
      obtain ⟨ran, rfl⟩ := returns_none returned
      obtain ⟨header, rest⟩ := headerClosed_bind ran
      refine .writeTextMessage header
        (onWriter_emits (fun handed => ?_) rest)
      exact handed
  | writeData id data =>
      obtain ⟨ran, rfl⟩ := returns_none returned
      exact writeData_ok ran

end Performed

/-! ## The messages can be read back -/

theorem IsBasic.plain {field : Field} (basic : IsBasic field) :
    32 ∉ field.type ∧ 91 ∉ field.type ∧ 59 ∉ field.type := by
  obtain ⟨size, known⟩ := basic
  obtain ⟨before, after, split, _⟩ := List.lookup_eq_some_iff.mp known
  have entries : ∀ entry ∈ Field.kBasicTypes,
      32 ∉ entry.1 ∧ 91 ∉ entry.1 ∧ 59 ∉ entry.1 := by decide +kernel
  refine entries (field.type, size) ?_
  rw [split]
  exact List.mem_append_right _ List.mem_cons_self

theorem InfoValue.encodable {key : Bytes} {value : InfoValue}
    {type : ULogMessageType}
    (small : (Message.messageInfo (value.messageInfo key) type).body.length <
      2 ^ 31) :
    (Message.messageInfo (value.messageInfo key) type).Encodable := by
  have basic : IsBasic (value.messageInfo key).field := by
    cases value <;> exact ⟨_, rfl⟩
  obtain ⟨noSpace, noBracket, _⟩ := basic.plain
  refine ⟨by cases value <;> nofun, ?_, noSpace, noBracket⟩
  cases value with
  | string text =>
      have short : text.length < 2 ^ 31 := by
        simp only [Message.body, Message.pieces, messageInfo,
          MessageInfo.ofString, List.flatten_cons, List.flatten_nil,
          List.length_append] at small
        omega
      change -1 ≤ (intOfSize text.length).toInt
      rw [toInt_intOfSize short]
      omega
  | int32 | float => exact Int.le_refl _

theorem InfoValue.single (key : Bytes) (value : InfoValue) :
    (value.messageInfo key).isMulti = false ∧
      (value.messageInfo key).field.name = key := by
  cases value <;> exact ⟨rfl, rfl⟩

theorem format_encodable {name : Bytes} {fields : List Field}
    (named : matchesFormatName name = true)
    (fieldsNamed : ∀ field ∈ fields, 59 ∉ field.name)
    (basic : ∀ field ∈ fields, IsBasic field)
    (lengths : ∀ field ∈ fields, -1 ≤ field.arrayLength.toInt) :
    (Message.messageFormat { name, fields }).Encodable := by
  refine ⟨(not_mem_of_all named (by decide)).2, ?_⟩
  intro field mem
  obtain ⟨noSpace, noBracket, noType⟩ := (basic field mem).plain
  exact ⟨⟨lengths field mem, noSpace, noBracket⟩, noType,
    fieldsNamed field mem⟩

/-! ## Array lengths as they are read back -/

/-- The call with negative array lengths as -1. -/
def Call.normal : Call → Call
  | writeMessageFormat name fields =>
      writeMessageFormat name (fields.map Field.normal)
  | call => call

theorem countedSize_normal (field : Field) :
    countedSize field.normal = countedSize field := by
  unfold countedSize Field.normal
  by_cases isArray : 0 ≤ field.arrayLength.toInt
  · simp only [isArray, if_true]
  · have negative : field.arrayLength ≤ 0 :=
      Int32.le_iff_toInt_le.mpr (Int.le_of_lt (Int.not_le.mp isArray))
    simp only [isArray, if_false, negative, if_true]
    rfl

theorem messageSize_normal (fields : List Field) :
    messageSize (fields.map Field.normal) = messageSize fields := by
  unfold messageSize
  rw [List.map_map]
  congr 3
  funext field
  exact countedSize_normal field

/-- Nothing that the writer does depends on how negative an array length is. -/
theorem Performed.normal {self reached : SimpleWriter} {call : Call}
    {result : Option UInt16} (performed : Performed self reached call result) :
    Performed self reached call.normal result := by
  cases performed with
  | @writeMessageFormat name fields size header fresh named fieldsNamed basic
      sized emits =>
      refine .writeMessageFormat header fresh named ?_ ?_
        (sized.trans (messageSize_normal fields).symm) ?_
      · intro field mem
        obtain ⟨before, earlier, rfl⟩ := List.mem_map.mp mem
        exact fieldsNamed before earlier
      · intro field mem
        obtain ⟨before, earlier, rfl⟩ := List.mem_map.mp mem
        exact basic before earlier
      · obtain ⟨output, serialized, same⟩ := emits
        refine ⟨output, ?_, same⟩
        rw [Message.serialize_eq] at serialized ⊢
        simp only [Message.pieces] at serialized ⊢
        rwa [← MessageFormat.formatStr_normal { name, fields }] at serialized
  | writeInfo header emits => exact .writeInfo header emits
  | writeParameter header emits => exact .writeParameter header emits
  | headerComplete same => exact .headerComplete same
  | writeParameterChange header emits =>
      exact .writeParameterChange header emits
  | writeAddLoggedMessage header known emits =>
      exact .writeAddLoggedMessage header known emits
  | writeTextMessage header emits => exact .writeTextMessage header emits
  | writeData header subscribed covered emits =>
      exact .writeData header subscribed covered emits

end SimpleWriter

end UlogCpp
