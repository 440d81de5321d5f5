import UlogCpp.Data.Decides
import UlogCpp.SimpleWriter.Padding
import UlogCpp.ZzDataLog.Replay

namespace UlogCpp

/-! The arguments with which `Init` returns in a new file. -/

namespace SimpleWriter

structure Stage (complete : Bool) (names : List Bytes) (simple : SimpleWriter) :
    Prop where
  header : simple.headerComplete = complete
  synced : simple.Synced
  formats : ∀ name, name ∈ simple.formats ↔ name ∈ names

section Stage

variable {self : SimpleWriter} {names : List Bytes} {complete : Bool}
  {matchesField : Bytes → Bool} {regex name : Bytes} {fields : List Field}
  {start size : UInt32}

theorem addSizes_eq_pure (passes : addSizes start fields self = (.ok size, self)) :
    addSizes start fields = pure size := by
  induction fields generalizing start with
  | nil =>
      cases passes
      rfl
  | cons field fields ih =>
      cases known : Field.kBasicTypes.lookup field.type with
      | none =>
          rw [addSizes, known] at passes
          cases passes
      | some unit =>
          by_cases aligned : start % UInt32.ofNat unit = 0
          · rw [addSizes_cons known aligned] at passes
            funext simple
            rw [addSizes_cons known aligned, ih passes]
          · rw [addSizes, known] at passes
            obtain ⟨_, _, passed, _⟩ := Exec.bind_eq_ok.mp passes
            exact absurd aligned (throwUsageIf_eq_ok.mp passed).1

structure Describable (matchesField : Bytes → Bool) (name : Bytes)
    (fields : List Field) : Prop where
  timestamped : fields.head? =
    some { type := ascii "uint64_t", name := ascii "timestamp" }
  named : matchesFormatName name = true
  fieldsNamed : ∀ field ∈ fields, matchesField field.name = true
  sized : ∃ size, addSizes 0 fields = pure size
  fits : ¬ (Message.messageFormat { name, fields }).TooLong

theorem Describable.not_unnamed
    (describable : Describable matchesField name fields) :
    ¬ (name = [] ∨ fields = []) := by
  rintro (unnamed | fieldless)
  · have named := describable.named
    rw [unnamed] at named
    cases named
  · have first := describable.timestamped
    rw [fieldless] at first
    cases first

theorem Stage.handed (stage : Stage complete names self) (message : Message) :
    Stage complete names (self.handed message) :=
  ⟨stage.header, stage.synced, stage.formats⟩

theorem serialize_decides {message : Message} {reached : SimpleWriter}
    {after : SimpleWriter → Prop} (small : message.body.length < 2 ^ 31)
    (holds : after reached) (output : Bytes) :
    Exec.Decides (¬ message.TooLong) after
      ((message.serialize output).1, reached) := by
  by_cases long : message.TooLong
  · rw [Message.serialize_tooLong small long]
    exact fun fits => fits long
  · rw [Message.serialize_returns long]
    exact ⟨long, holds⟩

theorem writeInfo_decides (stage : Stage false names self) {key : Bytes}
    {value : InfoValue}
    (small : (Message.messageInfo (value.messageInfo key) .info).body.length <
      2 ^ 31) :
    Exec.Decides (¬ (Message.messageInfo (value.messageInfo key) .info).TooLong)
      (Stage false names) (Method.writeInfo key value self) := by
  have handed := @onWriter_handed self
    (Writer.Handle.messageInfo (value.messageInfo key))
    (.messageInfo (value.messageInfo key) .info) rfl
  have whole := (Exec.bind_ok (headerOpen_passes stage.header) fun _ => onWriter
    (Writer.Handle.messageInfo (value.messageInfo key))).trans handed
  rw [Method.writeInfo, whole]
  exact serialize_decides small (stage.handed _) _

theorem writeFormat_decides (stage : Stage false names self)
    (small : (Message.messageFormat { name, fields }).body.length < 2 ^ 31) :
    Exec.Decides (Describable matchesField name fields ∧ name ∉ names)
      (Stage false (name :: names))
      (Method.writeFormat matchesField regex name fields self) := by
  rcases writeFormat_cases matchesField regex name fields self with
    ⟨reason, stopped⟩ | ⟨size, checks⟩
  · rw [stopped]
    rintro ⟨⟨timestamped, named, fieldsNamed, ⟨size, sized⟩, fits⟩, fresh⟩
    have checks : FormatChecks matchesField self name fields size :=
      ⟨stage.header, timestamped, (stage.formats name).not.mpr fresh, named,
        fieldsNamed, congrFun sized self⟩
    have returned := Message.serialize_returns fits self.writer.output
    rw [checks.writeFormat, registerFormat_apply stage.synced stage.header]
      at stopped
    obtain ⟨failed, _⟩ := Prod.mk.inj stopped
    cases returned.symm.trans failed
  · rw [checks.writeFormat, registerFormat_apply stage.synced stage.header]
    have entered : Stage false (name :: names)
        { self with formats := self.formats.insert name { messageSize := size } } :=
      ⟨stage.header, stage.synced, fun other => by
        rw [Finmap.mem_insert, stage.formats, List.mem_cons]⟩
    refine (serialize_decides small (entered.handed _) _).congr ?_
    have fresh := (stage.formats name).not.mp checks.fresh
    constructor
    · intro fits
      exact ⟨⟨checks.timestamped, checks.named, checks.fieldsNamed,
        ⟨size, addSizes_eq_pure checks.sized⟩, fits⟩, fresh⟩
    · exact fun both => both.1.fits

theorem headerComplete_decides (stage : Stage false names self) :
    Exec.Decides True (Stage true names) (Method.headerComplete self) := by
  rw [Method.headerComplete, Exec.bind_ok (headerOpen_passes stage.header)]
  exact ⟨trivial, rfl, rfl, stage.formats⟩

/-- The message of a subscription, whose size does not depend on the id. -/
def subscriptionMessage (name : Bytes) : Message :=
  .addLoggedMessage { multiId := 0, msgId := 0, messageName := name }

theorem writeAddLoggedMessage_decides (stage : Stage true names self)
    (known : name ∈ names)
    (small : (subscriptionMessage name).body.length < 2 ^ 31) :
    Exec.Decides (¬ (subscriptionMessage name).TooLong) (Stage true names)
      (Method.writeAddLoggedMessage name 0 self) := by
  obtain ⟨format, found⟩ := Finmap.mem_iff.mp ((stage.formats name).mpr known)
  rw [writeAddLoggedMessage_apply stage.synced stage.header found]
  have length : (Message.addLoggedMessage
      (self.nextSubscription name 0)).body.length =
        (subscriptionMessage name).body.length := by
    rw [subscriptionMessage, Message.length_addLoggedMessage,
      Message.length_addLoggedMessage]
    rfl
  have same : (Message.addLoggedMessage (self.nextSubscription name 0)).TooLong ↔
      (subscriptionMessage name).TooLong := by
    rw [Message.TooLong, Message.TooLong, length]
    rfl
  have entered : Stage true names { self with
      subscriptions := self.subscriptions ++ [⟨format.messageSize⟩] } :=
    ⟨stage.header, stage.synced, stage.formats⟩
  have decided := @serialize_decides
    (.addLoggedMessage (self.nextSubscription name 0)) _ (Stage true names)
    (length.trans_lt small)
    (entered.handed (.addLoggedMessage (self.nextSubscription name 0)))
    self.writer.output
  exact (decided.congr same.not).map _

end Stage

end SimpleWriter

namespace ZzDataLog

open SimpleWriter (Stage Call)

def InStage (complete : Bool) (names : List Bytes) (log : ZzDataLog) : Prop :=
  ∃ writer, log.writer = some writer ∧ Stage complete names (log.core writer)

structure Registrable (struct : StructInfo) : Prop where
  format : SimpleWriter.Describable matchesFieldName struct.messageName
    struct.fields
  subscription : ¬ (SimpleWriter.subscriptionMessage struct.messageName).TooLong

structure Narrow (key keyValue : Bytes) (structs : List StructInfo) : Prop where
  info : (Message.messageInfo
    ((SimpleWriter.InfoValue.string keyValue).messageInfo key)
      .info).body.length < 2 ^ 31
  formats : ∀ struct ∈ structs, (Message.messageFormat
    { name := struct.messageName, fields := struct.fields }).body.length <
      2 ^ 31
  subscriptions : ∀ struct ∈ structs,
    (SimpleWriter.subscriptionMessage struct.messageName).body.length < 2 ^ 31

/-- Arguments of `Init` that pass all checks in a new file. -/
structure Acceptable (key keyValue : Bytes) (structs : List StructInfo) :
    Prop where
  keyed : key ≠ []
  valued : keyValue ≠ []
  info : ¬ (Message.messageInfo
    ((SimpleWriter.InfoValue.string keyValue).messageInfo key) .info).TooLong
  registrable : ∀ struct ∈ structs, Registrable struct
  distinct : (structs.map StructInfo.messageName).Nodup

section Init

variable {log : ZzDataLog} {complete : Bool} {names : List Bytes}
  {structs : List StructInfo} {condition : Prop}

theorem throwUsageIf_decides (refused : Prop) [Decidable refused]
    (reason : Bytes) (log : ZzDataLog) :
    Exec.Decides (¬ refused) (· = log) (throwUsageIf refused reason log) := by
  unfold throwUsageIf
  by_cases held : refused
  · rw [if_pos held]
    exact fun fails => fails held
  · rw [if_neg held]
    exact ⟨held, rfl⟩

theorem shared_decides {call : Call} {method : SimpleWriter.Method α}
    {report : α → Option UInt16} {later : Bool} {others : List Bytes}
    (stage : InStage complete names log)
    (decides : ∀ simple, Stage complete names simple →
      Exec.Decides condition (Stage later others) (method simple)) :
    Exec.Decides condition (InStage later others)
      (shared call method report log) := by
  obtain ⟨writer, has, here⟩ := stage
  have decided := decides _ here
  rw [shared_apply has]
  rcases ran : method (log.core writer) with ⟨exception | value, reached⟩
  · exact decided.of_error ran
  · obtain ⟨holds, next⟩ := decided.of_ok ran
    exact ⟨holds, reached.writer, rfl, next⟩

theorem writeInfo_decides (stage : InStage false names log) {key : Bytes}
    {value : SimpleWriter.InfoValue}
    (small : (Message.messageInfo (value.messageInfo key) .info).body.length <
      2 ^ 31) :
    Exec.Decides (¬ (Message.messageInfo (value.messageInfo key) .info).TooLong)
      (InStage false names) (Method.writeInfo key value log) :=
  shared_decides stage fun _ here =>
    SimpleWriter.writeInfo_decides here small

theorem writeMessageFormat_decides (stage : InStage false names log)
    {name : Bytes} {fields : List Field}
    (small : (Message.messageFormat { name, fields }).body.length < 2 ^ 31) :
    Exec.Decides
      (SimpleWriter.Describable matchesFieldName name fields ∧ name ∉ names)
      (InStage false (name :: names))
      (Method.writeMessageFormat name fields log) :=
  shared_decides stage fun _ here =>
    SimpleWriter.writeFormat_decides here small

theorem headerComplete_decides (stage : InStage false names log) :
    Exec.Decides True (InStage true names) (Method.headerComplete log) :=
  shared_decides stage fun _ here => SimpleWriter.headerComplete_decides here

theorem subscribe_decides (stage : InStage true names log) {name : Bytes}
    (known : name ∈ names)
    (small : (SimpleWriter.subscriptionMessage name).body.length < 2 ^ 31) :
    Exec.Decides (¬ (SimpleWriter.subscriptionMessage name).TooLong)
      (InStage true names) (Method.subscribe name log) := by
  have added := @shared_decides _ _ _ _ _ (.writeAddLoggedMessage name 0) _ some
    _ _ stage fun _ here =>
      SimpleWriter.writeAddLoggedMessage_decides here known small
  refine (added.bind fun id reached next => ?_).congr (and_iff_left trivial)
  exact ⟨trivial, next⟩

theorem InStage.withParams (stage : InStage complete names log)
    (initParams : InitParams) :
    InStage complete names (log.withParams initParams) :=
  stage

theorem throwIfUnnamed_decides (struct : StructInfo) (log : ZzDataLog) :
    Exec.Decides (¬ (struct.messageName = [] ∨ struct.fields = [])) (· = log)
      (Method.throwIfUnnamed struct log) :=
  throwUsageIf_decides _ _ log

def keepFormat (struct : StructInfo) : Method Unit := do
  Method.throwIfUnnamed struct
  Exec.modify fun self =>
    { self with initParams :=
      { self.initParams with
        allStructs := self.initParams.allStructs ++ [struct] } }
  Method.writeMessageFormat struct.messageName struct.fields

theorem keepFormat_decides (stage : InStage false names log)
    {struct : StructInfo}
    (small : (Message.messageFormat
      { name := struct.messageName, fields := struct.fields }).body.length <
        2 ^ 31) :
    Exec.Decides
      (SimpleWriter.Describable matchesFieldName struct.messageName
        struct.fields ∧ struct.messageName ∉ names)
      (InStage false (struct.messageName :: names)) (keepFormat struct log) := by
  refine ((throwIfUnnamed_decides struct log).bind fun _ reached same => ?_).congr
    (and_iff_right_of_imp fun both => both.1.not_unnamed)
  rw [same]
  refine Exec.Decides.modify_bind ?_
  exact writeMessageFormat_decides (stage.withParams _) small

/-- All structs are described, and new to the file one after the other. -/
theorem keepFormats_decides (stage : InStage false names log)
    (small : ∀ struct ∈ structs, (Message.messageFormat
      { name := struct.messageName, fields := struct.fields }).body.length <
        2 ^ 31) :
    Exec.Decides
      ((∀ struct ∈ structs, SimpleWriter.Describable matchesFieldName
          struct.messageName struct.fields) ∧
        (structs.map StructInfo.messageName).Nodup ∧
        ∀ struct ∈ structs, struct.messageName ∉ names)
      (fun reached => ∃ others, InStage false others reached ∧ names ⊆ others ∧
        ∀ struct ∈ structs, struct.messageName ∈ others)
      (structs.forM keepFormat log) := by
  induction structs generalizing names log with
  | nil =>
      exact ⟨⟨List.forall_mem_nil _, List.nodup_nil, List.forall_mem_nil _⟩,
        names, stage, List.Subset.refl _, List.forall_mem_nil _⟩
  | cons struct structs ih =>
      obtain ⟨here, later⟩ := List.forall_mem_cons.mp small
      have whole := (keepFormat_decides stage here).bind fun _ reached next =>
        ih next later
      refine (whole.weaken ?_).congr ?_
      · rintro reached ⟨others, now, covers, all⟩
        obtain ⟨here, earlier⟩ := List.cons_subset.mp covers
        exact ⟨others, now, earlier, List.forall_mem_cons.mpr ⟨here, all⟩⟩
      · simp only [List.map_cons, List.nodup_cons, List.mem_map, List.mem_cons]
        grind

def subscribeNamed (struct : StructInfo) : Method Unit := do
  Method.throwIfUnnamed struct
  Method.subscribe struct.messageName

theorem subscribeNamed_decides (stage : InStage true names log)
    {struct : StructInfo} (known : struct.messageName ∈ names)
    (small : (SimpleWriter.subscriptionMessage
      struct.messageName).body.length < 2 ^ 31) :
    Exec.Decides
      (¬ (struct.messageName = [] ∨ struct.fields = []) ∧
        ¬ (SimpleWriter.subscriptionMessage struct.messageName).TooLong)
      (InStage true names) (subscribeNamed struct log) := by
  refine (throwIfUnnamed_decides struct log).bind fun _ reached same => ?_
  rw [same]
  exact subscribe_decides stage known small

theorem IsNew.inStage (new : IsNew log) : InStage false [] log := by
  obtain ⟨timestampUs, writer⟩ := new.writer
  refine ⟨_, writer, new.headerComplete, ?_, fun name => ?_⟩
  · exact new.headerComplete.symm
  · have none : name ∉ log.formats := by
      rw [new.formats]
      exact Finmap.notMem_empty
    exact iff_of_false none List.not_mem_nil

/-- In a new file, `Init` returns exactly with acceptable arguments. -/
theorem init_decides (new : IsNew log) {key keyValue : Bytes}
    {structs : List StructInfo} (narrow : Narrow key keyValue structs) :
    Exec.Decides (Acceptable key keyValue structs) (fun _ => True)
      (Method.init key keyValue structs log) := by
  have whole : Exec.Decides
      (¬ (key = [] ∨ keyValue = []) ∧
        ¬ (Message.messageInfo
          ((SimpleWriter.InfoValue.string keyValue).messageInfo key)
            .info).TooLong ∧
        ((∀ struct ∈ structs, SimpleWriter.Describable matchesFieldName
            struct.messageName struct.fields) ∧
          (structs.map StructInfo.messageName).Nodup ∧
          ∀ struct ∈ structs, struct.messageName ∉ []) ∧
        True ∧
        ∀ struct ∈ structs,
          ¬ (struct.messageName = [] ∨ struct.fields = []) ∧
            ¬ (SimpleWriter.subscriptionMessage struct.messageName).TooLong)
      (fun _ => True) (Method.init key keyValue structs log) := by
    refine (throwUsageIf_decides (key = [] ∨ keyValue = []) _ log).bind
      fun _ reached same => ?_
    rw [same]
    refine Exec.Decides.modify_bind ?_
    refine (writeInfo_decides (new.inStage.withParams _) narrow.info).bind
      fun _ reached described => ?_
    refine (keepFormats_decides described narrow.formats).bind
      fun _ reached kept => ?_
    obtain ⟨others, described, _, known⟩ := kept
    refine (headerComplete_decides described).bind fun _ reached begun => ?_
    exact (Exec.Decides.forM (fun struct mem _ here =>
      subscribeNamed_decides here (known struct mem)
        (narrow.subscriptions struct mem)) begun).weaken
        fun _ _ => trivial
  refine whole.congr ⟨?_, ?_⟩
  · rintro ⟨some, info, ⟨describable, distinct, _⟩, _, subscribed⟩
    obtain ⟨keyed, valued⟩ := not_or.mp some
    exact ⟨keyed, valued, info, fun struct mem =>
      ⟨describable struct mem, (subscribed struct mem).2⟩, distinct⟩
  · rintro ⟨keyed, valued, info, registrable, distinct⟩
    refine ⟨not_or.mpr ⟨keyed, valued⟩, info, ⟨fun struct mem =>
      (registrable struct mem).format, distinct, fun _ _ => List.not_mem_nil⟩,
      trivial, fun struct mem => ⟨?_, (registrable struct mem).subscription⟩⟩
    exact (registrable struct mem).format.not_unnamed

end Init

end ZzDataLog

end UlogCpp
