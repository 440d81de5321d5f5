import UlogCpp.DataContainer.Frame
import UlogCpp.SimpleWriter.Fidelity

namespace UlogCpp

/-! Where the parameters of a log end up in a container. -/

structure Parameters where
  ended : Bool := false
  initial : List (Bytes × Parameter) := []
  changed : List Parameter := []

namespace Parameters

def add (parameters : Parameters) (message : Message) : Parameters :=
  match message.callback with
  | .parameter parameter =>
      if parameters.ended then
        { parameters with changed := parameters.changed ++ [parameter] }
      else
        { parameters with
          initial :=
            parameters.initial ++ [(parameter.field.name, parameter)] }
  | _ =>
      { parameters with ended := parameters.ended || message.endsHeader }

def ofMessages (messages : List Message) : Parameters :=
  messages.foldl add {}

def state (parameters : Parameters) : State :=
  if parameters.ended then .readData else .readHeader

variable {parameters : Parameters} {message : Message}

theorem add_parameter {parameter : Parameter}
    (is : message.callback = .parameter parameter) :
    parameters.add message =
      if parameters.ended then
        { parameters with changed := parameters.changed ++ [parameter] }
      else
        { parameters with
          initial :=
            parameters.initial ++ [(parameter.field.name, parameter)] } := by
  unfold add
  rw [is]

theorem add_other (other : ∀ parameter, message.callback ≠ .parameter parameter) :
    parameters.add message =
      { parameters with ended := parameters.ended || message.endsHeader } := by
  unfold add
  split
  next is => exact absurd is (other _)
  next => rfl

theorem endsHeader_parameter {parameter : Parameter}
    (is : message.callback = .parameter parameter) :
    message.endsHeader = false := by
  cases message with
  | addLoggedMessage | logging => cases is
  | _ => rfl

theorem nextSection_state (parameters : Parameters) (message : Message) :
    message.nextSection parameters.state = (parameters.add message).state := by
  by_cases here : ∃ parameter, message.callback = .parameter parameter
  · obtain ⟨parameter, is⟩ := here
    have stays := endsHeader_parameter is
    rw [add_parameter is]
    unfold state
    cases ended : parameters.ended with
    | true => rfl
    | false =>
        simp only [Message.nextSection, stays, Bool.false_eq_true, if_false]
  · rw [add_other (not_exists.mp here)]
    unfold state
    cases ended : parameters.ended with
    | true => rfl
    | false =>
        cases ends : message.endsHeader <;>
          simp only [Message.nextSection, ends, Bool.or_self, Bool.or_true,
            Bool.false_eq_true, if_true, if_false]

end Parameters

namespace DataContainer

structure Stores (parameters : Parameters) (container : DataContainer) :
    Prop where
  storageConfig : container.storageConfig = .fullLog
  ended : container.headerComplete = parameters.ended
  initial : ∀ key, container.initialParameters.lookup key =
    parameters.initial.lookup key
  changed : container.changedParameters = parameters.changed

namespace Stores

variable {parameters : Parameters} {container final : DataContainer}
  {message : Message}

theorem other {callback : Callback} (stores : Stores parameters container)
    (other : callback ≠ .headerComplete ∧
      (∀ parameter, callback ≠ .parameter parameter) ∧
      ∀ parameter, callback ≠ .parameterDefault parameter) :
    Stores parameters (handler.call callback container).2 := by
  have kept := (call_keepsParameters callback other).outcome container
  obtain ⟨config, ended, _, initial, changed⟩ := ParameterStore.mk.inj kept
  refine ⟨config.trans stores.storageConfig, ended.trans stores.ended,
    fun key => ?_, changed.trans stores.changed⟩
  rw [initial]
  exact stores.initial key

theorem callback (stores : Stores parameters container)
    (stays : message.endsHeader = true → parameters.ended = true) :
    Stores (parameters.add message)
      (handler.call message.callback container).2 := by
  by_cases here : ∃ parameter, message.callback = .parameter parameter
  · obtain ⟨parameter, is⟩ := here
    have called : handler.call (.parameter parameter) container = _ :=
      unlessSkipped_fullLog stores.storageConfig _
    rw [Parameters.add_parameter is, is, called, Exec.modify_apply]
    cases ended : parameters.ended with
    | true =>
        rw [stores.ended, ended]
        exact { stores with
          ended := rfl
          changed := congrArg (· ++ [parameter]) stores.changed }
    | false =>
        rw [stores.ended, ended]
        exact { stores with
          ended := rfl
          initial := fun key => by
            simp only [Bool.false_eq_true, if_false]
            rw [Map.lookup_insertNew, Map.lookup_concat, stores.initial] }
  · have same : (parameters.ended || message.endsHeader) = parameters.ended := by
      cases ends : message.endsHeader with
      | true => rw [stays ends, Bool.or_true]
      | false => exact Bool.or_false _
    rw [Parameters.add_other (not_exists.mp here), same]
    by_cases default : ∃ parameter, message.callback = .parameterDefault parameter
    · obtain ⟨parameter, is⟩ := default
      rw [is]
      exact { stores with }
    · exact stores.other ⟨Delivery.callback_ne_headerComplete message,
        not_exists.mp here, not_exists.mp default⟩

theorem handOver (stores : Stores parameters container)
    (ran : (message.handOver parameters.state).forM handler.call container =
      (.ok (), final)) :
    Stores (parameters.add message) final := by
  have single : ∀ {parameters container},
      Stores parameters container →
      (message.endsHeader = true → parameters.ended = true) →
      [message.callback].forM handler.call container = (.ok (), final) →
      Stores (parameters.add message) final := by
    intro parameters container stores stays ran
    obtain ⟨_, called, same⟩ := Exec.forM_cons_eq_ok.mp ran
    cases same
    have kept := stores.callback stays
    rw [called] at kept
    exact kept
  by_cases opens : parameters.ended = false ∧ message.endsHeader = true
  · obtain ⟨notEnded, ends⟩ := opens
    have handed : message.handOver parameters.state =
        [.headerComplete, message.callback] := by
      simp only [Parameters.state, notEnded, Bool.false_eq_true, if_false,
        Message.handOver, ends, if_true]
    rw [handed] at ran
    obtain ⟨_, complete, ran⟩ := Exec.forM_cons_eq_ok.mp ran
    cases complete
    have completed : Stores { parameters with ended := true }
        { container with headerComplete := true } :=
      { stores with ended := rfl }
    have same : Parameters.add { parameters with ended := true } message =
        parameters.add message := by
      have other : ∀ parameter, message.callback ≠ .parameter parameter :=
        fun parameter is => by
          rw [Parameters.endsHeader_parameter is] at ends
          cases ends
      rw [Parameters.add_other other, Parameters.add_other other, ends,
        Bool.or_true, Bool.or_true]
    rw [← same]
    exact single completed (fun _ => rfl) ran
  · have stays : message.endsHeader = true → parameters.ended = true := by
      intro ends
      exact (Bool.eq_false_or_eq_true _).resolve_right fun notEnded =>
        opens ⟨notEnded, ends⟩
    have handed : message.handOver parameters.state = [message.callback] := by
      unfold Parameters.state
      cases ended : parameters.ended with
      | true => rfl
      | false =>
          have none : message.endsHeader = false :=
            Bool.eq_false_iff.mpr fun ends => opens ⟨ended, ends⟩
          simp only [Bool.false_eq_true, if_false, Message.handOver, none]
    rw [handed] at ran
    exact single stores stays ran

theorem calls {messages : List Message} (stores : Stores parameters container)
    (ran : (Message.calls parameters.state messages).forM handler.call
      container = (.ok (), final)) :
    Stores (messages.foldl Parameters.add parameters) final := by
  induction messages generalizing parameters container with
  | nil =>
      cases ran
      exact stores
  | cons message messages ih =>
      obtain ⟨middle, first, rest⟩ := Exec.forM_append_eq_ok.mp ran
      rw [Parameters.nextSection_state] at rest
      exact ih (stores.handOver first) rest

end Stores

end DataContainer

namespace SimpleWriter

/-! ## The parameters of a run -/

def initialOf (trace : List (Call × Option UInt16)) : List (Bytes × Parameter) :=
  trace.filterMap fun
    | (.writeParameter key value, _) => some (key, value.messageInfo key)
    | _ => none

def changesOf (trace : List (Call × Option UInt16)) : List Parameter :=
  trace.filterMap fun
    | (.writeParameterChange key value, _) => some (value.messageInfo key)
    | _ => none

/-- The container tells the parameters of the run from their changes. -/
structure ReadBack (trace : List (Call × Option UInt16))
    (container : DataContainer) : Prop where
  initial : ∀ key,
    container.initialParameters.lookup key = (initialOf trace).lookup key
  changed : container.changedParameters = changesOf trace

def Call.endsHeader : Call → Bool
  | writeAddLoggedMessage _ _ | writeTextMessage _ _ _ => true
  | _ => false

def Call.isChange : Call → Bool
  | writeParameterChange _ _ => true
  | _ => false

/-- Every change of a parameter comes after a call that ends the header of the
log. -/
def ChangesLate (trace : List (Call × Option UInt16)) : Prop :=
  ∀ before entry after, trace = before ++ entry :: after →
    entry.1.isChange = true → ∃ earlier ∈ before, earlier.1.endsHeader = true

/-- What a reader can make of the calls: `Sound`, for any array lengths. -/
def Sensible (self : SimpleWriter) (call : Call) : Prop :=
  Sound self call.normal

instance (self : SimpleWriter) (call : Call) : Decidable (Sensible self call) :=
  inferInstanceAs (Decidable (Sound _ _))

variable {trace : List (Call × Option UInt16)} {entry : Call × Option UInt16}

theorem initialOf_append (trace more : List (Call × Option UInt16)) :
    initialOf (trace ++ more) = initialOf trace ++ initialOf more :=
  List.filterMap_append

theorem changesOf_append (trace more : List (Call × Option UInt16)) :
    changesOf (trace ++ more) = changesOf trace ++ changesOf more :=
  List.filterMap_append

theorem endsHeader_concat :
    (∃ earlier ∈ trace ++ [entry], earlier.1.endsHeader = true) ↔
      (∃ earlier ∈ trace, earlier.1.endsHeader = true) ∨
        entry.1.endsHeader = true := by
  simp only [List.mem_append, List.mem_singleton, or_and_right, exists_or,
    exists_eq_left]

theorem changesLate_concat :
    ChangesLate (trace ++ [entry]) ↔ ChangesLate trace ∧
      (entry.1.isChange = true →
        ∃ earlier ∈ trace, earlier.1.endsHeader = true) := by
  constructor
  · intro late
    refine ⟨fun before other after split change => ?_, fun change => ?_⟩
    · refine late before other (after ++ [entry]) ?_ change
      rw [split, List.append_assoc, List.cons_append]
    · exact late trace entry [] rfl change
  · rintro ⟨earlier, last⟩ before other after split change
    rcases List.eq_nil_or_concat after with rfl | ⟨after, final, rfl⟩
    · obtain ⟨rfl, same⟩ := List.append_inj' split rfl
      cases same
      exact last change
    · rw [List.concat_eq_append, ← List.cons_append, ← List.append_assoc]
        at split
      obtain ⟨rfl, _⟩ := List.append_inj' split rfl
      exact earlier before other after rfl change

structure Sorts (trace : List (Call × Option UInt16)) (parameters : Parameters)
    (simple : SimpleWriter) : Prop where
  inHeader : simple.headerComplete = false →
    parameters.ended = false ∧ changesOf trace = []
  ended : parameters.ended = true ↔
    ∃ earlier ∈ trace, earlier.1.endsHeader = true
  unchanged : parameters.ended = false → parameters.changed = []
  divided : ∃ early, (early = [] ↔ ChangesLate trace) ∧
    parameters.initial =
      initialOf trace ++ early.map (fun info => (info.field.name, info)) ∧
    changesOf trace = early ++ parameters.changed

namespace Sorts

variable {parameters : Parameters} {before reached : SimpleWriter}

theorem other (sorts : Sorts trace parameters before)
    (plain : initialOf [entry] = [] ∧ changesOf [entry] = [])
    (still : entry.1.isChange = false)
    (header : reached.headerComplete = false →
      before.headerComplete = false ∧ entry.1.endsHeader = false) :
    Sorts (trace ++ [entry])
      { parameters with ended := parameters.ended || entry.1.endsHeader }
      reached where
  inHeader incomplete := by
    obtain ⟨open', stays⟩ := header incomplete
    obtain ⟨notEnded, none⟩ := sorts.inHeader open'
    refine ⟨by rw [notEnded, stays]; rfl, ?_⟩
    rw [changesOf_append, none, plain.2, List.append_nil]
  ended := by
    rw [Bool.or_eq_true, sorts.ended]
    exact endsHeader_concat.symm
  unchanged notEnded := sorts.unchanged (Bool.or_eq_false_iff.mp notEnded).1
  divided := by
    obtain ⟨early, late, initial, changed⟩ := sorts.divided
    refine ⟨early, late.trans ?_, ?_, ?_⟩
    · rw [changesLate_concat, still]
      exact (and_iff_left nofun).symm
    · rw [initialOf_append, plain.1, List.append_nil]
      exact initial
    · rw [changesOf_append, plain.2, List.append_nil]
      exact changed

theorem parameter {key : Bytes} {value : InfoValue}
    (sorts : Sorts trace parameters before)
    (header : before.headerComplete = false) :
    Sorts (trace ++ [(.writeParameter key value, none)])
      { parameters with
        initial := parameters.initial ++ [(key, value.messageInfo key)] }
      reached := by
  obtain ⟨notEnded, none⟩ := sorts.inHeader header
  obtain ⟨early, late, initial, changed⟩ := sorts.divided
  have noChanges : changesOf (trace ++ [(.writeParameter key value, .none)]) =
      [] := by
    rw [changesOf_append, none]
    rfl
  rw [none] at changed
  obtain ⟨rfl, noneChanged⟩ := List.append_eq_nil_iff.mp changed.symm
  refine ⟨fun _ => ⟨notEnded, noChanges⟩, ?_, fun _ => noneChanged, [], ?_, ?_,
    ?_⟩
  · rw [sorts.ended, endsHeader_concat]
    exact (or_iff_left Bool.false_ne_true).symm
  · rw [changesLate_concat]
    exact late.trans (and_iff_left nofun).symm
  · rw [initialOf_append]
    simp only [List.map_nil, List.append_nil] at initial ⊢
    rw [initial]
    rfl
  · rw [noChanges, noneChanged]
    rfl

theorem change {key : Bytes} {value : InfoValue}
    (sorts : Sorts trace parameters before)
    (header : reached.headerComplete = true) :
    Sorts (trace ++ [(.writeParameterChange key value, none)])
      (if parameters.ended then
        { parameters with
          changed := parameters.changed ++ [value.messageInfo key] }
      else
        { parameters with
          initial := parameters.initial ++ [(key, value.messageInfo key)] })
      reached := by
  obtain ⟨early, late, initial, changed⟩ := sorts.divided
  have sameInitial :
      initialOf (trace ++ [(.writeParameterChange key value, none)]) =
        initialOf trace := by
    rw [initialOf_append]
    exact List.append_nil _
  have moreChanges :
      changesOf (trace ++ [(.writeParameterChange key value, none)]) =
        changesOf trace ++ [value.messageInfo key] :=
    changesOf_append _ _
  have sameEnd : (∃ earlier ∈ trace ++ [(.writeParameterChange key value, none)],
      earlier.1.endsHeader = true) ↔ parameters.ended = true := by
    rw [sorts.ended, endsHeader_concat]
    exact or_iff_left Bool.false_ne_true
  have lateNow : ChangesLate
      (trace ++ [(.writeParameterChange key value, none)]) ↔
        ChangesLate trace ∧ parameters.ended = true := by
    rw [changesLate_concat, sorts.ended]
    exact and_congr_right fun _ => forall_prop_of_true rfl
  cases ended : parameters.ended with
  | true =>
      refine ⟨fun open' => ?_, ?_, nofun, early, ?_, ?_, ?_⟩
      · rw [header] at open'
        cases open'
      · exact iff_of_true rfl (sameEnd.mpr ended)
      · rw [lateNow, ended]
        exact late.trans (and_iff_left rfl).symm
      · rw [sameInitial]
        exact initial
      · rw [moreChanges, changed, List.append_assoc]
        rfl
  | false =>
      have unchanged := sorts.unchanged ended
      refine ⟨fun open' => ?_, ?_, fun _ => unchanged,
        early ++ [value.messageInfo key], ?_, ?_, ?_⟩
      · rw [header] at open'
        cases open'
      · refine iff_of_false ?_ fun some => ?_
        · simp only [Bool.false_eq_true, if_false]
          exact id
        · rw [sameEnd, ended] at some
          cases some
      · refine iff_of_false (List.append_ne_nil_of_right_ne_nil _
          (List.cons_ne_nil _ _)) fun all => ?_
        have some := (lateNow.mp all).2
        rw [ended] at some
        cases some
      · simp only [Bool.false_eq_true, if_false]
        rw [sameInitial, initial, List.map_append, List.append_assoc,
          List.map_singleton, (value.single key).2]
      · simp only [Bool.false_eq_true, if_false]
        rw [moreChanges, changed, unchanged, List.append_nil, List.append_nil]

theorem callback_parameter (key : Bytes) (value : InfoValue) :
    (Message.messageInfo (value.messageInfo key) .parameter).callback =
      .parameter (value.messageInfo key) :=
  if_pos ⟨(value.single key).1, rfl⟩

theorem start (timestampUs : UInt64) :
    Sorts [] {} (constructed timestampUs) where
  inHeader _ := ⟨rfl, rfl⟩
  ended := ⟨nofun, fun some => nomatch some.choose_spec.1⟩
  unchanged _ := rfl
  divided := by
    refine ⟨[], iff_of_true rfl fun before entry after split => ?_, rfl, rfl⟩
    exact absurd split.symm (by simp)

theorem call {call : Call} {result : Option UInt16}
    (sorts : Sorts trace parameters before)
    (performed : Performed before reached call result) :
    Sorts (trace ++ [(call, result)])
      ((call.normal.message before).toList.foldl Parameters.add parameters)
      reached := by
  have closed : before.headerComplete = true →
      before.headerComplete = false →
        before.headerComplete = false ∧ call.endsHeader = false := by
    intro header still
    rw [header] at still
    cases still
  cases performed with
  | @writeParameter key value header emits =>
      have notEnded := (sorts.inHeader header).1
      change Sorts _ (parameters.add _) _
      rw [Parameters.add_parameter (callback_parameter key value),
        if_neg (by rw [notEnded]; nofun), (value.single key).2]
      exact sorts.parameter header
  | @writeParameterChange key value header emits =>
      obtain ⟨output, _, rfl⟩ := emits
      change Sorts _ (parameters.add _) _
      rw [Parameters.add_parameter (callback_parameter key value),
        (value.single key).2]
      exact sorts.change header
  | @writeInfo key value header emits =>
      have info : (Message.messageInfo (value.messageInfo key)
          .info).callback = .messageInfo (value.messageInfo key) :=
        if_neg fun both => nomatch both.2
      obtain ⟨output, _, rfl⟩ := emits
      change Sorts _ (parameters.add _) _
      rw [Parameters.add_other (by rw [info]; nofun)]
      exact @other _ (.writeInfo key value, none) _ _ _ sorts ⟨rfl, rfl⟩ rfl
        fun _ => ⟨header, rfl⟩
  | @writeMessageFormat name fields size header fresh named fieldsNamed basic
      sized emits =>
      obtain ⟨output, _, rfl⟩ := emits
      exact @other _ (.writeMessageFormat name fields, none) _ _ _ sorts
        ⟨rfl, rfl⟩ rfl fun _ => ⟨header, rfl⟩
  | headerComplete same =>
      have kept := @other _ (.headerComplete, none) _ _ reached sorts
        ⟨rfl, rfl⟩ rfl (by rw [same]; nofun)
      have none : (parameters.ended || Call.headerComplete.endsHeader) =
        parameters.ended := Bool.or_false _
      rw [none] at kept
      exact kept
  | @writeAddLoggedMessage name multiId format header known emits =>
      obtain ⟨output, _, rfl⟩ := emits
      exact @other _ (.writeAddLoggedMessage name multiId, _) _ _ _ sorts
        ⟨rfl, rfl⟩ rfl (closed header)
  | @writeTextMessage level message timestamp header emits =>
      obtain ⟨output, _, rfl⟩ := emits
      exact @other _ (.writeTextMessage level message timestamp, none) _ _ _
        sorts ⟨rfl, rfl⟩ rfl (closed header)
  | @writeData id data subscription header subscribed covered emits =>
      obtain ⟨output, _, rfl⟩ := emits
      have given : (Call.writeData id data).normal.message before =
          some (.data ⟨id, data.take subscription.messageSize.toNat⟩) :=
        congrArg (Option.map _) subscribed
      rw [given]
      exact @other _ (.writeData id data, none) _ _ _ sorts ⟨rfl, rfl⟩ rfl
        (closed header)

end Sorts

theorem run_sorts {timestampUs : UInt64} {reached : SimpleWriter}
    (run : Exec.Run perform Sensible (constructed timestampUs) trace reached) :
    ∃ written messages, Mirrors timestampUs written messages reached ∧
      Sorts trace (.ofMessages messages) reached := by
  refine @Exec.Run.invariant _ _ _ _ _ _ _ (fun trace reached =>
    ∃ written messages, Mirrors timestampUs written messages reached ∧
      Sorts trace (.ofMessages messages) reached)
    ⟨{}, [], .constructed timestampUs, .start timestampUs⟩ ?_ _ _ run
  rintro trace before after call result ⟨written, messages, mirrors, sorts⟩
    sensible returned
  have performed := performed returned
  refine ⟨_, _, mirrors.call sensible performed.normal, ?_⟩
  rw [Parameters.ofMessages, List.foldl_append]
  exact sorts.call performed

/-- The container of a log tells the changes apart when none came too early. -/
theorem Sorts.readBack_iff {parameters : Parameters} {simple : SimpleWriter}
    {container : DataContainer} (sorts : Sorts trace parameters simple)
    (stores : DataContainer.Stores parameters container) :
    ReadBack trace container ↔ ChangesLate trace := by
  obtain ⟨early, late, initial, changed⟩ := sorts.divided
  rw [← late]
  constructor
  · rintro ⟨_, same⟩
    rw [stores.changed, changed] at same
    have lengths := congrArg List.length same
    rw [List.length_append] at lengths
    exact List.eq_nil_of_length_eq_zero (by omega)
  · rintro rfl
    rw [List.map_nil, List.append_nil] at initial
    refine ⟨fun key => ?_, ?_⟩
    · rw [stores.initial, initial]
    · rw [stores.changed, changed, List.nil_append]

/-- The parameters of a run and their changes are read back as such exactly
when every change comes after a call that ends the header of the log. -/
theorem readChunks_readBack_iff {timestampUs : UInt64} {final : SimpleWriter}
    {first : Bytes} {chunks : List Bytes}
    (run : Exec.Run perform Sensible (constructed timestampUs) trace final)
    (layout : (first :: chunks).flatten = final.writer.output)
    (sized : 59 ≤ first.length) :
    ∃ reached,
      Reader.readChunks DataContainer.handler (first :: chunks)
        (Reader.init { storageConfig := .fullLog }) = (.ok (), reached) ∧
      (ReadBack trace reached.delivery.handler ↔ ChangesLate trace) := by
  obtain ⟨written, messages, mirrors, sorts⟩ := run_sorts run
  obtain ⟨_, _, container, arrives, _⟩ := mirrors
  obtain ⟨reached, reads, rfl⟩ := arrives.readChunks rfl layout sized
  obtain ⟨wires, _, _, _, called⟩ := arrives
  obtain ⟨opened, start, rest⟩ := Exec.forM_append_eq_ok.mp called
  rw [(Writer.ofTimestamp_copyable timestampUs).calls] at start
  obtain ⟨_, handed, same⟩ := Exec.forM_cons_eq_ok.mp start
  cases handed
  cases same
  have stores : DataContainer.Stores (.ofMessages messages)
      reached.delivery.handler :=
    @DataContainer.Stores.calls {} _ _ _ ⟨rfl, rfl, fun _ => rfl, rfl⟩ rest
  exact ⟨reached, reads, sorts.readBack_iff stores⟩

def changedTwice : List (Call × Option UInt16) :=
  [(.writeParameter [112] (.int32 1), none), (.headerComplete, none),
    (.writeParameterChange [112] (.int32 2), none),
    (.writeTextMessage .info [104, 105] 7, none),
    (.writeParameterChange [112] (.int32 3), none)]

theorem readChunks_readBack_changedTwice :
    ∃ reached,
      Reader.readChunks DataContainer.handler
        [(Exec.replay perform (constructed 0) changedTwice).writer.output]
        (Reader.init { storageConfig := .fullLog }) = (.ok (), reached) ∧
      (ReadBack changedTwice reached.delivery.handler ↔
        ChangesLate changedTwice) :=
  readChunks_readBack_iff (Exec.Run.start.replay (by decide +kernel))
    (List.append_nil _) (by decide +kernel)

theorem not_readBack :
    ¬ ∀ (timestampUs : UInt64) (trace : List (Call × Option UInt16))
      (final : SimpleWriter) (first : Bytes) (chunks : List Bytes),
      Exec.Run perform Sensible (constructed timestampUs) trace final →
      (first :: chunks).flatten = final.writer.output → 59 ≤ first.length →
      ∃ reached,
        Reader.readChunks DataContainer.handler (first :: chunks)
          (Reader.init { storageConfig := .fullLog }) = (.ok (), reached) ∧
        ReadBack trace reached.delivery.handler := by
  intro always
  have run : Exec.Run perform Sensible (constructed 0) changedTwice
      (Exec.replay perform (constructed 0) changedTwice) :=
    Exec.Run.start.replay (by decide +kernel)
  obtain ⟨reached, reads, _, changed⟩ :=
    always 0 _ _ _ [] run (List.append_nil _) (by decide +kernel)
  have lost : (Reader.readChunks DataContainer.handler
      [(Exec.replay perform (constructed 0) changedTwice).writer.output]
      (Reader.init { storageConfig := .fullLog })).2.delivery.handler.changedParameters.length =
        1 := by decide +kernel
  have given : (changesOf changedTwice).length = 2 := rfl
  rw [reads] at lost
  rw [changed, given] at lost
  cases lost

end SimpleWriter

end UlogCpp
