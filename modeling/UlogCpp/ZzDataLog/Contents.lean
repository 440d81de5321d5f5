import UlogCpp.SimpleWriter.Parameters
import UlogCpp.ZzDataLog.Journal

namespace UlogCpp

/-! What is in a file, and what a reader makes of it. -/

namespace ZzDataLog

open SimpleWriter (Call LogStep Mirrors Written)

def messageOf : Entry → Option Message
  | (.writeInfo key value, .ok _) =>
      some (.messageInfo (value.messageInfo key) .info)
  | (.writeParameter key value, .ok _)
  | (.writeParameterChange key value, .ok _) =>
      some (.messageInfo (value.messageInfo key) .parameter)
  | (.writeMessageFormat name fields, .ok _) =>
      some (.messageFormat { name, fields })
  | (.writeAddLoggedMessage messageName multiId, .ok (some msgId)) =>
      some (.addLoggedMessage { multiId, msgId, messageName })
  | (.writeTextMessage level message timestamp, .ok _) =>
      some (.logging (.ofText level message timestamp))
  | (.writeData msgId data, .ok _) => some (.data { msgId, data })
  | _ => none

def messagesOf (journal : List Entry) : List Message :=
  journal.filterMap messageOf

section Contents

variable {admits : SimpleWriter → UInt16 → Bytes → Prop} {journal : List Entry}
  {before after simple : SimpleWriter} {call : Call}
  {outcome : Except Exception (Option UInt16)}

abbrev FileStep (admits : SimpleWriter → UInt16 → Bytes → Prop) :=
  LogStep (fun call => call.isData = false) admits

theorem messagesOf_concat (journal : List Entry) (entry : Entry) :
    messagesOf (journal ++ [entry]) =
      messagesOf journal ++ (messageOf entry).toList := by
  rw [messagesOf, List.filterMap_append]
  refine congrArg (_ ++ ·) ?_
  rw [List.filterMap_cons]
  cases messageOf entry <;> rfl

theorem data_cases (simple : SimpleWriter) (id : UInt16) (data : Bytes) :
    (Writer.Handle.data ⟨id, data⟩ simple.writer).1 = .ok () ∧
        (Writer.Handle.data ⟨id, data⟩ simple.writer).2 =
          { simple.writer with
            output := simple.writer.output ++
              (Message.data ⟨id, data⟩).emitted } ∨
      (Writer.Handle.data ⟨id, data⟩ simple.writer).1 =
          .error messageTooLong ∧
        (Writer.Handle.data ⟨id, data⟩ simple.writer).2 = simple.writer := by
  have same : Writer.Handle.data ⟨id, data⟩ simple.writer =
      (((Message.data ⟨id, data⟩).serialize simple.writer.output).1,
        { simple.writer with
          output := ((Message.data ⟨id, data⟩).serialize
            simple.writer.output).2 }) := rfl
  rw [same]
  rcases ran : (Message.data ⟨id, data⟩).serialize simple.writer.output with
    ⟨exception | value, output⟩
  · obtain ⟨rfl, rfl, _⟩ := Message.serialize_error ran
    exact .inr ⟨rfl, rfl⟩
  · rw [Message.serialize_append] at ran
    obtain ⟨_, rfl⟩ := Prod.mk.inj ran
    exact .inl ⟨rfl, rfl⟩

theorem output_step (step : FileStep admits before call outcome after) :
    after.writer.output = before.writer.output ++
      (messageOf (call, outcome)).toList.flatMap Message.emitted := by
  cases step with
  | @data id payload admitted =>
      rcases data_cases before id payload with ⟨ok, written⟩ | ⟨failed, same⟩
      · rw [ok, written]
        exact congrArg (_ ++ ·) (List.append_nil _).symm
      · rw [failed, same]
        exact (List.append_nil _).symm
  | attempted ordinary attempted =>
      have still : ∀ {simple : SimpleWriter}, simple.writer = before.writer →
          simple.writer.output = before.writer.output ++ [] :=
        fun same => (congrArg Writer.output same).trans (List.append_nil _).symm
      rcases outcome with exception | result
      · have none : messageOf (call, .error exception) = none := by
          cases call <;> rfl
        rw [none]
        cases attempted with
        | checked same | tooLong plain same | writeMessageFormat fresh long same
        | writeAddLoggedMessage known long same =>
            rw [same]
            exact still rfl
      · have emitted : ∀ {message : Message} {middle : SimpleWriter},
            SimpleWriter.Emits message middle after →
            middle.writer = before.writer →
            after.writer.output =
              before.writer.output ++ [message].flatMap Message.emitted := by
          intro message middle emits same
          rw [emits.output.1, same, List.flatMap_singleton]
        cases attempted with
        | headerComplete same =>
            rw [same]
            exact (List.append_nil _).symm
        | writeData => cases ordinary
        | writeInfo header emits | writeParameter header emits
        | writeMessageFormat header fresh named fieldsNamed basic sized emits
        | writeParameterChange header emits
        | writeAddLoggedMessage header known emits
        | writeTextMessage header emits => exact emitted emits rfl

/-- The output is what a new log begins with, and the messages of the
journal. -/
theorem Recorded.output (recorded : Recorded admits journal simple) :
    ∃ timestampUs, simple.writer.output =
      (SimpleWriter.constructed timestampUs).writer.output ++
        (messagesOf journal).flatMap Message.emitted := by
  obtain ⟨timestampUs, path⟩ := recorded
  refine ⟨timestampUs, ?_⟩
  refine @Exec.Path.invariant _ _ _ _ _ (fun journal simple =>
    simple.writer.output =
      (SimpleWriter.constructed timestampUs).writer.output ++
        (messagesOf journal).flatMap Message.emitted)
    (List.append_nil _).symm ?_ _ _ path
  intro journal before after call outcome same step
  rw [output_step step, same, messagesOf_concat, List.flatMap_append,
    List.append_assoc]

end Contents

/-! ## Reading a file -/

def seriesOf : Entry → Option (UInt16 × Bytes × UInt8)
  | (.writeAddLoggedMessage name multiId, .ok (some id)) =>
      some (id, name, multiId)
  | _ => none

def issued (journal : List Entry) : List (UInt16 × Bytes × UInt8) :=
  journal.filterMap seriesOf

def returnedOf : Entry → Option (Call × Option UInt16)
  | (call, .ok result) => some (call.normal, result)
  | (_, .error _) => none

def returned (journal : List Entry) : List (Call × Option UInt16) :=
  journal.filterMap returnedOf

def Fits (simple : SimpleWriter) (id : UInt16) (data : Bytes) : Prop :=
  simple.headerComplete = true ∧
    ∃ subscription, simple.subscriptions[id.toNat]? = some subscription ∧
      data.length = subscription.messageSize.toNat

def Plain (journal : List Entry) : Prop :=
  ∀ name fields outcome, (.writeMessageFormat name fields, outcome) ∈ journal →
    outcome = .ok none ∧ fields ≠ [] ∧
      (Message.messageFormat { name, fields }).body.length < 2 ^ 31

structure Readable (journal : List Entry) : Prop where
  plain : Plain journal
  few : (issued journal).length ≤ 65536
  small : ∀ message ∈ messagesOf journal, message.body.length < 2 ^ 31
  texts : ∀ level message timestamp result,
    (.writeTextMessage level message timestamp, .ok result) ∈ journal →
    message ≠ []
  payloads : ∀ id data result, (.writeData id data, .ok result) ∈ journal →
    data ≠ []

theorem Readable.earlier {journal more : List Entry}
    (readable : Readable (journal ++ more)) : Readable journal where
  plain name fields outcome mem :=
    readable.plain name fields outcome (List.mem_append_left _ mem)
  few := by
    have all := readable.few
    rw [issued, List.filterMap_append, List.length_append] at all
    exact Nat.le_of_add_right_le all
  small message mem := by
    apply readable.small
    rw [messagesOf, List.filterMap_append]
    exact List.mem_append_left _ mem
  texts level message timestamp result mem :=
    readable.texts level message timestamp result (List.mem_append_left _ mem)
  payloads id data result mem :=
    readable.payloads id data result (List.mem_append_left _ mem)

structure Tidy (journal : List Entry) (simple : SimpleWriter) : Prop where
  counted : simple.subscriptions.length = (issued journal).length
  short : ∀ name ∈ simple.formats, 3 + name.length ≤ 65535
  names : SimpleWriter.subscribedNames journal =
    (issued journal).map fun series => series.2.1
  numbered : ∀ index series, (issued journal)[index]? = some series →
    series.1 = UInt16.ofNat index

structure Reads (timestampUs : UInt64) (journal : List Entry)
    (simple : SimpleWriter) : Prop where
  mirrors : ∃ messages,
    Mirrors timestampUs (.ofTrace (returned journal)) messages simple
  tidy : Tidy journal simple
  sampled : ∀ {id data result}, (.writeData id data, .ok result) ∈ journal →
    ∃ subscription, simple.subscriptions[id.toNat]? = some subscription ∧
      data.length = subscription.messageSize.toNat

section Reading

variable {journal : List Entry} {before after : SimpleWriter} {call : Call}
  {outcome : Except Exception (Option UInt16)} {result : Option UInt16}
  {timestampUs : UInt64}

theorem fits_of_step {id : UInt16} {data : Bytes}
    (step : FileStep Fits before (.writeData id data) outcome after) :
    Fits before id data := by
  cases step with
  | attempted ordinary attempted => cases ordinary
  | data admitted => exact admitted

/-- Data that fits is written as a `SimpleWriter` writes it. -/
theorem attempted_of_step (step : FileStep Fits before call outcome after) :
    SimpleWriter.Attempted before after call outcome := by
  cases step with
  | attempted ordinary attempted => exact attempted
  | @data id payload admitted =>
      obtain ⟨header, subscription, subscribed, size⟩ := admitted
      rcases data_cases before id payload with ⟨ok, written⟩ | ⟨failed, same⟩
      · have emits := @SimpleWriter.onWriter_emits before _
          (.data ⟨id, payload⟩) _ (fun handed => handed) (Prod.ext ok rfl)
        rw [ok]
        refine .writeData header subscribed (Nat.le_of_eq size.symm) ?_
        rw [← size, List.take_length]
        exact emits
      · rw [failed, same]
        exact .tooLong rfl rfl

/-- What a call does that is read back: it changes nothing if it throws. -/
theorem refused_same {exception : Exception}
    (plain : Plain (journal ++ [(call, .error exception)]))
    (short : ∀ name ∈ before.formats, 3 + name.length ≤ 65535)
    (refused : SimpleWriter.Refused before after call exception) :
    after = before := by
  cases refused with
  | checked same => exact same
  | tooLong plain same => exact same
  | writeMessageFormat fresh long same =>
      have accepted := (plain _ _ _
        (List.mem_append_right _ List.mem_cons_self)).1
      cases accepted
  | writeAddLoggedMessage known long same =>
      have fits := short _ (Finmap.mem_of_lookup_eq_some known)
      exact absurd long (Nat.not_lt.mpr fits)

theorem two_le_encodeFields {fields : List Field} (some : fields ≠ []) :
    2 ≤ (MessageFormat.encodeFields fields).length := by
  cases fields with
  | nil => exact absurd rfl some
  | cons field fields =>
      rw [MessageFormat.encodeFields_cons, List.length_append, List.length_cons,
        Field.encode, List.length_append, List.length_cons]
      omega

theorem short_format {name : Bytes} {fields : List Field}
    {middle : SimpleWriter} (some : fields ≠ [])
    (small : (Message.messageFormat { name, fields }).body.length < 2 ^ 31)
    (emits : SimpleWriter.Emits (.messageFormat { name, fields }) middle after) :
    3 + name.length ≤ 65535 := by
  obtain ⟨_, serialized, _⟩ := emits
  obtain ⟨_, sized, _⟩ := Message.serialize_ok small serialized
  have enough := two_le_encodeFields some
  rw [SimpleWriter.body_messageFormat, MessageFormat.formatStr,
    List.length_append, List.length_cons] at sized
  have total : name.length + ((MessageFormat.encodeFields fields).length + 1) <
      2 ^ 16 := sized
  omega

theorem arrayLength_normal (field : Field) :
    -1 ≤ field.normal.arrayLength.toInt := by
  unfold Field.normal
  split
  next isArray => exact Int.le_trans (by decide) isArray
  next => exact Int.le_refl _

theorem sound_of_readable
    (readable : Readable (journal ++ [(call, .ok result)]))
    (counted : before.subscriptions.length = (issued journal).length)
    (fits : ∀ {id data}, call = .writeData id data → Fits before id data)
    (performed : SimpleWriter.Performed before after call result) :
    SimpleWriter.Sound before call.normal := by
  have here : ((call, .ok result) : Entry) ∈ journal ++ [(call, .ok result)] :=
    List.mem_append_right _ List.mem_cons_self
  have small : ∀ {message}, messageOf (call, .ok result) = some message →
      message.body.length < 2 ^ 31 := fun is =>
    readable.small _ (List.mem_filterMap.mpr ⟨_, here, is⟩)
  have only : ∀ {message : Message},
      messageOf (call, .ok result) = some message →
      ∀ other ∈ some message, other.body.length < 2 ^ 31 := by
    intro message is other mem
    cases mem
    exact small is
  cases performed with
  | writeInfo | writeParameter | writeParameterChange =>
      exact ⟨trivial, trivial, only rfl⟩
  | headerComplete => exact ⟨trivial, trivial, nofun⟩
  | @writeMessageFormat name fields =>
      refine ⟨?_, trivial, ?_⟩
      · intro field mem
        obtain ⟨original, _, rfl⟩ := List.mem_map.mp mem
        exact arrayLength_normal original
      · intro message mem
        cases mem
        have fits := @small (.messageFormat { name, fields }) rfl
        rw [SimpleWriter.body_messageFormat] at fits ⊢
        rw [← MessageFormat.formatStr_normal] at fits
        exact fits
  | writeAddLoggedMessage =>
      refine ⟨?_, trivial, only rfl⟩
      have all := readable.few
      rw [issued, List.filterMap_append, List.length_append] at all
      change before.subscriptions.length < 65536
      rw [counted]
      exact all
  | writeTextMessage => exact ⟨readable.texts _ _ _ _ here, trivial, only rfl⟩
  | @writeData id data =>
      obtain ⟨_, subscription, subscribed, size⟩ := fits rfl
      have whole : data.take subscription.messageSize.toNat = data := by
        rw [← size, List.take_length]
      refine ⟨trivial, ?_, ?_⟩
      · intro other mem zero
        have same : other = subscription :=
          Option.some.inj ((Option.mem_def.mp mem).symm.trans subscribed)
        rw [same] at zero
        rw [zero] at size
        exact readable.payloads _ _ _ here (List.eq_nil_of_length_eq_zero size)
      · intro message mem
        change message ∈ Option.map _ _ at mem
        rw [subscribed, Option.map_some, whole] at mem
        exact only rfl message mem

theorem issued_concat (journal : List Entry) (entry : Entry) :
    issued (journal ++ [entry]) = issued journal ++ (seriesOf entry).toList := by
  rw [issued, List.filterMap_append]
  refine congrArg (_ ++ ·) ?_
  rw [List.filterMap_cons]
  cases seriesOf entry <;> rfl

theorem getElem?_of_prefix {list longer : List α} {index : Nat} {value : α}
    (grows : list <+: longer) (found : list[index]? = some value) :
    longer[index]? = some value := by
  obtain ⟨rest, rfl⟩ := grows
  rw [List.getElem?_append_left (List.getElem?_eq_some_iff.mp found).1]
  exact found

theorem tables_of_performed
    (performed : SimpleWriter.Performed before after call result) :
    before.subscriptions <+: after.subscriptions ∧
      after.subscriptions.length = before.subscriptions.length +
        (seriesOf (call, .ok result)).toList.length ∧
      ∀ name ∈ after.formats, name ∈ before.formats ∨
        ∃ fields middle, call = .writeMessageFormat name fields ∧
          SimpleWriter.Emits (.messageFormat { name, fields }) middle after := by
  cases performed with
  | headerComplete same =>
      rw [same]
      exact ⟨List.prefix_refl _, rfl, fun _ => .inl⟩
  | @writeMessageFormat name fields size header fresh named fieldsNamed basic
      sized emits =>
      have written := emits
      obtain ⟨output, _, rfl⟩ := emits
      refine ⟨List.prefix_refl _, rfl, fun other mem => ?_⟩
      rcases Finmap.mem_insert.mp mem with rfl | earlier
      · exact .inr ⟨fields, _, rfl, written⟩
      · exact .inl earlier
  | writeAddLoggedMessage header known emits =>
      obtain ⟨output, _, rfl⟩ := emits
      exact ⟨List.prefix_append _ _, List.length_append, fun _ => .inl⟩
  | writeInfo header emits | writeParameter header emits
  | writeParameterChange header emits | writeTextMessage header emits
  | writeData header subscribed covered emits =>
      obtain ⟨output, _, rfl⟩ := emits
      exact ⟨List.prefix_refl _, rfl, fun _ => .inl⟩

namespace Tidy

theorem constructed (timestampUs : UInt64) :
    Tidy [] (SimpleWriter.constructed timestampUs) :=
  ⟨rfl, nofun, rfl, nofun⟩

theorem refused {exception : Exception} (tidy : Tidy journal before)
    (refused : SimpleWriter.Refused before after call exception) :
    Tidy (journal ++ [(call, .error exception)]) before := by
  have none : seriesOf (call, .error exception) = none := by
    cases call <;> rfl
  have same : issued (journal ++ [(call, .error exception)]) =
      issued journal := by
    rw [issued_concat, none]
    exact List.append_nil _
  have unnamed : SimpleWriter.subscribedNames [(call, .error exception)] =
      [] := by
    cases refused with
    | checked same => cases call <;> rfl
    | tooLong plain same =>
        cases call <;> first | rfl | cases plain
    | writeMessageFormat fresh long same => rfl
    | writeAddLoggedMessage known long same =>
        have fits := tidy.short _ (Finmap.mem_of_lookup_eq_some known)
        exact absurd long (Nat.not_lt.mpr fits)
  refine ⟨?_, tidy.short, ?_, ?_⟩
  · rw [same]
    exact tidy.counted
  · rw [same, SimpleWriter.subscribedNames_concat, unnamed, List.append_nil]
    exact tidy.names
  · rw [same]
    exact tidy.numbered

theorem performed (tidy : Tidy journal before)
    (plain : Plain (journal ++ [(call, .ok result)]))
    (performed : SimpleWriter.Performed before after call result) :
    Tidy (journal ++ [(call, .ok result)]) after := by
  have here : ((call, .ok result) : Entry) ∈ journal ++ [(call, .ok result)] :=
    List.mem_append_right _ List.mem_cons_self
  obtain ⟨_, longer, formats⟩ := tables_of_performed performed
  refine ⟨?_, ?_, ?_, ?_⟩
  · rw [longer, tidy.counted, issued_concat, List.length_append]
  · intro name mem
    rcases formats name mem with earlier | ⟨fields, middle, rfl, emits⟩
    · exact tidy.short name earlier
    · obtain ⟨_, some, small⟩ := plain _ _ _ here
      exact short_format some small emits
  · rw [SimpleWriter.subscribedNames_concat, issued_concat, List.map_append,
      tidy.names]
    refine congrArg (_ ++ ·) ?_
    cases performed <;> rfl
  · intro index series found
    rw [issued_concat] at found
    by_cases earlier : index < (issued journal).length
    · rw [List.getElem?_append_left earlier] at found
      exact tidy.numbered index series found
    · rw [List.getElem?_append_right (Nat.not_lt.mp earlier)] at found
      cases performed with
      | writeAddLoggedMessage header known emits =>
          have first : index - (issued journal).length = 0 := by
            have inside := (List.getElem?_eq_some_iff.mp found).1
            exact Nat.lt_one_iff.mp inside
          have exact' : index = before.subscriptions.length := by
            rw [tidy.counted]
            omega
          rw [first] at found
          cases found
          rw [exact']
      | _ => cases found

theorem step (tidy : Tidy journal before)
    (plain : Plain (journal ++ [(call, outcome)]))
    (attempted : SimpleWriter.Attempted before after call outcome) :
    Tidy (journal ++ [(call, outcome)]) after := by
  rcases outcome with exception | result
  · rw [refused_same plain tidy.short attempted]
    exact tidy.refused attempted
  · exact tidy.performed plain attempted

theorem data (tidy : Tidy journal before) {id : UInt16} {data : Bytes}
    {writer : Writer} :
    Tidy (journal ++ [(.writeData id data, outcome)])
      { before with writer } := by
  have same : issued (journal ++ [(.writeData id data, outcome)]) =
      issued journal := by
    rw [issued_concat]
    exact List.append_nil _
  refine ⟨?_, tidy.short, ?_, ?_⟩
  · rw [same]
    exact tidy.counted
  · rw [same, SimpleWriter.subscribedNames_concat]
    exact (List.append_nil _).trans tidy.names
  · rw [same]
    exact tidy.numbered

end Tidy

theorem Plain.earlier {more : List Entry} (plain : Plain (journal ++ more)) :
    Plain journal := fun name fields outcome mem =>
  plain name fields outcome (List.mem_append_left _ mem)

theorem Recorded.tidy {admits : SimpleWriter → UInt16 → Bytes → Prop}
    {simple : SimpleWriter} (recorded : Recorded admits journal simple)
    (plain : Plain journal) : Tidy journal simple := by
  obtain ⟨timestampUs, path⟩ := recorded
  refine @Exec.Path.invariant _ _ _ _ _ (fun journal simple =>
    Plain journal → Tidy journal simple) (fun _ => .constructed timestampUs) ?_
    _ _ path plain
  intro journal before after call outcome ih step plain
  have tidy := ih plain.earlier
  cases step with
  | attempted ordinary attempted => exact tidy.step plain attempted
  | data admitted => exact tidy.data

namespace Reads

theorem constructed (timestampUs : UInt64) :
    Reads timestampUs [] (SimpleWriter.constructed timestampUs) :=
  ⟨⟨[], .constructed timestampUs⟩, .constructed timestampUs, nofun⟩

theorem step (reads : Reads timestampUs journal before)
    (readable : Readable (journal ++ [(call, outcome)]))
    (step : FileStep Fits before call outcome after) :
    Reads timestampUs (journal ++ [(call, outcome)]) after := by
  obtain ⟨⟨messages, mirrors⟩, tidy, sampled⟩ := reads
  have attempted := attempted_of_step step
  refine ⟨?_, tidy.step readable.plain attempted, ?_⟩
  · rcases outcome with exception | result
    · rw [refused_same readable.plain tidy.short attempted, returned,
        List.filterMap_append]
      exact ⟨messages, (List.append_nil (returned journal)).symm ▸ mirrors⟩
    · have sound := sound_of_readable readable tidy.counted (fun is => by
        rw [is] at step
        exact fits_of_step step) attempted
      rw [returned, List.filterMap_append]
      change ∃ messages, Mirrors timestampUs
        (.ofTrace (returned journal ++ [(call.normal, result)])) messages after
      rw [Written.ofTrace_concat]
      exact ⟨_, mirrors.call sound attempted.normal⟩
  · intro id data other mem
    have grows : before.subscriptions <+: after.subscriptions := by
      rcases outcome with exception | result
      · rw [refused_same readable.plain tidy.short attempted]
      · exact (tables_of_performed attempted).1
    rcases List.mem_append.mp mem with earlier | now
    · obtain ⟨subscription, found, size⟩ := sampled earlier
      exact ⟨subscription, getElem?_of_prefix grows found, size⟩
    · cases List.mem_singleton.mp now
      obtain ⟨_, subscription, found, size⟩ := fits_of_step step
      exact ⟨subscription, getElem?_of_prefix grows found, size⟩

end Reads

theorem Recorded.reads {simple : SimpleWriter}
    (recorded : Recorded Fits journal simple) (readable : Readable journal) :
    ∃ timestampUs, Reads timestampUs journal simple := by
  obtain ⟨timestampUs, path⟩ := recorded
  refine ⟨timestampUs, ?_⟩
  refine @Exec.Path.invariant _ _ _ _ _ (fun journal simple =>
    Readable journal → Reads timestampUs journal simple)
    (fun _ => .constructed timestampUs) ?_ _ _ path readable
  intro journal before after call outcome ih step readable
  exact (ih readable.earlier).step readable step

/-! ## Series -/

def dataOf : Entry → Option (UInt16 × Bytes)
  | (.writeData id data, .ok _) => some (id, data)
  | _ => none

def samplesOf (journal : List Entry) (id : UInt16) : List Data :=
  ((journal.filterMap dataOf).filter fun sample => sample.1 == id).map
    fun sample => { msgId := id, data := sample.2 }

def series (journal : List Entry) (id : UInt16) :
    Option UlogCpp.Subscription :=
  ((issued journal).lookup id).map fun (messageName, multiId) =>
    { addLoggedMessage := { multiId, msgId := id, messageName }
      data := samplesOf journal id }

def added : UInt16 × Bytes × UInt8 → UInt16 × AddLoggedMessage
  | (msgId, messageName, multiId) => (msgId, { multiId, msgId, messageName })

theorem written_concat (journal : List Entry) (entry : Entry) :
    Written.ofTrace (returned (journal ++ [entry])) =
      (returnedOf entry).toList.foldl Written.add
        (.ofTrace (returned journal)) := by
  rw [Written.ofTrace, returned, List.filterMap_append, List.foldl_append]
  refine congrArg (List.foldl _ _) ?_
  rw [List.filterMap_cons]
  cases returnedOf entry <;> rfl

theorem written_of_returned (journal : List Entry) :
    (Written.ofTrace (returned journal)).subscriptions =
        (issued journal).map added ∧
      (Written.ofTrace (returned journal)).samples =
        journal.filterMap dataOf := by
  induction journal using List.reverseRecOn with
  | nil => exact ⟨rfl, rfl⟩
  | append_singleton journal entry ih =>
      obtain ⟨call, outcome⟩ := entry
      rw [written_concat, issued_concat, List.map_append,
        List.filterMap_append, ← ih.1, ← ih.2]
      rcases outcome with exception | result
      · refine ⟨?_, ?_⟩
        · cases call <;> exact (List.append_nil _).symm
        · cases call <;> exact (List.append_nil _).symm
      · cases call with
        | writeAddLoggedMessage name multiId =>
            cases result with
            | none => exact ⟨(List.append_nil _).symm, (List.append_nil _).symm⟩
            | some id => exact ⟨rfl, (List.append_nil _).symm⟩
        | writeData id data => exact ⟨(List.append_nil _).symm, rfl⟩
        | _ => exact ⟨(List.append_nil _).symm, (List.append_nil _).symm⟩

theorem lookup_added (list : List (UInt16 × Bytes × UInt8)) (id : UInt16) :
    (list.map added).lookup id = (list.lookup id).map fun value =>
      { multiId := value.2, msgId := id, messageName := value.1 } := by
  induction list with
  | nil => rfl
  | cons head list ih =>
      obtain ⟨msgId, name, multiId⟩ := head
      rw [List.map_cons, added, List.lookup_cons, List.lookup_cons]
      cases same : id == msgId with
      | true =>
          rw [beq_iff_eq.mp same]
          rfl
      | false => exact ih

theorem Reads.subscription {simple : SimpleWriter}
    (reads : Reads timestampUs journal simple) (id : UInt16) :
    (Written.ofTrace (returned journal)).subscription id =
      series journal id := by
  obtain ⟨⟨_, mirrors⟩, _, sampled⟩ := reads
  obtain ⟨subscriptions, samples⟩ := written_of_returned journal
  rw [Written.subscription, subscriptions, lookup_added, series, Option.map_map]
  refine Option.map_congr fun added found => ?_
  refine congrArg (UlogCpp.Subscription.mk _) ?_
  rw [Written.dataOf, samples, samplesOf]
  refine List.map_congr_left fun sample mem => ?_
  obtain ⟨among, same⟩ := List.mem_filter.mp mem
  obtain ⟨⟨call, outcome⟩, member, is⟩ := List.mem_filterMap.mp among
  have written : ∃ result, (.writeData id sample.2, .ok result) ∈ journal := by
    rcases outcome with exception | result
    · cases call <;> cases is
    · cases call with
      | writeData msgId data =>
          cases is
          exact ⟨result, beq_iff_eq.mp same ▸ member⟩
      | _ => cases is
  obtain ⟨result, entry⟩ := written
  obtain ⟨subscription, subscribed, size⟩ := sampled entry
  obtain ⟨other, known, sizeOf⟩ := mirrors.registered.subscribed subscribed
  rw [subscriptions, lookup_added, Option.mem_def.mp found] at known
  cases known
  refine congrArg (Data.mk id) ?_
  rw [← sizeOf, ← size, List.take_length]

/-- What a reader makes of the file, in whatever chunks it gets it: the series of
the journal, and no error. -/
theorem Reads.container {simple : SimpleWriter}
    (reads : Reads timestampUs journal simple) :
    ∃ container : DataContainer,
      (∀ {first : Bytes} {chunks : List Bytes},
        (first :: chunks).flatten = simple.writer.output → 59 ≤ first.length →
        ∃ reached,
          Reader.readChunks DataContainer.handler (first :: chunks)
            (Reader.init { storageConfig := .fullLog }) = (.ok (), reached) ∧
          reached.delivery.handler = container) ∧
      container.parsingErrors = [] ∧
      ∀ id, container.subscriptions.lookup id = series journal id := by
  obtain ⟨_, _, _, container, arrives, holds⟩ := reads.mirrors
  refine ⟨container, ?_, holds.parsingErrors, fun id => ?_⟩
  · exact fun layout sized => arrives.readChunks rfl layout sized
  · rw [holds.subscriptions]
    exact reads.subscription id

end Reading

end ZzDataLog

end UlogCpp
