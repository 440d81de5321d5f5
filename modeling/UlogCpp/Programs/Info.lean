import UlogCpp.Programs.Report

namespace UlogCpp

/-! What `ulog_info` prints, for a file of any bytes. -/

namespace UlogInfo

open Programs (Program Choices Prints Returns printf cStr prints_printf
  returns_bind returns_forM returns_fromLibrary prints_fromLibrary
  recalls_numbered lookups_complete)

def totalMs (dropouts : List Dropout) : Nat :=
  (dropouts.map fun gap => gap.durationMs.toNat).sum

structure Showable (dataContainer : DataContainer) : Prop where
  dropouts : totalMs dataContainer.dropouts ≤ 2147483647
  infos : ∀ key info, dataContainer.messageInfo.lookup key = some info →
    ∃ value, info.typedValue = .ok value
  defaults : ∀ key parameter,
    dataContainer.defaultParameters.lookup key = some parameter →
      ∃ value, parameter.typedValue = .ok value
  initials : ∀ key parameter,
    dataContainer.initialParameters.lookup key = some parameter →
      ∃ value, parameter.typedValue = .ok value

theorem addDuration_prints {sum : Nat} {dropouts : List Dropout}
    (small : sum + totalMs dropouts ≤ 2147483647) :
    Prints (dropouts.foldlM addDuration (sum : Int))
      ((sum + totalMs dropouts : Nat) : Int) [] := by
  induction dropouts generalizing sum with
  | nil => exact .pure _
  | cons gap dropouts ih =>
      simp only [totalMs, List.map_cons, List.sum_cons] at small ih ⊢
      rw [← Nat.add_assoc] at small ⊢
      have here : Prints (addDuration sum gap)
          ((sum + gap.durationMs.toNat : Nat) : Int) [] := by
        have fits : (sum : Int) + gap.durationMs.toNat ≤ 2147483647 := by omega
        unfold addDuration
        rw [if_pos fits, Int.natCast_add]
        exact .pure _
      exact here.bind (ih small)

theorem addDuration_returns {sum : Nat} {dropouts : List Dropout} {total : Int}
    (small : sum ≤ 2147483647)
    (returned : Returns (dropouts.foldlM addDuration (sum : Int)) total) :
    sum + totalMs dropouts ≤ 2147483647 := by
  induction dropouts generalizing sum with
  | nil => exact small
  | cons gap dropouts ih =>
      rw [List.foldlM_cons] at returned
      obtain ⟨next, ⟨printed, reached, here⟩, later⟩ := returns_bind returned
      unfold addDuration at here
      split at here
      next fits =>
        cases here
        have rest := @ih (sum + gap.durationMs.toNat) (by omega) later
        simp only [totalMs, List.map_cons, List.sum_cons] at rest ⊢
        omega
      next => cases here

def typedLine (name : Bytes) (value : Except Stop ValueType) : Bytes :=
  match value with
  | .ok value => valueLine name value
  | .error _ => []

theorem printValue_prints {name : Bytes} {result : Except Stop ValueType}
    (typed : ∃ value, result = .ok value) :
    Prints (printValue name result) () (typedLine name result) := by
  obtain ⟨value, rfl⟩ := typed
  exact (prints_fromLibrary rfl).bind (prints_printf _)

theorem printValue_returns {name : Bytes} {result : Except Stop ValueType}
    (returned : Returns (printValue name result) ()) :
    ∃ value, result = .ok value := by
  obtain ⟨value, read, _⟩ := returns_bind returned
  exact ⟨value, returns_fromLibrary read⟩

def tableHeading : Bytes := ascii "Name (multi id)  - number of data points\n"

def leadText (dataContainer : DataContainer) : Bytes :=
  dropoutsLine dataContainer.dropouts.length (totalMs dataContainer.dropouts) ++
  (ascii "Info Messages:\n" ++
  ((dataContainer.messageInfo.entries.flatMap fun infoMsg =>
    typedLine infoMsg.2.field.name infoMsg.2.typedValue) ++
  (ascii "Info Multiple Messages:" ++
  ((dataContainer.messageInfoMulti.entries.flatMap fun infoMsg =>
    multiText infoMsg.1 infoMsg.2) ++
  (ascii "\n" ++ ascii "\n")))))

def tailText (dataContainer : DataContainer) : Bytes :=
  ascii "Formats:\n" ++
  ((dataContainer.messageFormats.entries.flatMap fun msgFormat =>
    formatLine msgFormat.2) ++
  (ascii "Logging:\n" ++
  ((dataContainer.logging.flatMap loggingLine) ++
  (ascii "Default Params:\n" ++
  ((dataContainer.defaultParameters.entries.flatMap fun defaultParam =>
    typedLine defaultParam.2.field.name defaultParam.2.typedValue) ++
  (ascii "Initial Params:\n" ++
  (dataContainer.initialParameters.entries.flatMap fun initialParam =>
    typedLine initialParam.2.field.name initialParam.2.typedValue)))))))

def rows (choices : Choices) (subscriptions : Map UInt16 Subscription) :
    List Subscription :=
  (sortedSubscriptionIds choices subscriptions).filterMap subscriptions.lookup

/-! ### The order of the table -/

def Precedes (first second : Bytes × UInt8) : Prop :=
  if first.1 = second.1 then first.2 < second.2 else first.1 < second.1

theorem Precedes.irrefl (key : Bytes × UInt8) : ¬ Precedes key key := by
  unfold Precedes
  rw [if_pos rfl]
  exact UInt8.lt_irrefl key.2

theorem Precedes.trans {first second third : Bytes × UInt8}
    (lower : Precedes first second) (upper : Precedes second third) :
    Precedes first third := by
  unfold Precedes at lower upper ⊢
  by_cases one : first.1 = second.1
  · rw [if_pos one] at lower
    rw [one]
    by_cases two : second.1 = third.1
    · rw [if_pos two] at upper ⊢
      exact UInt8.lt_trans lower upper
    · rw [if_neg two] at upper ⊢
      exact upper
  · rw [if_neg one] at lower
    by_cases two : second.1 = third.1
    · rw [← two, if_neg one]
      exact lower
    · rw [if_neg two] at upper
      have before := List.lt_trans lower upper
      rw [if_neg fun same => by
        rw [same] at before
        exact List.lt_irrefl _ before]
      exact before

theorem Precedes.connected {first second : Bytes × UInt8}
    (up : ¬ Precedes first second) (down : ¬ Precedes second first) :
    first = second := by
  unfold Precedes at up down
  by_cases same : first.1 = second.1
  · rw [if_pos same] at up
    rw [if_pos same.symm] at down
    exact Prod.ext same (UInt8.le_antisymm (UInt8.not_lt.mp down)
      (UInt8.not_lt.mp up))
  · rw [if_neg same] at up
    rw [if_neg fun back => same back.symm] at down
    exact absurd (List.le_antisymm down up) same

def rowKey (subscription : Subscription) : Bytes × UInt8 :=
  (subscription.addLoggedMessage.messageName,
    subscription.addLoggedMessage.multiId)

variable {choices : Choices} {subscriptions : Map UInt16 Subscription}

theorem comesBefore_iff {a b : UInt16} {first second : Subscription}
    (foundFirst : subscriptions.lookup a = some first)
    (foundSecond : subscriptions.lookup b = some second) :
    comesBefore subscriptions a b = true ↔
      Precedes (rowKey first) (rowKey second) := by
  have compared : comesBefore subscriptions a b =
      if (rowKey first).1 = (rowKey second).1 then
        decide ((rowKey first).2 < (rowKey second).2)
      else decide ((rowKey first).1 < (rowKey second).1) := by
    rw [comesBefore, foundFirst, foundSecond]
    rfl
  rw [compared, Precedes]
  split
  · exact decide_eq_true_iff
  · exact decide_eq_true_iff

/-- What `std::sort` is given is a strict weak order. -/
theorem comesBefore_weakOrder (choices : Choices)
    (subscriptions : Map UInt16 Subscription) :
    WeakOrder (comesBefore subscriptions) (choices.iterate subscriptions) := by
  have compares : ∀ a ∈ choices.iterate subscriptions,
      ∀ b ∈ choices.iterate subscriptions,
        comesBefore subscriptions a b = true ↔
          Precedes (((subscriptions.lookup a).map rowKey).getD ([], 0))
            (((subscriptions.lookup b).map rowKey).getD ([], 0)) := by
    intro a one b two
    obtain ⟨first, foundFirst⟩ := Choices.mem_iterate.mp one
    obtain ⟨second, foundSecond⟩ := Choices.mem_iterate.mp two
    rw [comesBefore_iff foundFirst foundSecond, foundFirst, foundSecond]
    rfl
  exact WeakOrder.ofKey Precedes.irrefl Precedes.trans Precedes.connected
    compares

theorem sorted_mem {id : UInt16} :
    id ∈ sortedSubscriptionIds choices subscriptions ↔
      ∃ subscription, subscriptions.lookup id = some subscription := by
  have order := comesBefore_weakOrder choices subscriptions
  rw [sortedSubscriptionIds, (choices.stdSort.perm order).mem_iff, Choices.mem_iterate]

/-- The rows are the subscriptions, each once, in the order of their names and
multi ids. -/
theorem rows_table (choices : Choices)
    (subscriptions : Map UInt16 Subscription) :
    (rows choices subscriptions).Perm
        (subscriptions.entries.map Prod.snd) ∧
      (rows choices subscriptions).Pairwise fun first second =>
        ¬ Precedes (rowKey second) (rowKey first) := by
  have order := comesBefore_weakOrder choices subscriptions
  constructor
  · exact Map.lookups_perm
      ((choices.stdSort.perm order).trans (choices.perm subscriptions))
  · have sorted := choices.stdSort.sorted order
    refine List.pairwise_filterMap.mpr ?_
    refine sorted.imp fun {a b} notLess first found second there => ?_
    rw [← comesBefore_iff there found, notLess]
    exact Bool.false_ne_true

/-! ### The report -/

theorem table_prints (choices : Choices)
    (subscriptions : Map UInt16 Subscription) :
    Prints ((sortedSubscriptionIds choices subscriptions).forM
      (printSubscription subscriptions)) ()
      ((rows choices subscriptions).flatMap subscriptionLine) := by
  have each : ∀ id ∈ sortedSubscriptionIds choices subscriptions,
      Prints (printSubscription subscriptions id) ()
        ((subscriptions.lookup id).toList.flatMap subscriptionLine) := by
    intro id mem
    obtain ⟨subscription, found⟩ := sorted_mem.mp mem
    rw [printSubscription, found]
    exact fun printed => by rw [Option.toList_some, List.flatMap_singleton]; rfl
  have all := Prints.forM each
  have same : (sortedSubscriptionIds choices subscriptions).flatMap
        (fun id => (subscriptions.lookup id).toList.flatMap subscriptionLine) =
      (rows choices subscriptions).flatMap subscriptionLine := by
    unfold rows
    rw [List.filterMap_eq_flatMap_toList, List.flatMap_assoc]
  rwa [same] at all

theorem values_print {entries : List (Bytes × α)} {name : α → Bytes}
    {value : α → Except Stop ValueType}
    (typed : ∀ entry ∈ entries, ∃ shown, value entry.2 = .ok shown) :
    Prints (entries.forM fun entry => printValue (name entry.2) (value entry.2))
      () (entries.flatMap fun entry =>
        typedLine (name entry.2) (value entry.2)) :=
  .forM fun entry mem => printValue_prints (typed entry mem)

theorem report_prints {dataContainer : DataContainer} (choices : Choices)
    (showable : Showable dataContainer) :
    Prints (report choices dataContainer) 0 (leadText dataContainer ++
      (tableHeading ++
        ((rows choices dataContainer.subscriptions).flatMap subscriptionLine ++
          tailText dataContainer))) := by
  have dropouts := @addDuration_prints 0 dataContainer.dropouts
    (by rw [Nat.zero_add]; exact showable.dropouts)
  rw [Nat.zero_add] at dropouts
  have infos := @values_print _ dataContainer.messageInfo.entries
    (·.field.name) (·.typedValue) fun entry mem =>
      showable.infos _ _ (Map.mem_entries.mp mem)
  have defaults := @values_print _ dataContainer.defaultParameters.entries
    (·.field.name) (·.typedValue) fun entry mem =>
      showable.defaults _ _ (Map.mem_entries.mp mem)
  have initials := @values_print _ dataContainer.initialParameters.entries
    (·.field.name) (·.typedValue) fun entry mem =>
      showable.initials _ _ (Map.mem_entries.mp mem)
  have multi := @Prints.forM _ _ _ dataContainer.messageInfoMulti.entries
    fun infoMsg _ => prints_printf (multiText infoMsg.1 infoMsg.2)
  have formats := @Prints.forM _ _ _ dataContainer.messageFormats.entries
    fun msgFormat _ => prints_printf (formatLine msgFormat.2)
  have texts := @Prints.forM _ _ _ dataContainer.logging
    fun logging _ => prints_printf (loggingLine logging)
  apply Prints.of_eq
  · exact dropouts.bind <| (prints_printf _).bind <|
      (prints_printf _).bind <| infos.bind <|
      (prints_printf _).bind <| multi.bind <|
      (prints_printf _).bind <| (prints_printf _).bind <|
      (prints_printf _).bind <| (table_prints choices _).bind <|
      (prints_printf _).bind <| formats.bind <|
      (prints_printf _).bind <| texts.bind <|
      (prints_printf _).bind <| defaults.bind <|
      (prints_printf _).bind <| initials.bind <| .pure 0
  · simp only [leadText, tableHeading, tailText, List.append_assoc,
      List.nil_append, List.append_nil]

theorem report_returns {dataContainer : DataContainer} {status : Int}
    (returned : Returns (report choices dataContainer) status) :
    Showable dataContainer := by
  obtain ⟨total, dropouts, returned⟩ := returns_bind returned
  obtain ⟨_, _, returned⟩ := returns_bind returned
  obtain ⟨_, _, returned⟩ := returns_bind returned
  obtain ⟨_, infos, returned⟩ := returns_bind returned
  obtain ⟨_, _, returned⟩ := returns_bind returned
  obtain ⟨_, _, returned⟩ := returns_bind returned
  obtain ⟨_, _, returned⟩ := returns_bind returned
  obtain ⟨_, _, returned⟩ := returns_bind returned
  obtain ⟨_, _, returned⟩ := returns_bind returned
  obtain ⟨_, _, returned⟩ := returns_bind returned
  obtain ⟨_, _, returned⟩ := returns_bind returned
  obtain ⟨_, _, returned⟩ := returns_bind returned
  obtain ⟨_, _, returned⟩ := returns_bind returned
  obtain ⟨_, _, returned⟩ := returns_bind returned
  obtain ⟨_, _, returned⟩ := returns_bind returned
  obtain ⟨_, defaults, returned⟩ := returns_bind returned
  obtain ⟨_, _, returned⟩ := returns_bind returned
  obtain ⟨_, initials, _⟩ := returns_bind returned
  refine ⟨?_, fun key info found => ?_, fun key parameter found => ?_,
    fun key parameter found => ?_⟩
  · have small := @addDuration_returns 0 _ _ (by decide) dropouts
    rwa [Nat.zero_add] at small
  · exact printValue_returns (returns_forM infos _ (Map.mem_entries.mpr found))
  · exact printValue_returns
      (returns_forM defaults _ (Map.mem_entries.mpr found))
  · exact printValue_returns
      (returns_forM initials _ (Map.mem_entries.mpr found))

/-! ### The program -/

section Main

variable {program path content : Bytes} {arguments : List Bytes}
  {files : Bytes → Option Bytes}

theorem main_zero_iff (choices : Choices) (program path : Bytes)
    (arguments : List Bytes) (opens : files path = some content) :
    (Programs.main (report choices) program (path :: arguments) files []).1 =
        .ok 0 ↔
      (Programs.readFile content).1 = .ok () ∧
        (Programs.readFile content).2.delivery.state ≠ .invalidData ∧
        Showable (Programs.readFile content).2.delivery.handler := by
  rcases read : Programs.readFile content with ⟨stop | ⟨⟩, reader⟩
  · rw [Programs.main_stops opens read]
    exact ⟨nofun, nofun⟩
  by_cases invalid : reader.delivery.state = .invalidData
  · rw [Programs.main_fatal opens read invalid]
    exact ⟨nofun, fun all => absurd invalid all.2.1⟩
  · rw [Programs.main_report opens read invalid]
    constructor
    · intro returned
      exact ⟨rfl, invalid, report_returns ⟨_, _, Prod.ext returned rfl⟩⟩
    · rintro ⟨_, _, showable⟩
      rw [report_prints choices showable]

def sampleFile : Bytes :=
  ((FileHeader.ofTimestamp 0 false).serialize []).2 ++
    [2, 0, 70, 97, 58, 4, 0, 65, 0, 0, 0, 97, 3, 0, 68, 0, 0, 9]

/-- The table of `ulog_info` shows each subscription that the reader has handed
over, with the number of its samples, in the order of the names and multi
ids, by which `std::sort` can sort. -/
theorem main_table (choices : Choices) (program path : Bytes)
    (arguments : List Bytes) (opens : files path = some content)
    (exits : (Programs.main (report choices) program (path :: arguments) files
      []).1 = .ok 0) :
    ∃ (before after : Bytes) (table : List Subscription),
      (Programs.main (report choices) program (path :: arguments) files []).2 =
        before ++ (tableHeading ++
          (table.flatMap subscriptionLine ++ after)) ∧
      (∀ subscription, subscription ∈ table ↔
        Callback.subscriptionFor subscription.addLoggedMessage.msgId
          (Programs.readFile content).2.delivery.calls = some subscription) ∧
      table.Nodup ∧
      (table.Pairwise fun first second =>
        ¬ Precedes (rowKey second) (rowKey first)) ∧
      let subscriptions :=
        (Programs.readFile content).2.delivery.handler.subscriptions
      WeakOrder (comesBefore subscriptions) (choices.iterate subscriptions) := by
  obtain ⟨returned, valid, showable⟩ :=
    (main_zero_iff choices program path arguments opens).mp exits
  obtain ⟨reader, read⟩ : ∃ reader, Programs.readFile content =
      (.ok (), reader) := ⟨_, Prod.ext returned rfl⟩
  rw [read] at valid showable ⊢
  have recalls := DataContainer.container_recalls
    (Programs.readFile_reachable read)
  have printed := @Programs.main_report (report choices) program path content
    arguments files reader opens read valid []
  rw [report_prints choices showable, List.nil_append, ← List.append_assoc]
    at printed
  obtain ⟨rows, sorted⟩ := rows_table choices
    reader.delivery.handler.subscriptions
  obtain ⟨complete, once⟩ := lookups_complete rows (recalls_numbered recalls)
  refine ⟨_, _, _, congrArg Prod.snd printed, fun subscription => ?_, once,
    sorted, comesBefore_weakOrder _ _⟩
  rw [complete, recalls.subscriptions]

theorem sampleFile_showable :
    Showable (Programs.readFile sampleFile).2.delivery.handler where
  dropouts := by decide +kernel
  infos key info found := by
    have none : (Programs.readFile sampleFile).2.delivery.handler.messageInfo =
        ∅ := rfl
    rw [none, Finmap.lookup_empty] at found
    cases found
  defaults key parameter found := by
    have none : (Programs.readFile
        sampleFile).2.delivery.handler.defaultParameters = ∅ := rfl
    rw [none, Finmap.lookup_empty] at found
    cases found
  initials key parameter found := by
    have none : (Programs.readFile
        sampleFile).2.delivery.handler.initialParameters = ∅ := rfl
    rw [none, Finmap.lookup_empty] at found
    cases found

theorem main_table_sampleFile :
    let outcome := Programs.main (report .ascending) (ascii "ulog_info")
      [ascii "a.ulg"] (fun _ => some sampleFile) []
    ∃ (before after : Bytes) (table : List Subscription),
      outcome.2 = before ++ (tableHeading ++
        (table.flatMap subscriptionLine ++ after)) ∧
      (∀ subscription, subscription ∈ table ↔
        Callback.subscriptionFor subscription.addLoggedMessage.msgId
          (Programs.readFile sampleFile).2.delivery.calls =
            some subscription) ∧
      table.Nodup ∧
      (table.Pairwise fun first second =>
        ¬ Precedes (rowKey second) (rowKey first)) ∧
      let subscriptions :=
        (Programs.readFile sampleFile).2.delivery.handler.subscriptions
      WeakOrder (comesBefore subscriptions)
        (Choices.ascending.iterate subscriptions) := by
  have opens : (fun _ : Bytes => some sampleFile) (ascii "a.ulg") =
      some sampleFile := rfl
  have exits := main_zero_iff .ascending (ascii "ulog_info") _ [] opens
  exact main_table .ascending _ _ _ opens (exits.mpr
    ⟨by decide +kernel, by decide +kernel, sampleFile_showable⟩)

end Main

end UlogInfo

end UlogCpp
