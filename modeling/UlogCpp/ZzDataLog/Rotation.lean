import UlogCpp.ZzDataLog.Attribution
import UlogCpp.ZzDataLog.PayloadSize

namespace UlogCpp

/-! What a reader finds in the files that calls of `Write` leave behind. -/

def Subscription.payloadsFor (name : Bytes) (subscription : Subscription) :
    List Bytes :=
  if subscription.addLoggedMessage.messageName = name then
    subscription.data.map Data.data
  else []

def DataContainer.payloads (name : Bytes) (container : DataContainer) :
    List Bytes :=
  (List.range 65536).flatMap fun id =>
    ((container.subscriptions.lookup (UInt16.ofNat id)).map
      (Subscription.payloadsFor name)).getD []

theorem flatMap_of_single {list : List α} {value : α} {image : α → List β}
    (nodup : list.Nodup) (mem : value ∈ list)
    (only : ∀ other ∈ list, other ≠ value → image other = []) :
    list.flatMap image = image value := by
  induction list with
  | nil => cases mem
  | cons head list ih =>
      obtain ⟨fresh, rest⟩ := List.nodup_cons.mp nodup
      rw [List.flatMap_cons]
      by_cases here : head = value
      · have none : list.flatMap image = [] := by
          refine List.flatMap_eq_nil_iff.mpr fun other later => ?_
          apply only other (List.mem_cons_of_mem _ later)
          rintro rfl
          exact fresh (here ▸ later)
        rw [none, here, List.append_nil]
      · rw [only head List.mem_cons_self here, List.nil_append]
        apply ih rest
        · exact (List.mem_cons.mp mem).resolve_left (Ne.symm here)
        · exact fun other later =>
            only other (List.mem_cons_of_mem _ later)

namespace ZzDataLog

open SimpleWriter (Call)

/-- The files of a log in the order of their creation; the last one is still
open. -/
def files (log : ZzDataLog) : List LogFile :=
  log.closedFiles ++
    (log.writer.map fun writer =>
      { name := log.initParams.fileName
        content := writer.output
        journal := log.journal }).toList

/-- What a reader of the file makes of it, in whatever chunks it gets it. -/
def ReadsAs (file : LogFile) (container : DataContainer) : Prop :=
  ∀ (first : Bytes) (chunks : List Bytes),
    (first :: chunks).flatten = file.content → 59 ≤ first.length → ∃ reached,
      Reader.readChunks DataContainer.handler (first :: chunks)
        (Reader.init { storageConfig := .fullLog }) = (.ok (), reached) ∧
      reached.delivery.handler = container

def Request.valueFor (name : Bytes) : Request → Option Bytes
  | write messageName data => if messageName = name then some data else none
  | _ => none

def valuesFor (name : Bytes) (requests : List (Env × Request)) : List Bytes :=
  requests.filterMap fun request => request.2.valueFor name

/-- `_formats[name].message_size` -/
def messageSizeOf (log : ZzDataLog) (name : Bytes) : Nat :=
  ((log.formats.lookup name).map fun format =>
    format.messageSize.toNat).getD 0

/-- Readers of the files find no error, and all together the first bytes of the
values that have been written, under their names and in their order. -/
def Transparent (begun : ZzDataLog) (requests : List (Env × Request)) : Prop :=
  ∃ containers,
    List.Forall₂ ReadsAs (Exec.final perform requests begun).files containers ∧
    (∀ container ∈ containers, container.parsingErrors = []) ∧
    ∀ name, containers.flatMap (DataContainer.payloads name) =
      (valuesFor name requests).map
        (List.take (messageSizeOf begun name))

def startsFile (log : ZzDataLog) (request : Env × Request) : Bool :=
  match request.2.sample log with
  | some (_, data) => decide (Rotates log data)
  | none => false

def rotations : List (Env × Request) → ZzDataLog → Nat
  | [], _ => 0
  | request :: requests, log =>
      (if startsFile log request then 1 else 0) +
        rotations requests (perform request log).2

structure Writes (value : Nat) (requests : List (Env × Request))
    (begun : ZzDataLog) : Prop where
  writes : ∀ request ∈ requests, ∃ name data, request.2 = .write name data
  opens : ∀ request ∈ requests, request.1.opens = true
  returned : Exec.Throughout perform
    (fun log request => (perform request log).1 = .ok none) requests begun
  below : value + rotations requests begun < 2 ^ 31 - 1

/-- The ids are distinct, and the messages that `Init` writes have a size that
the serializers do not narrow. -/
structure Carries (key keyValue : Bytes) (structs : List StructInfo) :
    Prop where
  few : structs.length ≤ 65536
  info : (Message.messageInfo
    ((SimpleWriter.InfoValue.string keyValue).messageInfo key)
      .info).body.length < 2 ^ 31
  formats : ∀ struct ∈ structs, (Message.messageFormat
    { name := struct.messageName, fields := struct.fields }).body.length <
      2 ^ 31

/-- The size of the struct has not come out as zero, and a message of this size
is not narrowed. -/
def Sized (structs : List StructInfo) (name : Bytes) : Prop :=
  ∀ struct ∈ structs, struct.messageName = name →
    SimpleWriter.messageSize struct.fields ≠ 0 ∧
      2 + SimpleWriter.messageSize struct.fields < 2 ^ 31

instance (structs : List StructInfo) (name : Bytes) :
    Decidable (Sized structs name) :=
  inferInstanceAs (Decidable (∀ struct ∈ structs, _ → _))

/-! ## What Init and Write leave in a file -/

def dataEntry (sample : UInt16 × Bytes) : Entry :=
  (.writeData sample.1 sample.2, .ok none)

def Filled (key keyValue : Bytes) (structs : List StructInfo)
    (journal : List Entry) : Prop :=
  ∃ samples : List (UInt16 × Bytes),
    journal = initEntries key keyValue structs ++ samples.map dataEntry ∧
      ∀ sample ∈ samples, sample.2 ≠ [] ∧ 2 + sample.2.length < 2 ^ 31

section Filled

variable {key keyValue : Bytes} {structs : List StructInfo}
  {journal : List Entry} {samples : List (UInt16 × Bytes)}

theorem issued_dataEntry (samples : List (UInt16 × Bytes)) :
    issued (samples.map dataEntry) = [] := by
  rw [issued, List.filterMap_map]
  exact List.filterMap_eq_nil_iff.mpr fun _ _ => rfl

theorem mem_seriesEntries {number : Nat} {entry : Entry}
    (mem : entry ∈ seriesEntries number structs) :
    ∃ index struct, structs[index]? = some struct ∧
      entry = (.writeAddLoggedMessage struct.messageName 0,
        .ok (some (UInt16.ofNat (number + index)))) := by
  induction structs generalizing number with
  | nil => cases mem
  | cons struct structs ih =>
      rcases List.mem_cons.mp mem with rfl | later
      · exact ⟨0, struct, rfl, rfl⟩
      · obtain ⟨index, other, known, same⟩ := ih later
        refine ⟨index + 1, other, known, ?_⟩
        rw [same, Nat.add_right_comm, Nat.add_assoc]

theorem mem_initEntries {entry : Entry}
    (mem : entry ∈ initEntries key keyValue structs) :
    entry = (.writeInfo key (.string keyValue), .ok none) ∨
      (∃ struct ∈ structs, entry = formatEntry struct) ∨
      entry = (.headerComplete, .ok none) ∨
      ∃ index struct, structs[index]? = some struct ∧
        entry = (.writeAddLoggedMessage struct.messageName 0,
          .ok (some (UInt16.ofNat (0 + index)))) := by
  rcases List.mem_cons.mp mem with info | mem
  · exact .inl info
  · rcases List.mem_append.mp mem with format | mem
    · obtain ⟨struct, here, same⟩ := List.mem_map.mp format
      exact .inr (.inl ⟨struct, here, same.symm⟩)
    · rcases List.mem_cons.mp mem with complete | series
      · exact .inr (.inr (.inl complete))
      · exact .inr (.inr (.inr (mem_seriesEntries series)))

theorem dataOf_initEntries (key keyValue : Bytes) (structs : List StructInfo) :
    (initEntries key keyValue structs).filterMap dataOf = [] := by
  refine List.filterMap_eq_nil_iff.mpr fun entry mem => ?_
  rcases mem_initEntries mem with rfl | ⟨struct, _, rfl⟩ | rfl |
    ⟨index, struct, _, rfl⟩
  · rfl
  · rfl
  · rfl
  · rfl

theorem issued_filled (key keyValue : Bytes) (structs : List StructInfo)
    (samples : List (UInt16 × Bytes)) :
    issued (initEntries key keyValue structs ++ samples.map dataEntry) =
      issued (seriesEntries 0 structs) := by
  rw [issued_append, issued_initEntries, issued_dataEntry, List.append_nil]

theorem Filled.initial (filled : Filled key keyValue structs journal)
    (few : structs.length ≤ 65536) {log : ZzDataLog}
    (same : log.journal = journal) : Initial structs log := by
  obtain ⟨samples, rfl, _⟩ := filled
  intro id name multiId mem
  rw [same, issued_filled] at mem
  obtain ⟨index, found⟩ := List.mem_iff_getElem?.mp mem
  rw [getElem?_issued] at found
  obtain ⟨struct, known, is⟩ := Option.map_eq_some_iff.mp found
  cases is
  have below : index < 65536 :=
    Nat.lt_of_lt_of_le (List.getElem?_eq_some_iff.mp known).1 few
  refine ⟨struct, ?_, rfl, rfl⟩
  rw [UInt16.toNat_ofNat', Nat.zero_add, Nat.mod_eq_of_lt below]
  exact known

theorem length_issued (number : Nat) (structs : List StructInfo) :
    (issued (seriesEntries number structs)).length = structs.length := by
  induction structs generalizing number with
  | nil => rfl
  | cons struct structs ih => exact congrArg (· + 1) (ih (number + 1))

theorem small_series {struct : StructInfo} {id : UInt16}
    (some : struct.fields ≠ [])
    (small : (Message.messageFormat
      { name := struct.messageName, fields := struct.fields }).body.length <
        2 ^ 31) :
    (Message.addLoggedMessage
      { multiId := 0, msgId := id, messageName := struct.messageName
        }).body.length < 2 ^ 31 := by
  have enough := two_le_encodeFields some
  rw [SimpleWriter.body_messageFormat, MessageFormat.formatStr,
    List.length_append, List.length_cons] at small
  rw [Message.length_addLoggedMessage]
  have total : struct.messageName.length +
      ((MessageFormat.encodeFields struct.fields).length + 1) < 2 ^ 31 := small
  change 3 + struct.messageName.length < 2 ^ 31
  omega

theorem Filled.readable (filled : Filled key keyValue structs journal)
    (carries : Carries key keyValue structs)
    (fields : ∀ struct ∈ structs, struct.fields ≠ []) :
    Readable journal := by
  obtain ⟨samples, rfl, fit⟩ := filled
  have entries : ∀ entry,
      entry ∈ initEntries key keyValue structs ++ samples.map dataEntry →
      entry ∈ initEntries key keyValue structs ∨
        ∃ sample ∈ samples, entry = dataEntry sample := by
    intro entry mem
    rcases List.mem_append.mp mem with early | late
    · exact .inl early
    · obtain ⟨sample, here, same⟩ := List.mem_map.mp late
      exact .inr ⟨sample, here, same.symm⟩
  refine ⟨?_, ?_, ?_, ?_, ?_⟩
  · intro name formatFields outcome mem
    rcases entries _ mem with early | ⟨sample, _, same⟩
    · rcases mem_initEntries early with same | ⟨struct, here, same⟩ | same |
        ⟨index, struct, _, same⟩
      · cases same
      · cases same
        exact ⟨rfl, fields struct here, carries.formats struct here⟩
      · cases same
      · cases same
    · cases same
  · rw [issued_filled, length_issued]
    exact carries.few
  · intro message mem
    obtain ⟨entry, here, is⟩ := List.mem_filterMap.mp mem
    rcases entries _ here with early | ⟨sample, among, rfl⟩
    · rcases mem_initEntries early with rfl | ⟨struct, listed, rfl⟩ | rfl |
        ⟨index, struct, known, rfl⟩
      · cases is
        exact carries.info
      · cases is
        exact carries.formats struct listed
      · cases is
      · cases is
        have mem := List.mem_of_getElem? known
        exact small_series (fields struct mem) (carries.formats struct mem)
    · cases is
      have size : (Message.data ⟨sample.1, sample.2⟩).body.length =
          2 + sample.2.length := by
        rw [Message.body, Message.fixed, Message.pieces,
          List.flatten_singleton, List.length_append, length_leBytes]
      rw [size]
      exact (fit sample among).2
  · intro level message timestamp result mem
    rcases entries _ mem with early | ⟨sample, _, same⟩
    · rcases mem_initEntries early with same | ⟨struct, _, same⟩ | same |
        ⟨index, struct, _, same⟩ <;> cases same
    · cases same
  · intro id data result mem
    rcases entries _ mem with early | ⟨sample, among, same⟩
    · rcases mem_initEntries early with same | ⟨struct, _, same⟩ | same |
        ⟨index, struct, _, same⟩ <;> cases same
    · cases same
      exact (fit sample among).1

end Filled

/-! ## From file to file -/

def written (log : ZzDataLog) : List (UInt16 × Bytes) :=
  log.files.flatMap fun file => file.journal.filterMap dataOf

structure Rolling (base key keyValue : Bytes) (structs : List StructInfo)
    (value : Nat) (log : ZzDataLog) : Prop where
  named : ∃ version, Numeral version value ∧
    log.initParams.fileName = fileName base version ∧
    log.file = .opened (fileName base version)
  on : log.zzDataLogOn = true
  some : log.writer ≠ none
  live : Live key keyValue structs log
  journaled : Journaled Fits log
  earlier : ∀ file ∈ log.closedFiles, ∃ version number,
    Numeral version number ∧ file.name = fileName base version ∧ number < value
  filled : ∀ file ∈ log.files, Filled key keyValue structs file.journal

section Rolling

variable {base key keyValue : Bytes} {structs : List StructInfo} {value : Nat}
  {log reached after : ZzDataLog} {env : Env} {writer : Writer}

theorem files_some (has : log.writer = some writer) :
    log.files = log.closedFiles ++
      [{ name := log.initParams.fileName
         content := writer.output
         journal := log.journal }] := by
  rw [files, has]
  rfl

theorem written_some (has : log.writer = some writer) :
    log.written =
      (log.closedFiles.flatMap fun file => file.journal.filterMap dataOf) ++
        log.journal.filterMap dataOf := by
  rw [written, files_some has, List.flatMap_append, List.flatMap_singleton]

theorem emitData_returned {id : UInt16} {data : Bytes}
    (returned : Method.emitData id data log = (.ok (), after)) :
    ∃ final, after = { log with
      writer := .some final
      journal := log.journal ++ [dataEntry (id, data)] } := by
  cases has : log.writer with
  | none =>
      simp only [Method.emitData, has] at returned
      cases returned
  | some writer =>
      rw [emitData_apply has] at returned
      obtain ⟨outcome, rfl⟩ := Prod.mk.inj returned
      refine ⟨(Writer.Handle.data ⟨id, data⟩ writer).2, ?_⟩
      cases emitted : (Writer.Handle.data ⟨id, data⟩ writer).1 with
      | error exception =>
          rw [emitted] at outcome
          cases outcome
      | ok value => rfl

theorem lookup_numbered {number : Nat} {idMap : Map Bytes UInt16} {name : Bytes}
    {id : UInt16}
    (found : (numbered number structs idMap).lookup name = .some id) :
    (∃ index struct, structs[index]? = .some struct ∧
      struct.messageName = name ∧ id = UInt16.ofNat (number + index)) ∨
      idMap.lookup name = .some id := by
  induction structs generalizing number idMap with
  | nil => exact .inr found
  | cons struct structs ih =>
      rcases ih found with ⟨index, other, known, same, is⟩ | earlier
      · refine .inl ⟨index + 1, other, known, same, ?_⟩
        rw [is, Nat.add_right_comm, Nat.add_assoc]
      · rw [Map.lookup_insert_eq] at earlier
        split at earlier
        next same =>
          cases earlier
          exact .inl ⟨0, struct, rfl, same.symm, rfl⟩
        next => exact .inr earlier

theorem startsFile_of_sample {request : Env × Request} {id : UInt16}
    {data : Bytes} (sample : request.2.sample log = .some (id, data)) :
    startsFile log request = decide (Rotates log data) := by
  rw [startsFile, sample]

theorem lookup_of_returned {name data : Bytes}
    (returned : (perform (env, .write name data) log).1 = .ok none) :
    ∃ id, log.idMap.lookup name = .some id := by
  cases known : log.idMap.lookup name with
  | none =>
      have failed : Method.write env name data log =
          (.error (.raised (.usage (ascii "id not found"))), log) := by
        unfold Method.write
        rw [Exec.get_bind_apply, known]
        rfl
      rw [perform, Exec.bind_error failed] at returned
      cases returned
  | some id => exact ⟨id, rfl⟩

namespace Rolling

variable (rolling : Rolling base key keyValue structs value log)

include rolling

theorem current : Filled key keyValue structs log.journal := by
  obtain ⟨writer, has⟩ := Option.ne_none_iff_exists'.mp rolling.some
  have all := rolling.filled
  rw [files_some has] at all
  exact all _ (List.mem_append_right _ List.mem_cons_self)

theorem counted (data : Bytes) :
    Rolling base key keyValue structs value (log.counted data) where
  named := rolling.named
  on := rolling.on
  some := rolling.some
  live := rolling.live.counted data
  journaled := rolling.journaled.counted data
  earlier := rolling.earlier
  filled := rolling.filled

theorem canRotate (opens : env.opens = true) (small : value + 1 < 2 ^ 31) :
    CanRotate env log := by
  obtain ⟨version, numeral, params, file⟩ := rolling.named
  have generated := @generateNewPathOrFilename_fileName base _ _ numeral small
  rw [← params] at generated
  exact ⟨⟨_, file⟩, ⟨_, generated⟩, opens⟩

/-- The next file begins with what `Init` writes, and no file is lost. -/
theorem rotate (replays : Replays key keyValue structs)
    (opens : env.opens = true) (small : value + 1 < 2 ^ 31) :
    ∃ reached, Method.rotate env log = (.ok (), reached) ∧
      Rolling base key keyValue structs (value + 1) reached ∧
      reached.written = log.written := by
  have can := rolling.canRotate opens small
  obtain ⟨version, numeral, params, file⟩ := rolling.named
  obtain ⟨reached, rotated, renewed⟩ :=
    rolling.live.rotate_ok replays rolling.some can
  obtain ⟨_, _, journal, live⟩ := renewed.live rolling.live
  have journaled := @Journaled.rotate _ _ env rolling.journaled
  rw [rotated] at journaled
  obtain ⟨name, newFilename, writer, opened, has, generated, _, core, header,
    same⟩ := renewed.files
  rw [params, generateNewPathOrFilename_fileName numeral small] at generated
  cases generated
  cases file.symm.trans opened
  have next := Numeral.decimal (value + 1)
  have others : ∀ closed ∈ log.files, ∃ version number,
      Numeral version number ∧ closed.name = fileName base version ∧
        number < value + 1 := by
    intro closed mem
    rw [files_some has] at mem
    rcases List.mem_append.mp mem with before | last
    · obtain ⟨other, number, known, is, below⟩ := rolling.earlier closed before
      exact ⟨other, number, known, is, Nat.lt_succ_of_lt below⟩
    · rw [List.mem_singleton.mp last]
      exact ⟨version, value, numeral, params, Nat.lt_succ_self value⟩
  have kept : reached.closedFiles = log.files := by
    have all : ∀ closed ∈ log.files,
        (closed.name != fileName base (decimal (value + 1))) = true := by
      intro closed mem
      obtain ⟨other, number, known, is, below⟩ := others closed mem
      rw [bne_iff_ne, is]
      intro equal
      exact absurd (fileName_injective known next equal) (Nat.ne_of_lt below)
    rw [same, ← List.filter_eq_self.mpr all, files_some has, params]
    rfl
  have now : reached.writer = .some core.writer := by
    rw [same]
    rfl
  refine ⟨reached, rotated, ⟨⟨_, next, ?_, ?_⟩, ?_, ?_, live, journaled, ?_, ?_⟩,
    ?_⟩
  · rw [same]
    rfl
  · rw [same]
    rfl
  · rw [same]
    exact rolling.on
  · rw [now]
    exact Option.some_ne_none _
  · rw [kept]
    exact others
  · rw [files_some now, kept]
    refine List.forall_mem_append.mpr ⟨rolling.filled, ?_⟩
    refine List.forall_mem_singleton.mpr ⟨[], ?_, List.forall_mem_nil _⟩
    exact journal.trans (List.append_nil _).symm
  · rw [written_some now, kept, journal, dataOf_initEntries, List.append_nil,
      written]

theorem emit {id : UInt16} {data : Bytes}
    (returned : Method.emitData id data log = (.ok (), after))
    (nonempty : data ≠ []) (small : 2 + data.length < 2 ^ 31)
    (journaled : Journaled Fits after) :
    Rolling base key keyValue structs value after ∧
      after.written = log.written ++ [(id, data)] := by
  obtain ⟨writer, has⟩ := Option.ne_none_iff_exists'.mp rolling.some
  obtain ⟨samples, journal, fit⟩ := rolling.current
  obtain ⟨final, same⟩ := emitData_returned returned
  have now : after.writer = .some final := by
    rw [same]
  have filled : Filled key keyValue structs after.journal := by
    refine ⟨samples ++ [(id, data)], ?_, ?_⟩
    · rw [same, List.map_append, ← List.append_assoc, ← journal]
      rfl
    · exact List.forall_mem_append.mpr
        ⟨fit, List.forall_mem_singleton.mpr ⟨nonempty, small⟩⟩
  have closed : after.closedFiles = log.closedFiles := by
    rw [same]
  refine ⟨⟨?_, ?_, ?_, ?_, journaled, ?_, ?_⟩, ?_⟩
  · rw [same]
    exact rolling.named
  · rw [same]
    exact rolling.on
  · rw [now]
    exact Option.some_ne_none _
  · rw [same]
    refine { rolling.live with journal := ?_ }
    obtain ⟨later, whole, all⟩ := rolling.live.journal
    refine ⟨later ++ [dataEntry (id, data)], ?_, ?_⟩
    · rw [whole, List.append_assoc]
    · exact List.forall_mem_append.mpr ⟨all, List.forall_mem_singleton.mpr rfl⟩
  · rw [closed]
    exact rolling.earlier
  · have all := rolling.filled
    rw [files_some has] at all
    rw [files_some now, closed]
    refine List.forall_mem_append.mpr ⟨fun file mem => ?_, ?_⟩
    · exact all file (List.mem_append_left _ mem)
    · exact List.forall_mem_singleton.mpr filled
  · rw [written_some now, written_some has, closed, same, List.filterMap_append,
      ← List.append_assoc]
    rfl

theorem struct_of_lookup (few : structs.length ≤ 65536) {name : Bytes}
    {id : UInt16} (known : log.idMap.lookup name = .some id) :
    ∃ struct, structs[id.toNat]? = .some struct ∧
      struct.messageName = name := by
  rw [rolling.live.idMap] at known
  rcases lookup_numbered known with ⟨index, struct, here, same, rfl⟩ | nowhere
  · have below : index < 65536 :=
      Nat.lt_of_lt_of_le (List.getElem?_eq_some_iff.mp here).1 few
    refine ⟨struct, ?_, same⟩
    rw [UInt16.toNat_ofNat', Nat.zero_add, Nat.mod_eq_of_lt below]
    exact here
  · cases nowhere

theorem messageSize (plain : Plain (initEntries key keyValue structs))
    {id : UInt16} {struct : StructInfo}
    {subscription : SimpleWriter.Subscription}
    (known : structs[id.toNat]? = .some struct)
    (subscribed : log.subscriptions[id.toNat]? = .some subscription) :
    subscription.messageSize.toNat = SimpleWriter.messageSize struct.fields := by
  obtain ⟨writer, has⟩ := Option.ne_none_iff_exists'.mp rolling.some
  obtain ⟨samples, journal, _⟩ := rolling.current
  have named : (issued log.journal)[id.toNat]? =
      .some (UInt16.ofNat (0 + id.toNat), struct.messageName, 0) := by
    rw [journal, issued_filled, getElem?_issued, known]
    rfl
  exact rolling.live.messageSize plain (rolling.journaled.current writer has)
    (List.mem_of_getElem? known) named subscribed

theorem writeData {id : UInt16} {data : Bytes}
    {subscription : SimpleWriter.Subscription}
    (replays : Replays key keyValue structs) (opens : env.opens = true)
    (small : Rotates log data → value + 1 < 2 ^ 31)
    (accepts : Accepts log id data subscription)
    (nonempty : data.take subscription.messageSize.toNat ≠ [])
    (narrow : 2 + (data.take subscription.messageSize.toNat).length < 2 ^ 31)
    (returned : Method.writeData env id data log = (.ok (), after))
    (journaled : Journaled Fits after) :
    Rolling base key keyValue structs
        (value + if decide (Rotates log data) then 1 else 0) after ∧
      after.written = log.written ++
        [(id, data.take subscription.messageSize.toNat)] := by
  rw [Method.writeData_accepted accepts] at returned
  by_cases rotates : Rotates log data
  · obtain ⟨reached, rotated, next, kept⟩ :=
      (rolling.counted data).rotate replays opens (small rotates)
    rw [if_pos rotates, Exec.bind_ok rotated] at returned
    have emitted := next.emit returned nonempty narrow journaled
    rw [kept] at emitted
    rw [decide_eq_true rotates]
    exact emitted
  · rw [if_neg rotates] at returned
    rw [decide_eq_false rotates]
    exact (rolling.counted data).emit returned nonempty narrow journaled

/-- A call of `Write` that returns adds the first bytes of its value. -/
theorem write {name data : Bytes} (replays : Replays key keyValue structs)
    (plain : Plain (initEntries key keyValue structs))
    (few : structs.length ≤ 65536) (sized : Sized structs name)
    (opens : env.opens = true)
    (small : startsFile log (env, .write name data) = true →
      value + 1 < 2 ^ 31)
    (returned : (perform (env, .write name data) log).1 = .ok none) :
    ∃ id struct, structs[id.toNat]? = .some struct ∧
      struct.messageName = name ∧
      Rolling base key keyValue structs
        (value + if startsFile log (env, .write name data) then 1 else 0)
        (perform (env, .write name data) log).2 ∧
      (perform (env, .write name data) log).2.written = log.written ++
        [(id, data.take (SimpleWriter.messageSize struct.fields))] := by
  obtain ⟨id, known⟩ := lookup_of_returned returned
  have sample : (Request.write name data).sample log = .some (id, data) := by
    rw [Request.sample, rolling.on, known]
    rfl
  have session : Session (Live key keyValue structs) log :=
    .of_live rolling.some rolling.live
  have initial : Initial structs log := rolling.current.initial few rfl
  have journaled : Journaled Fits (perform (env, .write name data) log).2 :=
    rolling.journaled.perform (admissible_fits session replays plain
      rolling.journaled fun _ _ _ _ _ _ _ => initial)
  have wrote := writeData_returns sample returned
  obtain ⟨struct, here, same⟩ := rolling.struct_of_lookup few known
  refine ⟨id, struct, here, same, ?_⟩
  rw [startsFile_of_sample sample] at small ⊢
  rw [perform_sample sample] at journaled ⊢
  rcases Method.writeData_cases env id data log with ⟨reason, refused⟩ |
    ⟨subscription, accepts, _⟩
  · rw [refused] at wrote
    cases wrote
  have size := rolling.messageSize plain here accepts.subscribed
  obtain ⟨positive, narrow⟩ := sized struct (List.mem_of_getElem? here) same
  have length := List.length_take_of_le accepts.le_length
  have nonempty : data.take subscription.messageSize.toNat ≠ [] := by
    intro empty
    rw [empty, size] at length
    exact positive length.symm
  rw [← size, ← length] at narrow
  rw [← size]
  exact rolling.writeData replays opens
    (fun rotates => small (decide_eq_true rotates)) accepts nonempty narrow
    (Prod.ext wrote rfl) journaled

end Rolling

end Rolling

/-! ## What the readers find -/

def samplesNamed (structs : List StructInfo) (name : Bytes)
    (samples : List (UInt16 × Bytes)) : List Bytes :=
  (samples.filter fun sample =>
    structs[sample.1.toNat]?.map StructInfo.messageName == some name).map
      Prod.snd

section Readers

variable {base key keyValue name : Bytes} {structs : List StructInfo}
  {value : Nat} {log : ZzDataLog} {journal : List Entry}
  {container : DataContainer}

theorem samplesNamed_append (more samples : List (UInt16 × Bytes)) :
    samplesNamed structs name (samples ++ more) =
      samplesNamed structs name samples ++ samplesNamed structs name more := by
  rw [samplesNamed, List.filter_append, List.map_append]
  rfl

theorem index_of_name
    (distinct : (structs.map StructInfo.messageName).Nodup) {index other : Nat}
    (first : structs[index]?.map StructInfo.messageName = some name)
    (second : structs[other]?.map StructInfo.messageName = some name) :
    index = other := by
  rw [← List.getElem?_map] at first second
  have below := (List.getElem?_eq_some_iff.mp first).1
  exact (List.getElem?_inj below distinct).mp (first.trans second.symm)

theorem series_filled (filled : Filled key keyValue structs journal)
    (id : UInt16) :
    series journal id = structs[id.toNat]?.map fun struct =>
      { addLoggedMessage :=
          { multiId := 0, msgId := id, messageName := struct.messageName }
        data := samplesOf journal id } := by
  obtain ⟨samples, same, _⟩ := filled
  have all : issued journal = issued (seriesEntries 0 structs) := by
    rw [same, issued_filled]
  rw [series, all, lookup_issued structs (Nat.zero_le _), Nat.sub_zero,
    Option.map_map]
  rfl

theorem payloadsFor_series (filled : Filled key keyValue structs journal)
    (id : UInt16) :
    ((series journal id).map (Subscription.payloadsFor name)).getD [] =
      if structs[id.toNat]?.map StructInfo.messageName = some name then
        ((journal.filterMap dataOf).filter fun sample =>
          sample.1 == id).map Prod.snd
      else [] := by
  rw [series_filled filled]
  cases structs[id.toNat]? with
  | none => rfl
  | some struct =>
      simp only [Option.map_some, Option.getD_some]
      by_cases same : struct.messageName = name
      · rw [if_pos (congrArg some same)]
        refine (if_pos same).trans ?_
        rw [samplesOf, List.map_map]
        rfl
      · rw [if_neg fun equal => same (Option.some.inj equal)]
        exact if_neg same

theorem payloads_filled (filled : Filled key keyValue structs journal)
    (few : structs.length ≤ 65536)
    (distinct : (structs.map StructInfo.messageName).Nodup)
    (lookups : ∀ id, container.subscriptions.lookup id = series journal id)
    (name : Bytes) :
    container.payloads name =
      samplesNamed structs name (journal.filterMap dataOf) := by
  have number : ∀ {id}, id < 65536 → (UInt16.ofNat id).toNat = id := fun below =>
    UInt16.toNat_ofNat_of_lt' below
  by_cases there : ∃ index : Nat,
      structs[index]?.map StructInfo.messageName = some name
  · obtain ⟨index, known⟩ := there
    obtain ⟨struct, found, _⟩ := Option.map_eq_some_iff.mp known
    have below : index < 65536 :=
      Nat.lt_of_lt_of_le (List.getElem?_eq_some_iff.mp found).1 few
    have only : ∀ other ∈ List.range 65536, other ≠ index →
        ((container.subscriptions.lookup (UInt16.ofNat other)).map
          (Subscription.payloadsFor name)).getD [] = [] := by
      intro other mem different
      rw [lookups, payloadsFor_series filled, number (List.mem_range.mp mem)]
      exact if_neg fun also => different (index_of_name distinct also known)
    rw [DataContainer.payloads, flatMap_of_single List.nodup_range
      (List.mem_range.mpr below) only, lookups, payloadsFor_series filled,
      number below, if_pos known, samplesNamed]
    refine congrArg (List.map Prod.snd) (List.filter_congr fun sample _ => ?_)
    rw [Bool.eq_iff_iff, beq_iff_eq, beq_iff_eq]
    constructor
    · intro same
      rw [same, number below]
      exact known
    · intro also
      rw [index_of_name distinct known also, UInt16.ofNat_toNat]
  · have nowhere : ∀ id : Nat,
        structs[id]?.map StructInfo.messageName ≠ some name :=
      not_exists.mp there
    have none : samplesNamed structs name (journal.filterMap dataOf) = [] := by
      rw [samplesNamed, List.filter_eq_nil_iff.mpr]
      · rfl
      · exact fun sample _ is => nowhere _ (beq_iff_eq.mp is)
    rw [none]
    refine List.flatMap_eq_nil_iff.mpr fun id _ => ?_
    rw [lookups, payloadsFor_series filled]
    exact if_neg (nowhere _)

/-- A file of `Init` and `Write` is read without errors. -/
theorem Filled.readsAs {simple : SimpleWriter}
    (filled : Filled key keyValue structs journal)
    (carries : Carries key keyValue structs)
    (fields : ∀ struct ∈ structs, struct.fields ≠ [])
    (distinct : (structs.map StructInfo.messageName).Nodup)
    (recorded : Recorded Fits journal simple) (file : LogFile)
    (content : simple.writer.output = file.content) :
    ∃ container, ReadsAs file container ∧ container.parsingErrors = [] ∧
      ∀ name, container.payloads name =
        samplesNamed structs name (journal.filterMap dataOf) := by
  obtain ⟨timestampUs, reads⟩ :=
    recorded.reads (filled.readable carries fields)
  obtain ⟨container, read, errors, lookups⟩ := reads.container
  refine ⟨container, fun first chunks layout sized => ?_, errors, ?_⟩
  · exact read (layout.trans content.symm) sized
  · exact payloads_filled filled carries.few distinct lookups

theorem Rolling.recorded (rolling : Rolling base key keyValue structs value log) :
    ∀ file ∈ log.files, ∃ simple,
      Recorded Fits file.journal simple ∧
        simple.writer.output = file.content := by
  obtain ⟨writer, has⟩ := Option.ne_none_iff_exists'.mp rolling.some
  rw [files_some has]
  refine List.forall_mem_append.mpr ⟨rolling.journaled.closed, ?_⟩
  exact List.forall_mem_singleton.mpr
    ⟨_, rolling.journaled.current writer has, rfl⟩

theorem containers_of_files {files : List LogFile}
    {payloads : Bytes → LogFile → List Bytes}
    (all : ∀ file ∈ files, ∃ container : DataContainer,
      ReadsAs file container ∧ container.parsingErrors = [] ∧
        ∀ name, container.payloads name = payloads name file) :
    ∃ containers, List.Forall₂ ReadsAs files containers ∧
      (∀ container ∈ containers, container.parsingErrors = []) ∧
      ∀ name, containers.flatMap (DataContainer.payloads name) =
        files.flatMap (payloads name) := by
  induction files with
  | nil => exact ⟨[], .nil, List.forall_mem_nil _, fun _ => rfl⟩
  | cons file files ih =>
      obtain ⟨here, others⟩ := List.forall_mem_cons.mp all
      obtain ⟨container, reads, errors, same⟩ := here
      obtain ⟨containers, rest, clean, equal⟩ := ih others
      refine ⟨container :: containers, .cons reads rest,
        List.forall_mem_cons.mpr ⟨errors, clean⟩, fun name => ?_⟩
      rw [List.flatMap_cons, List.flatMap_cons, same, equal]

theorem samplesNamed_flatMap (files : List LogFile) :
    (files.flatMap fun file =>
      samplesNamed structs name (file.journal.filterMap dataOf)) =
      samplesNamed structs name
        (files.flatMap fun file => file.journal.filterMap dataOf) := by
  induction files with
  | nil => rfl
  | cons file files ih =>
      rw [List.flatMap_cons, List.flatMap_cons, samplesNamed_append, ih]

end Readers

/-! ## Runs -/

section Runs

variable {base key keyValue name : Bytes} {structs : List StructInfo}
  {value : Nat} {log : ZzDataLog} {requests : List (Env × Request)}

theorem samplesNamed_cons {id : UInt16} {data : Bytes} {struct : StructInfo}
    {samples : List (UInt16 × Bytes)}
    (known : structs[id.toNat]? = some struct) :
    samplesNamed structs name ((id, data) :: samples) =
      if struct.messageName = name then
        data :: samplesNamed structs name samples
      else samplesNamed structs name samples := by
  rw [samplesNamed, List.filter_cons, known, Option.map_some]
  by_cases same : struct.messageName = name
  · rw [if_pos same, if_pos (beq_iff_eq.mpr (congrArg some same))]
    rfl
  · rw [if_neg same, if_neg]
    · rfl
    · exact fun equal => same (Option.some.inj (beq_iff_eq.mp equal))

theorem valuesFor_cons {env : Env} {messageName data : Bytes} :
    valuesFor name ((env, .write messageName data) :: requests) =
      if messageName = name then data :: valuesFor name requests
      else valuesFor name requests := by
  rw [valuesFor, List.filterMap_cons, Request.valueFor]
  split
  next none =>
    split at none
    next => cases none
    next different => exact (if_neg different).symm
  next value is =>
    split at is
    next same =>
      cases is
      exact (if_pos same).symm
    next => cases is

theorem Rolling.run (rolling : Rolling base key keyValue structs value log)
    (replays : Replays key keyValue structs)
    (plain : Plain (initEntries key keyValue structs))
    (few : structs.length ≤ 65536)
    (sized : ∀ env name data, (env, .write name data) ∈ requests →
      Sized structs name)
    (writes : Writes value requests log) {size : Bytes → Nat}
    (sizes : ∀ struct ∈ structs,
      size struct.messageName = SimpleWriter.messageSize struct.fields) :
    (∃ last, Rolling base key keyValue structs last
      (Exec.final perform requests log)) ∧
    ∃ samples, (Exec.final perform requests log).written =
        log.written ++ samples ∧
      ∀ name, samplesNamed structs name samples =
        (valuesFor name requests).map (List.take (size name)) := by
  induction requests generalizing log value with
  | nil =>
      exact ⟨⟨value, rolling⟩, [], (List.append_nil _).symm, fun _ => rfl⟩
  | cons request requests ih =>
      obtain ⟨env, request⟩ := request
      obtain ⟨all, opens, ⟨returned, later⟩, below⟩ := writes
      obtain ⟨writeName, data, rfl⟩ := all _ List.mem_cons_self
      rw [rotations] at below
      obtain ⟨id, struct, known, named, next, more⟩ := rolling.write replays
        plain few (sized _ _ _ List.mem_cons_self) (opens _ List.mem_cons_self)
        (fun starts => by rw [starts, if_pos rfl] at below; omega) returned
      obtain ⟨last, samples, whole, rest⟩ := ih next
        (fun _ _ _ mem => sized _ _ _ (List.mem_cons_of_mem _ mem))
        ⟨fun _ mem => all _ (List.mem_cons_of_mem _ mem),
          fun _ mem => opens _ (List.mem_cons_of_mem _ mem), later,
          by rw [Nat.add_assoc]; exact below⟩
      refine ⟨last, (id, data.take (SimpleWriter.messageSize struct.fields)) ::
        samples, ?_, fun name => ?_⟩
      · refine whole.trans ?_
        rw [more, List.append_assoc]
        rfl
      · rw [samplesNamed_cons known, valuesFor_cons, rest, named]
        by_cases same : writeName = name
        · rw [if_pos same, if_pos same, List.map_cons, ← same, ← named,
            sizes struct (List.mem_of_getElem? known)]
        · rw [if_neg same, if_neg same]

theorem rolling_of_init {version : Bytes} {env : Env} {made begun : ZzDataLog}
    (numeral : Numeral version value)
    (constructs : Method.construct env (.file (fileName base version))
      { zzDataLogOn := true } = (.ok (), made))
    (returned : Method.init key keyValue structs made = (.ok (), begun)) :
    Rolling base key keyValue structs value begun ∧ begun.written = [] ∧
      Replays key keyValue structs ∧
      ∀ struct ∈ structs, struct.fields ≠ [] := by
  cases construct_ok constructs
  have new := isNew_made (.file (fileName base version)) env true
  obtain ⟨some, live, replays, journaled⟩ := begun_of_init returned
  obtain ⟨core, same, _, fields⟩ := init_ok new.subscriptions returned
  have now : begun.writer = .some core.writer := by
    rw [same]
    rfl
  have journal : begun.journal = initEntries key keyValue structs := by
    rw [same]
    rfl
  have closed : begun.closedFiles = [] := by
    rw [same]
    rfl
  refine ⟨⟨⟨version, numeral, ?_, ?_⟩, ?_, some, live, journaled, ?_, ?_⟩, ?_,
    replays, fields⟩
  · rw [same]
    rfl
  · rw [same]
    rfl
  · rw [same]
    rfl
  · rw [closed]
    exact List.forall_mem_nil _
  · rw [files_some now, closed, List.nil_append]
    refine List.forall_mem_singleton.mpr ⟨[], ?_, List.forall_mem_nil _⟩
    exact journal.trans (List.append_nil _).symm
  · rw [written_some now, closed, journal, dataOf_initEntries]
    rfl

theorem Rolling.messageSizeOf
    (rolling : Rolling base key keyValue structs value log) {struct : StructInfo}
    (mem : struct ∈ structs) :
    log.messageSizeOf struct.messageName =
      SimpleWriter.messageSize struct.fields := by
  obtain ⟨writer, has⟩ := Option.ne_none_iff_exists'.mp rolling.some
  obtain ⟨_, format, found, size⟩ :=
    (rolling.journaled.current writer has).tabled.formats
      (rolling.live.format mem)
  have known : log.formats.lookup struct.messageName = .some format := found
  rw [ZzDataLog.messageSizeOf, known]
  exact size

end Runs

/-- After `Init`, the calls of `Write` that return write for all readers of the
files, however often a new one is started, if the sizes of what is written are
not narrowed and the ids do not run out. -/
theorem write_transparent {base version key keyValue : Bytes} {value : Nat}
    {env initEnv : Env} {structs : List StructInfo} {made begun : ZzDataLog}
    {requests : List (Env × Request)} (numeral : Numeral version value)
    (constructs : Method.construct env (.file (fileName base version))
      { zzDataLogOn := true } = (.ok (), made))
    (distinct : (structs.map StructInfo.messageName).Nodup)
    (begins : perform (initEnv, .init key keyValue structs) made =
      (.ok none, begun))
    (writes : Writes value requests begun)
    (carries : Carries key keyValue structs)
    (sized : ∀ env name data, (env, .write name data) ∈ requests →
      Sized structs name) :
    Transparent begun requests := by
  obtain ⟨_, _, returned, rest⟩ := Exec.bind_eq_ok.mp begins
  cases rest
  obtain ⟨rolling, empty, replays, fields⟩ :=
    rolling_of_init numeral constructs returned
  have plain := (rolling.current.readable carries fields).plain
  obtain ⟨later, whole, _⟩ := rolling.live.journal
  rw [whole] at plain
  obtain ⟨⟨last, final⟩, samples, written, same⟩ := rolling.run replays
    plain.earlier carries.few sized writes fun struct mem =>
      rolling.messageSizeOf mem
  have all : ∀ file ∈ (Exec.final perform requests begun).files,
      ∃ container, ReadsAs file container ∧ container.parsingErrors = [] ∧
        ∀ name, container.payloads name =
          samplesNamed structs name (file.journal.filterMap dataOf) := by
    intro file mem
    obtain ⟨simple, recorded, content⟩ := final.recorded file mem
    exact (final.filled file mem).readsAs carries fields distinct recorded file
      content
  obtain ⟨containers, reads, errors, payloads⟩ := containers_of_files all
  refine ⟨containers, reads, errors, fun name => ?_⟩
  rw [payloads, samplesNamed_flatMap]
  change samplesNamed structs name (Exec.final perform requests begun).written = _
  rw [written, empty, List.nil_append, same]

def firstFile : Constructor := .file (fileName [97] [49])

theorem numeral_one : Numeral [49] 1 :=
  ⟨List.cons_ne_nil _ _, List.forall_mem_singleton.mpr rfl, rfl⟩

theorem write_returns {log : ZzDataLog} {env : Env} {name bytes data : Bytes}
    {id : UInt16}
    (sample : (Request.write name bytes).sample log = some (id, data))
    (written : (Method.writeData env id data log).1 = .ok ())
    (still : env.tenth = false) :
    (perform (env, .write name bytes) log).1 = .ok none := by
  have whole : Method.writeData env id data log =
      (.ok (), (Method.writeData env id data log).2) := Prod.ext written rfl
  have wrote : Method.write env name bytes log =
      (.ok (), (Method.writeData env id data log).2) := by
    rw [Method.write_sample sample, Exec.bind_ok whole, still]
    rfl
  rw [perform, Exec.bind_ok wrote]
  rfl

theorem oversized_returns :
    (perform (fair, .write [109] oversized) (begun firstFile [timeStruct])).1 =
      .ok none := by
  have ready : (begun firstFile [timeStruct]).headerComplete = true ∧
      (begun firstFile [timeStruct]).subscriptions[0]? = some ⟨8⟩ ∧
      (begun firstFile [timeStruct]).currentFileSize = 0 ∧
      (begun firstFile [timeStruct]).zzDataLogOn = true ∧
      (begun firstFile [timeStruct]).idMap.lookup [109] = some 0 := by
    decide +kernel
  obtain ⟨header, subscribed, empty, on, known⟩ := ready
  have begins : Method.init [107] [118] [timeStruct] (firstFile.made fair true) =
      (.ok (), begun firstFile [timeStruct]) :=
    Prod.ext (by decide +kernel) rfl
  have constructs : Method.construct fair firstFile { zzDataLogOn := true } =
      (.ok (), firstFile.made fair true) := Prod.ext (by decide +kernel) rfl
  obtain ⟨rolling, _, replays, _⟩ :=
    rolling_of_init numeral_one constructs begins
  obtain ⟨reached, rotated, next, _⟩ :=
    @Rolling.rotate _ _ _ _ _ _ fair (rolling.counted oversized) replays rfl
      (by decide)
  obtain ⟨writer, has⟩ := Option.ne_none_iff_exists'.mp next.some
  have emitted : (Method.emitData 0 (oversized.take 8) reached).1 = .ok () := by
    have serialized := @Message.serialize_fits (.data ⟨0, .replicate 8 0⟩)
      writer.output (by decide) (by decide)
    rw [take_oversized, emitData_apply has]
    exact congrArg (fun ran => Except.mapError Failure.raised ran.1) serialized
  have written : (Method.writeData fair 0 oversized
      (begun firstFile [timeStruct])).1 = .ok () := by
    rw [Method.writeData_accepted (accepts_oversized header subscribed),
      if_pos (rotates_oversized empty), Exec.bind_ok rotated]
    exact emitted
  exact write_returns (sample_oversized on known) written rfl

theorem write_transparent_oversized :
    Transparent (begun firstFile [timeStruct])
      [(fair, .write [109] oversized)] :=
  write_transparent numeral_one (Prod.ext (by decide +kernel) rfl)
    (by decide) (Prod.ext (by decide +kernel) rfl)
    ⟨List.forall_mem_singleton.mpr ⟨_, _, rfl⟩,
      List.forall_mem_singleton.mpr rfl, ⟨oversized_returns, trivial⟩, by
        rw [rotations, rotations]
        split <;> decide⟩
    ⟨by decide, by decide +kernel, by decide +kernel⟩
    (fun _ _ _ mem => by
      cases List.mem_singleton.mp mem
      decide +kernel)

/-- The sizes of these fields add up to 2^32. -/
def wrappedStruct : StructInfo where
  messageName := [109]
  fields := timeStruct.fields ++
    [{ type := ascii "uint8_t", name := [97], arrayLength := 2147483647 },
      { type := ascii "uint8_t", name := [98], arrayLength := 2147483641 }]

def wrapped : ZzDataLog :=
  (perform (fair, .write [109] [1]) (begun firstFile [wrappedStruct])).2

def wrappedOutput : Bytes := (wrapped.writer.map Writer.output).getD []

theorem not_transparent :
    ¬ ∀ (base version key keyValue : Bytes) (value : Nat) (env initEnv : Env)
      (structs : List StructInfo) (made begun : ZzDataLog)
      (requests : List (Env × Request)),
      Numeral version value →
      Method.construct env (.file (fileName base version))
        { zzDataLogOn := true } = (.ok (), made) →
      (structs.map StructInfo.messageName).Nodup →
      perform (initEnv, .init key keyValue structs) made = (.ok none, begun) →
      Writes value requests begun → Transparent begun requests := by
  intro always
  have writes : Writes 1 [(fair, .write [109] [1])]
      (begun firstFile [wrappedStruct]) :=
    ⟨List.forall_mem_singleton.mpr ⟨_, _, rfl⟩,
      List.forall_mem_singleton.mpr rfl, ⟨by decide +kernel, trivial⟩,
      by decide +kernel⟩
  have constructs : Method.construct fair firstFile { zzDataLogOn := true } =
      (.ok (), firstFile.made fair true) := Prod.ext (by decide +kernel) rfl
  have begins : perform (fair, .init [107] [118] [wrappedStruct])
      (firstFile.made fair true) = (.ok none, begun firstFile [wrappedStruct]) :=
    Prod.ext (by decide +kernel) rfl
  obtain ⟨containers, reads, errors, _⟩ := always [97] [49] [107] [118] 1 fair
    fair [wrappedStruct] _ _ _ numeral_one constructs (by decide) begins writes
  obtain ⟨writer, has⟩ : ∃ writer, wrapped.writer = some writer :=
    Option.isSome_iff_exists.mp (by decide +kernel)
  have output : wrappedOutput = writer.output := by
    rw [wrappedOutput, has]
    rfl
  have closed : wrapped.closedFiles = [] := by decide +kernel
  have last : Exec.final perform [(fair, .write [109] [1])]
      (begun firstFile [wrappedStruct]) = wrapped := rfl
  rw [last, files_some has, closed, ← output] at reads
  cases reads with
  | cons read rest =>
      have sized : 59 ≤ wrappedOutput.length := by decide +kernel
      obtain ⟨reached, ran, same⟩ :=
        read wrappedOutput [] (List.append_nil _) sized
      have recorded : (Reader.readChunks DataContainer.handler [wrappedOutput]
          (Reader.init { storageConfig := .fullLog
            })).2.delivery.handler.parsingErrors ≠ [] := by
        decide +kernel
      have clean := errors _ List.mem_cons_self
      rw [← same] at clean
      rw [ran] at recorded
      exact recorded clean

end ZzDataLog

end UlogCpp
