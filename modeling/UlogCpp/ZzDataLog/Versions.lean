import UlogCpp.ZzDataLog.Handles

namespace UlogCpp

/-! The names that follow each other when a log starts new files. -/

namespace ZzDataLog

def regenerate (generate : Bytes → Except Stop Bytes) :
    Nat → Bytes → Except Stop Bytes
  | 0, name => .ok name
  | count + 1, name => do
      let newName ← generate name
      regenerate generate count newName

section Names

variable {base : Bytes}

/-! ### With a version -/

/-- Names that advance by one version advance by any number of them. -/
theorem regenerate_fileName {generate : Bytes → Except Stop Bytes}
    (advances : ∀ {version : Bytes} {value : Nat}, Numeral version value →
      value + 1 < 2 ^ 31 → generate (fileName base version) =
        .ok (fileName base (decimal (value + 1))))
    (count : Nat) {first : Nat} (small : first + count < 2 ^ 31) :
    regenerate generate count (fileName base (decimal first)) =
      .ok (fileName base (decimal (first + count))) := by
  induction count generalizing first with
  | zero => rfl
  | succ count ih =>
      have next := advances (.decimal first) (by omega)
      have later := @ih (first + 1) (by omega)
      rw [Nat.add_assoc, Nat.add_comm 1 count] at later
      rw [regenerate, next]
      exact later

/-! ### Without a version -/

/-- `<base>.ulg` -/
def unversionedName (base : Bytes) : Bytes := base ++ ascii ".ulg"

/-- Without a version the base is read as one, and the whole name becomes the
base. -/
theorem newVersion_unversioned (some : base ≠ []) (noDot : (46 : UInt8) ∉ base) :
    newVersion (unversionedName base) =
      (stoi base).map fun version =>
        versioned (unversionedName base) (version + 1) := by
  have plain : (46 : UInt8) ∉ ascii "ulg" := by decide
  have lastDot : UlogCpp.splitLast 46 (unversionedName base) =
      .some (base, ascii "ulg") := splitLast_append plain base
  obtain ⟨head, tail, same⟩ := List.exists_cons_of_ne_nil some
  have none := splitLast_eq_none.mpr noDot
  rw [same] at none lastDot ⊢
  simp only [newVersion, lastDot, none]
  cases stoi (head :: tail) <;> rfl

theorem unversioned_noSlash (noSlash : (47 : UInt8) ∉ base) :
    (47 : UInt8) ∉ unversionedName base := by
  have plain : (47 : UInt8) ∉ ascii ".ulg" := by decide
  exact fun mem => (List.mem_append.mp mem).elim noSlash plain

theorem unversionedName_ne_nil (base : Bytes) : unversionedName base ≠ [] :=
  List.append_ne_nil_of_right_ne_nil _ (List.cons_ne_nil _ _)

theorem versioned_unversioned_ne (start base : Bytes) (version : Int32) :
    start ++ versioned (unversionedName base) version ≠
      start ++ fileName base [49] := by
  intro same
  have texts := List.append_cancel_left same
  rw [versioned, unversionedName, List.append_assoc] at texts
  have rests := List.append_cancel_left texts
  have second := congrArg (fun text => text[1]?) rests
  cases second

end Names

/-- The name of a log without a version never becomes that of the first
version. The base is read as a version: where it is none, the rotation throws
what `stoi` throws, and otherwise the version is added to the whole name. -/
theorem unversioned_not_advanced {directory base : Bytes}
    (isDirectory : IsDirectory directory) (some : base ≠ [])
    (noDot : (46 : UInt8) ∉ base) (noSlash : (47 : UInt8) ∉ base) :
    generateNewPathOrFilename (directory ++ unversionedName base) =
      ((stoi base).map fun version =>
        directory ++ versioned (unversionedName base) (version + 1)) ∧
    generateNewFilename (unversionedName base) =
      ((stoi base).map fun version =>
        versioned (unversionedName base) (version + 1)) ∧
    generateNewPathOrFilename (directory ++ unversionedName base) ≠
      .ok (directory ++ fileName base [49]) ∧
    generateNewFilename (unversionedName base) ≠ .ok (fileName base [49]) := by
  have nonempty := unversionedName_ne_nil base
  have path : generateNewPathOrFilename (directory ++ unversionedName base) =
      (stoi base).map fun version =>
        directory ++ versioned (unversionedName base) (version + 1) := by
    rw [generateNewPathOrFilename_append isDirectory nonempty
      (unversioned_noSlash noSlash), newVersion_unversioned some noDot]
    cases stoi base <;> rfl
  have name : generateNewFilename (unversionedName base) =
      (stoi base).map fun version =>
        versioned (unversionedName base) (version + 1) := by
    rw [generateNewFilename, if_neg nonempty]
    exact newVersion_unversioned some noDot
  refine ⟨path, name, ?_, ?_⟩
  · rw [path]
    cases stoi base with
    | error stop =>
        intro same
        cases same
    | ok version =>
        intro same
        exact versioned_unversioned_ne directory base _ (Except.ok.inj same)
  · rw [name]
    cases stoi base with
    | error stop =>
        intro same
        cases same
    | ok version =>
        intro same
        exact versioned_unversioned_ne [] base _ (Except.ok.inj same)

theorem unversioned_not_advanced_test :
    generateNewPathOrFilename (ascii "/tmp/" ++ unversionedName (ascii "test")) =
      ((stoi (ascii "test")).map fun version => ascii "/tmp/" ++
        versioned (unversionedName (ascii "test")) (version + 1)) ∧
    generateNewFilename (unversionedName (ascii "test")) =
      ((stoi (ascii "test")).map fun version =>
        versioned (unversionedName (ascii "test")) (version + 1)) ∧
    generateNewPathOrFilename (ascii "/tmp/" ++ unversionedName (ascii "test")) ≠
      .ok (ascii "/tmp/" ++ fileName (ascii "test") [49]) ∧
    generateNewFilename (unversionedName (ascii "test")) ≠
      .ok (fileName (ascii "test") [49]) :=
  unversioned_not_advanced (.inr ⟨ascii "/tmp", rfl⟩) (by decide) (by decide)
    (by decide)

theorem first_rotation_throws :
    ¬ ∀ directory base : Bytes, IsDirectory directory → base ≠ [] →
      (46 : UInt8) ∉ base → (47 : UInt8) ∉ base →
      generateNewPathOrFilename (directory ++ unversionedName base) =
        .ok (directory ++ fileName base [49]) ∧
      (directory = [] → generateNewFilename (unversionedName base) =
        .ok (fileName base [49])) := by
  intro always
  have advanced := (always [] (ascii "test") (.inl rfl) (by decide) (by decide)
    (by decide)).1
  revert advanced
  decide +kernel

/-! ## Runs -/

def filed (log : ZzDataLog) : FileHandle × Bytes × List LogFile :=
  (log.file, log.initParams.fileName, log.closedFiles)

def namesFrom (base : Bytes) (first count : Nat) : List Bytes :=
  (List.range count).map fun index => fileName base (decimal (first + index))

/-- The files that have been closed have the versions from the first on, and the
open file has the next one. -/
structure Versioned (base : Bytes) (first : Nat) (log : ZzDataLog) : Prop where
  closed : log.closedFiles.map LogFile.name =
    namesFrom base first log.closedFiles.length
  current : ∀ name, log.file = .opened name →
    name = fileName base (decimal (first + log.closedFiles.length)) ∧
      log.initParams.fileName = name

section Runs

variable {base name : Bytes} {first : Nat} {log reached : ZzDataLog} {env : Env}
  {requests : List (Env × Request)}

theorem composes_filed :
    Composes fun _ method => ∀ log, (method log).2.filed = log.filed where
  pure _ _ := rfl
  bind {_ _ method next} here later log := by
    rcases ran : method log with ⟨stop | value, reached⟩
    · rw [Exec.bind_error ran]
      exact (congrArg (fun result => filed result.2) ran).symm.trans (here log)
    · rw [Exec.bind_ok ran, later]
      exact (congrArg (fun result => filed result.2) ran).symm.trans (here log)
  stopped _ _ := rfl
  modify {change} same kept log := by
    have file : (change log).file = log.file :=
      congrArg (fun view => view.2.1) (same log)
    have closed : (change log).closedFiles = log.closedFiles :=
      congrArg (fun view => view.2.2.2.2) (same log)
    change (_, _, _) = (_, _, _)
    rw [Exec.modify_apply, file, kept, closed]
  shared {_ call method report} _ _ log := by
    cases has : log.writer with
    | none => rw [shared_null has]
    | some writer =>
        rw [shared_apply has]
        rfl

theorem filed_emitData (id : UInt16) (data : Bytes) (log : ZzDataLog) :
    (Method.emitData id data log).2.filed = log.filed := by
  cases has : log.writer with
  | none => simp only [Method.emitData, has]
  | some writer =>
      rw [emitData_apply has]
      rfl

theorem filed_rotate {newFilename : Bytes} (file : log.file = .opened name)
    (generated : generateNewPathOrFilename log.initParams.fileName =
      .ok newFilename) (opens : env.opens = true) :
    (Method.rotate env log).2.filed =
      (log.reopened env name newFilename
        ((log.writer.map Writer.output).getD [])).filed := by
  rw [Method.rotate_opened file generated opens]
  exact composes_filed.initWith _ _

theorem Versioned.of_filed (versioned : Versioned base first log)
    (same : reached.filed = log.filed) : Versioned base first reached := by
  obtain ⟨file, rest⟩ := Prod.mk.inj same
  obtain ⟨name, closed⟩ := Prod.mk.inj rest
  constructor
  · rw [closed]
    exact versioned.closed
  · rw [closed, file, name]
    exact versioned.current

theorem namesFrom_succ (base : Bytes) (first count : Nat) :
    namesFrom base first (count + 1) =
      namesFrom base first count ++ [fileName base (decimal (first + count))] := by
  rw [namesFrom, List.range_succ, List.map_append]
  rfl

theorem not_mem_namesFrom {count number : Nat} (beyond : count ≤ number) :
    fileName base (decimal (first + number)) ∉ namesFrom base first count := by
  intro mem
  obtain ⟨index, among, same⟩ := List.mem_map.mp mem
  have equal := fileName_injective (.decimal _) (.decimal _) same
  have below := List.mem_range.mp among
  omega

theorem Versioned.map_concat (versioned : Versioned base first log)
    {file : LogFile}
    (named : file.name = fileName base
      (decimal (first + log.closedFiles.length))) :
    (log.closedFiles ++ [file]).map LogFile.name =
      namesFrom base first (log.closedFiles ++ [file]).length := by
  rw [List.map_append, versioned.closed, List.length_append,
    List.length_singleton, namesFrom_succ, List.map_singleton, named]

/-- The file that is opened next is none of the earlier ones, so that none is
emptied. -/
theorem Versioned.reopened (versioned : Versioned base first log)
    (named : name = fileName base (decimal (first + log.closedFiles.length)))
    (output : Bytes) {newFilename : Bytes}
    (next : newFilename =
      fileName base (decimal (first + (log.closedFiles.length + 1)))) :
    (log.reopened env name newFilename output).closedFiles =
        log.closedFiles ++ [⟨name, output, log.journal⟩] ∧
      Versioned base first (log.reopened env name newFilename output) := by
  have names := @Versioned.map_concat _ _ _ versioned
    ⟨name, output, log.journal⟩ named
  have kept : (log.reopened env name newFilename output).closedFiles =
      log.closedFiles ++ [⟨name, output, log.journal⟩] := by
    refine List.filter_eq_self.mpr fun file mem => bne_iff_ne.mpr ?_
    intro same
    have among := @List.mem_map_of_mem _ _ _ _ LogFile.name mem
    rw [names, same, next, List.length_append] at among
    exact not_mem_namesFrom (Nat.le_refl _) among
  refine ⟨kept, ?_, ?_⟩
  · rw [kept]
    exact names
  · intro current same
    cases same
    rw [kept, List.length_append]
    exact ⟨next, rfl⟩

theorem Versioned.rotate (versioned : Versioned base first log)
    (small : first + log.closedFiles.length + 1 < 2 ^ 31) :
    Versioned base first (Method.rotate env log).2 ∧
      log.closedFiles <+: (Method.rotate env log).2.closedFiles := by
  by_cases isOpen : ∃ name, log.file = .opened name
  · obtain ⟨name, file⟩ := isOpen
    obtain ⟨named, same⟩ := versioned.current name file
    have generated : generateNewPathOrFilename log.initParams.fileName =
        .ok (fileName base (decimal (first + log.closedFiles.length + 1))) := by
      rw [same, named]
      exact generateNewPathOrFilename_fileName (.decimal _) small
    cases opens : env.opens with
    | false =>
        obtain ⟨stop, reached, failed, _, unopened, _, closed⟩ :=
          Method.rotate_fails file fun _ _ => opens
        rw [failed]
        refine ⟨⟨?_, fun name same => absurd same (unopened name)⟩, ?_⟩
        · rw [closed]
          exact versioned.map_concat named
        · rw [closed]
          exact List.prefix_append _ _
    | true =>
        obtain ⟨closed, reopened⟩ := @Versioned.reopened _ name _ _ env versioned
          named ((log.writer.map Writer.output).getD []) _ rfl
        have same := filed_rotate file generated opens
        have files : (Method.rotate env log).2.closedFiles = _ :=
          (congrArg (fun filed => filed.2.2) same).trans closed
        refine ⟨reopened.of_filed same, ?_⟩
        rw [files]
        exact List.prefix_append _ _
  · obtain ⟨failure, _, failed⟩ :=
      @Method.rotate_unopened log env (not_exists.mp isOpen)
    rw [failed]
    exact ⟨⟨versioned.closed, versioned.current⟩, List.prefix_refl _⟩

theorem Versioned.writeData (versioned : Versioned base first log)
    (small : first + log.closedFiles.length + 1 < 2 ^ 31) (id : UInt16)
    (data : Bytes) :
    Versioned base first (Method.writeData env id data log).2 ∧
      log.closedFiles <+: (Method.writeData env id data log).2.closedFiles := by
  have room : Versioned base first (Method.makeRoom env data log).2 ∧
      log.closedFiles <+: (Method.makeRoom env data log).2.closedFiles := by
    have counted : Versioned base first (log.counted data) :=
      versioned.of_filed rfl
    unfold Method.makeRoom
    split
    · exact counted.rotate small
    · exact ⟨counted, List.prefix_refl _⟩
  rcases Method.writeData_cases env id data log with ⟨reason, refused⟩ |
    ⟨subscription, _, same⟩
  · rw [refused]
    exact ⟨versioned, List.prefix_refl _⟩
  · rw [same]
    rcases made : Method.makeRoom env data log with ⟨failure | value, reached⟩
    · rw [made] at room
      rwa [Exec.bind_error made]
    · rw [made] at room
      have kept := filed_emitData id
        (data.take subscription.messageSize.toNat) reached
      have files : (Method.emitData id _ reached).2.closedFiles = _ :=
        congrArg (fun filed => filed.2.2) kept
      rw [Exec.bind_ok made]
      refine ⟨room.1.of_filed kept, ?_⟩
      rw [files]
      exact room.2

/-- Every request keeps the versions in order, and the files that have been
closed. -/
theorem Versioned.perform (versioned : Versioned base first log)
    (small : first + log.closedFiles.length + 1 < 2 ^ 31)
    (request : Env × Request) :
    Versioned base first (ZzDataLog.perform request log).2 ∧
      log.closedFiles <+: (ZzDataLog.perform request log).2.closedFiles := by
  obtain ⟨env, request⟩ := request
  cases sample : request.sample log with
  | some pair =>
      obtain ⟨id, data⟩ := pair
      rw [perform_sample sample]
      exact versioned.writeData small id data
  | none =>
      have quiet : ∀ log, (Method.fsync log).2.filed = log.filed :=
        fun log => congrArg filed (fsync_same log)
      obtain ⟨method, kept, same⟩ := composes_filed.perform sample quiet env
      have files : (method log).2.closedFiles = log.closedFiles :=
        congrArg (fun filed => filed.2.2) (kept log)
      rw [same]
      refine ⟨versioned.of_filed (kept log), ?_⟩
      rw [files]

theorem Versioned.final (versioned : Versioned base first log)
    (below : Exec.Throughout ZzDataLog.perform
      (fun log _ => first + log.closedFiles.length < 2 ^ 31 - 1) requests log) :
    Versioned base first (Exec.final ZzDataLog.perform requests log) ∧
      log.closedFiles <+:
        (Exec.final ZzDataLog.perform requests log).closedFiles := by
  induction requests generalizing log with
  | nil => exact ⟨versioned, List.prefix_refl _⟩
  | cons request requests ih =>
      obtain ⟨small, later⟩ := below
      obtain ⟨next, grows⟩ := versioned.perform (by omega) request
      obtain ⟨last, more⟩ := ih next later
      exact ⟨last, grows.trans more⟩

end Runs

/-- The names of a log with a version advance: they have the versions from the
first on, in the same directory, and no rotation empties an earlier file. -/
theorem versions_advance {directory base : Bytes}
    (isDirectory : IsDirectory directory) (noSlash : (47 : UInt8) ∉ base)
    (first : Nat) :
    let name := fun number => fileName (directory ++ base) (decimal number)
    (∀ count, first + count < 2 ^ 31 - 1 →
      regenerate generateNewPathOrFilename count (name first) =
          .ok (name (first + count)) ∧
        (directory = [] → regenerate generateNewFilename count (name first) =
          .ok (name (first + count)))) ∧
    (∀ number other, name number = name other → number = other) ∧
    (∀ number, directoryOf (name number) = directory ∧
      isValidFilename (name number) = true) ∧
    ∀ {env : Env} {zzDataLogOn : Bool} {made : ZzDataLog}
      {requests : List (Env × Request)},
      Method.construct env (.file (name first)) { zzDataLogOn } =
        (.ok (), made) →
      Exec.Throughout perform
        (fun log _ => first + log.closedFiles.length < 2 ^ 31 - 1) requests
        made →
      let log := Exec.final perform requests made
      log.closedFiles.map LogFile.name =
        (List.range log.closedFiles.length).map (fun index =>
          name (first + index)) ∧
      (∀ current, log.file = .opened current →
        current = name (first + log.closedFiles.length)) ∧
      ∀ earlier later, requests = earlier ++ later →
        (Exec.final perform earlier made).closedFiles <+: log.closedFiles := by
  intro name
  refine ⟨fun count small => ⟨?_, ?_⟩, fun number other => ?_, fun number => ?_,
    ?_⟩
  · exact regenerate_fileName generateNewPathOrFilename_fileName count (by omega)
  · rintro rfl
    refine regenerate_fileName (fun numeral small => ?_) count (by omega)
    exact generateNewFilename_fileName numeral small
  · exact fileName_injective (.decimal _) (.decimal _)
  · refine ⟨?_, isValidFilename_fileName _ _⟩
    have same : name number = directory ++ fileName base (decimal number) :=
      List.append_assoc _ _ _
    rw [same]
    exact directoryOf_append isDirectory (fileName_noSlash noSlash (.decimal _))
  · intro env zzDataLogOn made requests constructs below log
    have start : Versioned (directory ++ base) first made := by
      rw [construct_ok constructs]
      refine ⟨rfl, fun current same => ?_⟩
      cases same
      exact ⟨rfl, rfl⟩
    have final := (start.final below).1
    refine ⟨final.closed, fun current same => (final.current current same).1, ?_⟩
    rintro earlier later rfl
    obtain ⟨before, after⟩ := Exec.throughout_append.mp below
    have grows := ((start.final before).1.final after).2
    rwa [← Exec.final_append] at grows

def testName (number : Nat) : Bytes :=
  fileName (ascii "/tmp/" ++ ascii "test") (decimal number)

def outgrowing : List (Env × Request) :=
  [(fair, .init [107] [118] [timeStruct]), (fair, .write [109] oversized)]

theorem versions_advance_test :
    regenerate generateNewPathOrFilename 8 (testName 2) = .ok (testName 10) ∧
    testName 2 ≠ testName 10 ∧ directoryOf (testName 10) = ascii "/tmp/" ∧
    let log := Exec.final perform outgrowing
      (Constructor.made fair true (.file (testName 2)))
    log.closedFiles.map LogFile.name =
      (List.range log.closedFiles.length).map fun index =>
        testName (2 + index) := by
  obtain ⟨advances, distinct, sameDirectory, runs⟩ :=
    @versions_advance (ascii "/tmp/") (ascii "test")
      (.inr ⟨ascii "/tmp", rfl⟩) (by decide) 2
  refine ⟨(advances 8 (by decide)).1, fun same => ?_, (sameDirectory 10).1, ?_⟩
  · cases distinct 2 10 same
  · exact (@runs fair true _ outgrowing (Prod.ext (by decide +kernel) rfl)
      ⟨by decide, by decide +kernel, trivial⟩).1

end ZzDataLog

end UlogCpp
