import UlogCpp.ZzDataLog.Run

namespace UlogCpp

/-! What `Init` writes to a new file. -/

namespace ZzDataLog

open SimpleWriter (Call Performed)

def advanced (self : ZzDataLog) (core : SimpleWriter) (entries : List Entry) :
    ZzDataLog :=
  { self.withCore core with journal := self.journal ++ entries }

def formatEntry (struct : StructInfo) : Entry :=
  (.writeMessageFormat struct.messageName struct.fields, .ok none)

def seriesEntries : Nat → List StructInfo → List Entry
  | _, [] => []
  | number, struct :: structs =>
      (.writeAddLoggedMessage struct.messageName 0,
        .ok (some (UInt16.ofNat number))) :: seriesEntries (number + 1) structs

def numbered : Nat → List StructInfo → Map Bytes UInt16 → Map Bytes UInt16
  | _, [], idMap => idMap
  | number, struct :: structs, idMap =>
      numbered (number + 1) structs
        (idMap.insert struct.messageName (UInt16.ofNat number))

def initEntries (key keyValue : Bytes) (structs : List StructInfo) :
    List Entry :=
  (.writeInfo key (.string keyValue), .ok none) ::
    (structs.map formatEntry ++
      (.headerComplete, .ok none) :: seriesEntries 0 structs)

section Init

variable {self reached : ZzDataLog} {writer : Writer} {core : SimpleWriter}
  {structs : List StructInfo}

theorem advanced_core (has : self.writer = some writer) :
    self.advanced (self.core writer) [] = self := by
  cases self with
  | mk =>
      cases has
      simp only [advanced, withCore, ZzDataLog.core, List.append_nil]

theorem advanced_advanced (self : ZzDataLog) (core final : SimpleWriter)
    (entries more : List Entry) :
    (self.advanced core entries).advanced final more =
      self.advanced final (entries ++ more) := by
  simp only [advanced, withCore, List.append_assoc]

theorem shared_ok {call : Call} {method : SimpleWriter.Method α}
    {report : α → Option UInt16} {value : α}
    (returned : shared call method report self = (.ok value, reached)) :
    ∃ writer core, self.writer = some writer ∧
      method (self.core writer) = (.ok value, core) ∧
      reached = self.advanced core [(call, .ok (report value))] := by
  cases has : self.writer with
  | none =>
      simp only [shared, has] at returned
      split at returned <;> cases returned
  | some writer =>
      rw [shared_apply has] at returned
      obtain ⟨outcome, rfl⟩ := Prod.mk.inj returned
      cases ran : (method (self.core writer)).1 with
      | error exception =>
          rw [ran] at outcome
          cases outcome
      | ok result =>
          rw [ran] at outcome
          cases outcome
          exact ⟨writer, _, rfl, Prod.ext ran rfl, rfl⟩

theorem throwUsageIf_ok {condition : Prop} [Decidable condition]
    {reason : Bytes}
    (returned : throwUsageIf condition reason self = (.ok (), reached)) :
    ¬ condition ∧ reached = self := by
  unfold throwUsageIf at returned
  split at returned
  next => cases returned
  next fails =>
    cases returned
    exact ⟨fails, rfl⟩

theorem writeMessageFormat_ok {name : Bytes} {fields : List Field}
    (returned : Method.writeMessageFormat name fields self = (.ok (), reached)) :
    ∃ core, reached = self.advanced core
        [(.writeMessageFormat name fields, .ok none)] ∧
      core.subscriptions = self.subscriptions ∧ fields ≠ [] := by
  obtain ⟨writer, core, _, ran, rfl⟩ := shared_ok returned
  refine ⟨core, rfl, ?_, ?_⟩
  · cases SimpleWriter.writeFormat_ok (fun name matched =>
      (SimpleWriter.not_mem_of_all matched (by decide)).2) ran with
    | writeMessageFormat header fresh named fieldsNamed basic sized emits =>
        obtain ⟨output, _, rfl⟩ := emits
        rfl
  · rintro rfl
    obtain ⟨_, rest⟩ := SimpleWriter.headerOpen_bind ran
    obtain ⟨_, _, first, _⟩ := Exec.bind_eq_ok.mp rest
    exact absurd nofun (SimpleWriter.throwUsageIf_eq_ok.mp first).1

theorem formats_ok (has : self.writer = some writer)
    (returned : (structs.forM fun struct =>
      Method.writeMessageFormat struct.messageName struct.fields) self =
        (.ok (), reached)) :
    ∃ core, reached = self.advanced core (structs.map formatEntry) ∧
      core.subscriptions = self.subscriptions ∧
      ∀ struct ∈ structs, struct.fields ≠ [] := by
  induction structs generalizing self writer with
  | nil =>
      cases returned
      exact ⟨_, (advanced_core has).symm, rfl, nofun⟩
  | cons struct structs ih =>
      obtain ⟨_, here, later⟩ := Exec.forM_cons_eq_ok.mp returned
      obtain ⟨middle, rfl, kept, nonempty⟩ := writeMessageFormat_ok here
      obtain ⟨core, rfl, same, others⟩ := ih rfl later
      refine ⟨core, advanced_advanced _ _ _ _ _, same.trans kept, ?_⟩
      exact List.forall_mem_cons.mpr ⟨nonempty, others⟩

theorem headerComplete_ok
    (returned : Method.headerComplete self = (.ok (), reached)) :
    ∃ core, reached = self.advanced core [(.headerComplete, .ok none)] ∧
      core.subscriptions = self.subscriptions ∧ core.headerComplete = true := by
  obtain ⟨writer, core, _, ran, rfl⟩ := shared_ok returned
  refine ⟨core, rfl, ?_⟩
  obtain ⟨_, rest⟩ := SimpleWriter.headerOpen_bind ran
  cases rest
  exact ⟨rfl, rfl⟩

theorem subscribe_ok {name : Bytes}
    (returned : Method.subscribe name self = (.ok (), reached)) :
    ∃ core : SimpleWriter,
      reached = { self.advanced core [(.writeAddLoggedMessage name 0,
          .ok (some (UInt16.ofNat self.subscriptions.length)))] with
        idMap := self.idMap.insert name
          (UInt16.ofNat self.subscriptions.length) } ∧
      core.subscriptions.length = self.subscriptions.length + 1 ∧
      core.headerComplete = self.headerComplete := by
  obtain ⟨id, _, added, rest⟩ := Exec.bind_eq_ok.mp returned
  obtain ⟨writer, core, _, ran, rfl⟩ := shared_ok added
  cases rest
  cases SimpleWriter.writeAddLoggedMessage_ok ran with
  | writeAddLoggedMessage header known emits =>
      obtain ⟨output, _, rfl⟩ := emits
      exact ⟨_, rfl, List.length_append, rfl⟩

theorem series_ok (has : self.writer = some writer)
    (returned : (structs.forM fun struct =>
      Method.subscribe struct.messageName) self = (.ok (), reached)) :
    ∃ core : SimpleWriter,
      reached = { self.advanced core
          (seriesEntries self.subscriptions.length structs) with
        idMap := numbered self.subscriptions.length structs self.idMap } ∧
      core.headerComplete = self.headerComplete := by
  induction structs generalizing self writer with
  | nil =>
      cases returned
      exact ⟨_, (advanced_core has).symm, rfl⟩
  | cons struct structs ih =>
      obtain ⟨_, here, later⟩ := Exec.forM_cons_eq_ok.mp returned
      obtain ⟨middle, rfl, longer, kept⟩ := subscribe_ok here
      obtain ⟨core, rfl, same⟩ := ih rfl later
      refine ⟨core, ?_, same.trans kept⟩
      simp only [advanced, withCore, seriesEntries, numbered, longer,
        List.append_assoc, List.singleton_append]

theorem writeInfo_ok {key : Bytes} {value : SimpleWriter.InfoValue}
    (returned : Method.writeInfo key value self = (.ok (), reached)) :
    ∃ core, reached = self.advanced core [(.writeInfo key value, .ok none)] ∧
      core.subscriptions = self.subscriptions := by
  obtain ⟨writer, core, _, ran, rfl⟩ := shared_ok returned
  refine ⟨core, rfl, ?_⟩
  have made : SimpleWriter.perform (.writeInfo key value) (self.core writer) =
      (.ok none, core) := Exec.bind_eq_ok.mpr ⟨(), core, ran, rfl⟩
  cases SimpleWriter.performed made with
  | writeInfo header emits =>
      obtain ⟨output, _, rfl⟩ := emits
      rfl

theorem initWith_ok {initParams : InitParams}
    (none : self.subscriptions = [])
    (returned : Method.initWith initParams self = (.ok (), reached)) :
    ∃ core : SimpleWriter,
      reached = { self.advanced core (initEntries initParams.key
          initParams.keyValue initParams.allStructs) with
        idMap := numbered 0 initParams.allStructs self.idMap } ∧
      core.headerComplete = true ∧
      ∀ struct ∈ initParams.allStructs, struct.fields ≠ [] := by
  obtain ⟨_, _, checked, rest⟩ := Exec.bind_eq_ok.mp returned
  obtain ⟨_, rfl⟩ := throwUsageIf_ok checked
  obtain ⟨_, _, info, rest⟩ := Exec.bind_eq_ok.mp rest
  obtain ⟨first, rfl, noneFirst⟩ := writeInfo_ok info
  obtain ⟨_, _, formats, rest⟩ := Exec.bind_eq_ok.mp rest
  obtain ⟨second, rfl, noneSecond, nonempty⟩ := formats_ok rfl formats
  obtain ⟨_, _, complete, series⟩ := Exec.bind_eq_ok.mp rest
  obtain ⟨third, rfl, noneThird, header⟩ := headerComplete_ok complete
  obtain ⟨core, rfl, kept⟩ := series_ok rfl series
  have start : third.subscriptions = [] :=
    noneThird.trans (noneSecond.trans (noneFirst.trans none))
  refine ⟨core, ?_, kept.trans header, nonempty⟩
  simp only [advanced, withCore, start, List.length_nil, initEntries,
    List.append_assoc, List.cons_append, List.nil_append]

theorem forM_throwUsageIf {condition : StructInfo → Prop}
    [DecidablePred condition] {reason : StructInfo → Bytes}
    {method : StructInfo → Method Unit}
    (returned : (structs.forM fun struct => do
      throwUsageIf (condition struct) (reason struct)
      method struct) self = (.ok (), reached)) :
    structs.forM method self = (.ok (), reached) := by
  induction structs generalizing self with
  | nil => exact returned
  | cons struct structs ih =>
      obtain ⟨_, here, later⟩ := Exec.forM_cons_eq_ok.mp returned
      obtain ⟨_, _, checked, rest⟩ := Exec.bind_eq_ok.mp here
      obtain ⟨_, rfl⟩ := throwUsageIf_ok checked
      exact Exec.forM_cons_eq_ok.mpr ⟨_, rest, ih later⟩

theorem keptFormats_ok (has : self.writer = some writer)
    (returned : (structs.forM fun struct => do
      Exec.modify fun self : ZzDataLog => { self with initParams :=
        { self.initParams with
          allStructs := self.initParams.allStructs ++ [struct] } }
      Method.writeMessageFormat struct.messageName struct.fields) self =
        (.ok (), reached)) :
    ∃ core, reached = { self.advanced core (structs.map formatEntry) with
        initParams := { self.initParams with
          allStructs := self.initParams.allStructs ++ structs } } ∧
      core.subscriptions = self.subscriptions ∧
      ∀ struct ∈ structs, struct.fields ≠ [] := by
  induction structs generalizing self writer with
  | nil =>
      cases returned
      refine ⟨reached.core writer, ?_, rfl, nofun⟩
      rw [List.append_nil]
      exact (advanced_core has).symm
  | cons struct structs ih =>
      obtain ⟨_, here, later⟩ := Exec.forM_cons_eq_ok.mp returned
      rw [Exec.modify_bind_apply] at here
      obtain ⟨middle, rfl, kept, nonempty⟩ := writeMessageFormat_ok here
      obtain ⟨core, rfl, same, others⟩ := ih rfl later
      refine ⟨core, ?_, same.trans kept,
        List.forall_mem_cons.mpr ⟨nonempty, others⟩⟩
      simp only [advanced, withCore, List.append_assoc, List.singleton_append,
        List.map_cons]
      rfl

theorem init_ok {key keyValue : Bytes} (none : self.subscriptions = [])
    (returned : Method.init key keyValue structs self = (.ok (), reached)) :
    ∃ core : SimpleWriter,
      reached = { self.advanced core (initEntries key keyValue structs) with
        idMap := numbered 0 structs self.idMap
        initParams :=
          { self.initParams with
            key, keyValue
            allStructs := self.initParams.allStructs ++ structs } } ∧
      core.headerComplete = true ∧
      ∀ struct ∈ structs, struct.fields ≠ [] := by
  obtain ⟨_, _, checked, rest⟩ := Exec.bind_eq_ok.mp returned
  obtain ⟨_, rfl⟩ := throwUsageIf_ok checked
  rw [Exec.modify_bind_apply] at rest
  obtain ⟨_, _, info, rest⟩ := Exec.bind_eq_ok.mp rest
  obtain ⟨first, rfl, noneFirst⟩ := writeInfo_ok info
  obtain ⟨_, _, formats, rest⟩ := Exec.bind_eq_ok.mp rest
  obtain ⟨second, rfl, noneSecond, nonempty⟩ :=
    keptFormats_ok rfl (forM_throwUsageIf formats)
  obtain ⟨_, _, complete, series⟩ := Exec.bind_eq_ok.mp rest
  obtain ⟨third, rfl, noneThird, header⟩ := headerComplete_ok complete
  obtain ⟨core, rfl, kept⟩ := series_ok rfl (forM_throwUsageIf series)
  have start : third.subscriptions = [] :=
    noneThird.trans (noneSecond.trans (noneFirst.trans none))
  refine ⟨core, ?_, kept.trans header, nonempty⟩
  simp only [advanced, withCore, start, List.length_nil, initEntries,
    List.append_assoc, List.cons_append, List.nil_append]

end Init

end ZzDataLog

end UlogCpp
