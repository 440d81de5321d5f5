import UlogCpp.DataContainer.Grouping

namespace UlogCpp.DataContainer

/-! What a callback that throws has changed in a container. -/

/-- If the callback throws, it has changed nothing. -/
def Rejects (container : DataContainer) (callback : Callback) : Prop :=
  ∀ exception, (handler.call callback container).1 = .error exception →
    (handler.call callback container).2 = container

/-- A continued message for a key that has no entry, of which `operator[]` makes
one. -/
inductive MakesEntry (container : DataContainer) : Callback → Prop
  | messageInfo {info : MessageInfo} (kept : container.skips = false)
      (multi : info.isMulti = true) (continued : info.continued = true)
      (new : info.field.name ∉ container.messageInfoMulti) :
      MakesEntry container (.messageInfo info)

def ThrowsFirst (handle : Handle) : Prop :=
  ∀ kept, Exec.Triple (fun container => container = kept) handle
    (fun _ _ => True) (fun _ container => container = kept)

namespace ThrowsFirst

theorem modify (change : DataContainer → DataContainer) :
    ThrowsFirst (Exec.modify change) :=
  fun _ => .modify fun _ _ => trivial

theorem throwParsing (reason : String) : ThrowsFirst (throwParsing reason) :=
  fun _ => .throw fun _ => id

theorem skip : ThrowsFirst (pure ()) :=
  fun _ => .pure () fun _ _ => trivial

theorem inspect {next : DataContainer → Handle}
    (later : ∀ container, ThrowsFirst (next container)) :
    ThrowsFirst (Exec.get >>= next) :=
  fun kept => .bind (.get fun _ => id) fun container => later container kept

theorem ite {condition : Prop} [Decidable condition]
    {whenTrue whenFalse : Handle} (positive : ThrowsFirst whenTrue)
    (negative : ThrowsFirst whenFalse) :
    ThrowsFirst (if condition then whenTrue else whenFalse) :=
  fun kept => .ite (fun _ => positive kept) fun _ => negative kept

theorem unlessSkipped {handle : Handle} (throws : ThrowsFirst handle) :
    ThrowsFirst (unlessSkipped handle) :=
  inspect fun _ => ite skip throws

end ThrowsFirst

section Rejection

variable {container : DataContainer} {info : MessageInfo}

theorem Rejects.of_throwsFirst {callback : Callback}
    (throws : ThrowsFirst (handler.call callback))
    (container : DataContainer) : Rejects container callback := by
  intro exception thrown
  exact (throws container).error rfl (Prod.ext thrown rfl)

/-- Only continued messages come to an entry before they throw. -/
theorem call_throwsFirst (callback : Callback)
    (other : ∀ info, callback = .messageInfo info →
      info.isMulti = true → info.continued = false) :
    ThrowsFirst (handler.call callback) := by
  cases callback with
  | error | headerComplete | fileHeader | parameterDefault => exact .modify _
  | messageInfo info =>
      apply ThrowsFirst.unlessSkipped
      cases multi : info.isMulti with
      | false => exact .modify _
      | true =>
          rw [other info rfl multi]
          exact .modify _
  | messageFormat format =>
      exact .inspect fun _ => .ite (.throwParsing _) (.modify _)
  | parameter | logging | dropout => exact .unlessSkipped (.modify _)
  | addLoggedMessage addLogged =>
      exact .unlessSkipped (.inspect fun _ => .ite (.throwParsing _) (.modify _))
  | data data =>
      refine .inspect fun container => .ite .skip ?_
      cases container.subscriptions.lookup data.msgId with
      | none => exact .throwParsing _
      | some subscription => exact .modify _
  | sync => exact .skip

theorem changeMulti_id {key : Bytes} (known : key ∈ container.messageInfoMulti) :
    container.changeMulti key id = container := by
  obtain ⟨groups, found⟩ := Finmap.mem_iff.mp known
  have same : container.messageInfoMulti.update key [] id =
      container.messageInfoMulti := by
    refine Finmap.ext_lookup fun other => ?_
    rw [Map.update, Map.lookup_insert_eq, found]
    split
    next equal => rw [equal, found]; rfl
    next => rfl
  unfold changeMulti
  rw [same]

theorem rejects_continued_iff (kept : container.skips = false)
    (multi : info.isMulti = true) (continued : info.continued = true) :
    Rejects container (.messageInfo info) ↔
      info.field.name ∈ container.messageInfoMulti := by
  unfold Rejects
  rw [call_continued kept multi continued]
  constructor
  · intro rejects
    by_contra new
    have none : container.groupsFor info.field.name = [] := by
      rw [groupsFor, Finmap.lookup_eq_none.mpr new]
      rfl
    rw [if_pos none] at rejects
    have same := congrArg messageInfoMulti (rejects _ rfl)
    exact new (same ▸ Finmap.mem_insert.mpr (.inl rfl))
  · intro known exception thrown
    by_cases none : container.groupsFor info.field.name = []
    · rw [if_pos none]
      exact changeMulti_id known
    · rw [if_neg none] at thrown
      cases thrown

/-- A callback that throws has changed nothing, exactly unless it makes an
entry. -/
theorem rejects_iff (container : DataContainer) (callback : Callback) :
    Rejects container callback ↔ ¬ MakesEntry container callback := by
  by_cases continues : ∃ info, callback = .messageInfo info ∧
      info.isMulti = true ∧ info.continued = true
  · obtain ⟨info, rfl, multi, continued⟩ := continues
    cases kept : container.skips with
    | false =>
        rw [rejects_continued_iff kept multi continued]
        constructor
        · rintro known ⟨_, _, _, new⟩
          exact new known
        · intro old
          by_contra new
          exact old ⟨kept, multi, continued, new⟩
    | true =>
        have returned : handler.call (.messageInfo info) container =
            (.ok (), container) := unlessSkipped_skipped kept _
        refine iff_of_true (fun exception thrown => ?_) ?_
        · rw [returned]
        · rintro ⟨some, _⟩
          cases some.symm.trans kept
  · have other := call_throwsFirst callback fun info same multi =>
      Bool.eq_false_iff.mpr fun continued =>
        continues ⟨info, same, multi, continued⟩
    refine iff_of_true (.of_throwsFirst other container) ?_
    rintro ⟨_, multi, continued, _⟩
    exact continues ⟨_, rfl, multi, continued⟩

end Rejection

/-- In every state that calls lead to, and in every run. -/
theorem rejections_unchanged_iff (config : StorageConfig)
    (calls : List Callback) :
    (∀ callback, Rejects (receive { storageConfig := config } calls) callback ↔
      ¬ MakesEntry (receive { storageConfig := config } calls) callback) ∧
    (Exec.Throughout handler.call Rejects calls { storageConfig := config } ↔
      Exec.Throughout handler.call
        (fun container callback => ¬ MakesEntry container callback) calls
        { storageConfig := config }) := by
  constructor
  · exact rejects_iff _
  · exact @Exec.throughout_iff _ _ _ _ _ (fun _ => True) _ _ _
      (fun _ _ => rejects_iff _ _) (fun _ _ _ => trivial) _ trivial

def orphan : MessageInfo where
  field := { type := ascii "char", arrayLength := 1, name := [97] }
  value := [98]
  continued := true
  isMulti := true

theorem orphan_not_rejected :
    ¬ ∀ (config : StorageConfig) (calls : List Callback) (callback : Callback),
      Rejects (receive { storageConfig := config } calls) callback := by
  intro always
  have rejects := always .fullLog [] (.messageInfo orphan)
  rw [rejects_iff] at rejects
  exact rejects ⟨rfl, rfl, rfl, Finmap.notMem_empty⟩

end UlogCpp.DataContainer
