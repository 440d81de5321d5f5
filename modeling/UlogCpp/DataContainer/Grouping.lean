import UlogCpp.Data.Groups
import UlogCpp.Data.Run
import UlogCpp.DataContainer.Storage

namespace UlogCpp

/-! How a container for the full log groups the multi messages of a key. -/

def Callback.isMultiFor (key : Bytes) : Callback → Bool
  | messageInfo info => info.isMulti && info.field.name == key
  | _ => false

namespace DataContainer

def groupsFor (container : DataContainer) (key : Bytes) :
    List (List MessageInfo) :=
  (container.messageInfoMulti.lookup key).getD []

def acceptedFor (key : Bytes) :
    Callback × Except Exception Unit → Option MessageInfo
  | (.messageInfo info, .ok ()) =>
      if info.isMulti = true ∧ info.field.name = key then some info else none
  | _ => none

def accepted (key : Bytes) (trace : List (Callback × Except Exception Unit)) :
    List MessageInfo :=
  trace.filterMap (acceptedFor key)

def Begins (info : MessageInfo) : Prop := info.continued = false

instance : DecidablePred Begins := fun _ => inferInstanceAs (Decidable (_ = _))

section Multi

variable {container : DataContainer} {info : MessageInfo} {key : Bytes}

theorem appendToLast_concat (info : MessageInfo)
    (groups : List (List MessageInfo)) (last : List MessageInfo) :
    appendToLast info (groups ++ [last]) = groups ++ [last ++ [info]] := by
  have position : (groups ++ [last]).length - 1 = groups.length := by
    rw [List.length_append, List.length_singleton, Nat.add_sub_cancel]
  rw [appendToLast, position, modify_concat]

def changeMulti (container : DataContainer) (key : Bytes)
    (change : List (List MessageInfo) → List (List MessageInfo)) :
    DataContainer :=
  { container with
    messageInfoMulti := container.messageInfoMulti.update key [] change }

theorem lookup_changeMulti (container : DataContainer) (key other : Bytes)
    (change : List (List MessageInfo) → List (List MessageInfo)) :
    (container.changeMulti other change).messageInfoMulti.lookup key =
      if key = other then some (change (container.groupsFor other))
      else container.messageInfoMulti.lookup key :=
  Map.lookup_insert_eq _ _ _ _

theorem groupsFor_changeMulti (container : DataContainer) (key other : Bytes)
    (change : List (List MessageInfo) → List (List MessageInfo)) :
    (container.changeMulti other change).groupsFor key =
      if key = other then change (container.groupsFor other)
      else container.groupsFor key := by
  rw [groupsFor, lookup_changeMulti]
  split <;> rfl

/-- A message that is not continued is put in a new group. -/
theorem call_first (kept : container.skips = false)
    (multi : info.isMulti = true) (first : info.continued = false) :
    handler.call (.messageInfo info) container =
      (.ok (), container.changeMulti info.field.name (· ++ [[info]])) := by
  refine (unlessSkipped_kept kept _).trans ?_
  rw [multi, first]
  rfl

/-- A continued message throws where there is no group, and is put in the last
group otherwise. -/
theorem call_continued (kept : container.skips = false)
    (multi : info.isMulti = true) (continued : info.continued = true) :
    handler.call (.messageInfo info) container =
      if container.groupsFor info.field.name = [] then
        (.error (.parsing (ascii
            "info_multi msg is continued, but no previous")),
          container.changeMulti info.field.name id)
      else
        (.ok (), (container.changeMulti info.field.name id).changeMulti
          info.field.name (appendToLast info)) := by
  have found := lookup_changeMulti container info.field.name info.field.name id
  rw [if_pos rfl] at found
  refine (unlessSkipped_kept kept _).trans ?_
  rw [multi, continued]
  change (if (container.changeMulti info.field.name id).messageInfoMulti.lookup
      info.field.name = some [] then throwParsing _ else _ : Handle)
        (container.changeMulti info.field.name id) = _
  rw [found]
  by_cases none : container.groupsFor info.field.name = []
  · rw [if_pos none]
    exact congrFun (if_pos (congrArg some none)) _
  · rw [if_neg none]
    exact congrFun (if_neg fun same => none (Option.some.inj same)) _

def multiStore (container : DataContainer) :
    StorageConfig × Map Bytes (List (List MessageInfo)) :=
  (container.storageConfig, container.messageInfoMulti)

theorem call_keepsMulti (callback : Callback)
    (other : ∀ info, callback = .messageInfo info → info.isMulti = false) :
    KeepsView multiStore (handler.call callback) := by
  apply KeepsView.call
  cases callback with
  | error | parameter => exact fun _ _ _ => rfl
  | headerComplete | fileHeader | messageFormat | parameterDefault
  | addLoggedMessage | logging | data | dropout => exact fun _ _ => rfl
  | messageInfo info =>
      refine ⟨fun multi => ?_, fun _ _ _ => rfl⟩
      exact absurd multi (by rw [other info rfl]; exact Bool.false_ne_true)
  | sync => trivial

end Multi

section FullLog

variable {container other : DataContainer} {key : Bytes} {info : MessageInfo}
  {callback : Callback} {calls : List Callback}
  {items : List MessageInfo}

theorem storageConfig_call (callback : Callback) (container : DataContainer) :
    (handler.call callback container).2.storageConfig =
      container.storageConfig := by
  have keeps : KeepsView storageConfig (handler.call callback) := by
    apply KeepsView.call
    cases callback with
    | error | parameter => exact fun _ _ _ => rfl
    | headerComplete | fileHeader | messageFormat | parameterDefault
    | addLoggedMessage | logging | data | dropout => exact fun _ _ => rfl
    | messageInfo => exact ⟨fun _ _ _ => rfl, fun _ _ _ => rfl⟩
    | sync => trivial
  exact keeps.outcome container

def advance (info : MessageInfo) (groups : List (List MessageInfo)) :
    List (List MessageInfo) :=
  if info.continued then
    if groups = [] then [] else appendToLast info groups
  else groups ++ [[info]]

theorem groupsFor_call (kept : container.skips = false)
    (multi : info.isMulti = true) (key : Bytes) :
    (handler.call (.messageInfo info) container).2.groupsFor key =
      if key = info.field.name then advance info (container.groupsFor key)
      else container.groupsFor key := by
  by_cases same : key = info.field.name
  · rw [if_pos same, same, advance]
    cases continued : info.continued with
    | false =>
        rw [call_first kept multi continued, groupsFor_changeMulti, if_pos rfl]
        rfl
    | true =>
        rw [call_continued kept multi continued, if_pos rfl]
        split
        next none => rw [groupsFor_changeMulti, if_pos rfl, none]; rfl
        next some =>
          rw [groupsFor_changeMulti, if_pos rfl, groupsFor_changeMulti,
            if_pos rfl]
          rfl
  · rw [if_neg same]
    cases continued : info.continued with
    | false =>
        rw [call_first kept multi continued, groupsFor_changeMulti, if_neg same]
    | true =>
        rw [call_continued kept multi continued]
        split
        next none => rw [groupsFor_changeMulti, if_neg same]
        next some =>
          rw [groupsFor_changeMulti, if_neg same, groupsFor_changeMulti,
            if_neg same]

theorem multiFor_cases (key : Bytes) (callback : Callback) :
    (∃ info, callback = .messageInfo info ∧ info.isMulti = true ∧
      info.field.name = key) ∨ callback.isMultiFor key = false := by
  cases callback with
  | messageInfo info =>
      cases same : Callback.isMultiFor key (.messageInfo info) with
      | false => exact .inr rfl
      | true =>
          obtain ⟨multi, named⟩ := Bool.and_eq_true_iff.mp same
          exact .inl ⟨info, rfl, multi, beq_iff_eq.mp named⟩
  | _ => exact .inr rfl

/-- Single messages and those of other keys, like all other calls, leave the
groups of a key alone. -/
theorem groupsFor_other (kept : container.skips = false)
    (other : callback.isMultiFor key = false) :
    (handler.call callback container).2.groupsFor key =
      container.groupsFor key := by
  by_cases multi : ∃ info, callback = .messageInfo info ∧ info.isMulti = true
  · obtain ⟨info, rfl, isMulti⟩ := multi
    rw [groupsFor_call kept isMulti, if_neg]
    rintro rfl
    rw [Callback.isMultiFor, isMulti, beq_self_eq_true] at other
    cases other
  · have keeps := call_keepsMulti callback fun info same =>
      Bool.eq_false_iff.mpr fun isMulti => multi ⟨info, same, isMulti⟩
    have store := keeps.outcome container
    exact congrArg (fun held : StorageConfig × Map Bytes _ =>
      (held.2.lookup key).getD []) store

theorem acceptedFor_other {outcome : Except Exception Unit}
    (other : callback.isMultiFor key = false) :
    acceptedFor key (callback, outcome) = none := by
  cases callback with
  | messageInfo info =>
      cases outcome with
      | error exception => rfl
      | ok value =>
          refine if_neg fun both => ?_
          obtain ⟨multi, rfl⟩ := both
          rw [Callback.isMultiFor, multi, beq_self_eq_true] at other
          cases other
  | _ => rfl

theorem accepted_cons (key : Bytes) (entry : Callback × Except Exception Unit)
    (trace : List (Callback × Except Exception Unit)) :
    accepted key (entry :: trace) =
      (acceptedFor key entry).toList ++ accepted key trace := by
  rw [accepted, List.filterMap_cons]
  cases acceptedFor key entry <;> rfl

theorem grouped_call (kept : container.skips = false)
    (grouped : Grouped Begins (container.groupsFor key) items)
    (callback : Callback) :
    Grouped Begins ((handler.call callback container).2.groupsFor key)
      (items ++ (acceptedFor key
        (callback, (handler.call callback container).1)).toList) := by
  rcases multiFor_cases key callback with ⟨info, rfl, multi, rfl⟩ | other
  · have given : acceptedFor info.field.name (.messageInfo info, .ok ()) =
        some info := if_pos ⟨multi, rfl⟩
    cases continued : info.continued with
    | false =>
        rw [call_first kept multi continued, given, groupsFor_changeMulti,
          if_pos rfl]
        exact .first grouped continued
    | true =>
        rw [call_continued kept multi continued]
        by_cases none : container.groupsFor info.field.name = []
        · rw [if_pos none, groupsFor_changeMulti, if_pos rfl]
          exact (List.append_nil items).symm ▸ grouped
        · rw [if_neg none, given, groupsFor_changeMulti, if_pos rfl,
            groupsFor_changeMulti, if_pos rfl, id]
          obtain ⟨groups, last, same⟩ :=
            (List.eq_nil_or_concat _).resolve_left none
          rw [List.concat_eq_append] at same
          rw [same] at grouped ⊢
          rw [appendToLast_concat]
          refine .join grouped fun begins => ?_
          exact Bool.false_ne_true (begins.symm.trans continued)
  · rw [groupsFor_other kept other, acceptedFor_other other]
    exact (List.append_nil items).symm ▸ grouped

theorem grouped_receive (fullLog : container.storageConfig = .fullLog)
    (grouped : Grouped Begins (container.groupsFor key) items)
    (calls : List Callback) :
    Grouped Begins ((receive container calls).groupsFor key)
      (items ++ accepted key (Exec.outcomes handler.call calls container)) := by
  induction calls generalizing container items with
  | nil => exact (List.append_nil items).symm ▸ grouped
  | cons callback calls ih =>
      have here := grouped_call (skips_fullLog fullLog) grouped callback
      have later := ih ((storageConfig_call callback container).trans fullLog)
        here
      rw [List.append_assoc, ← accepted_cons] at later
      exact later

/-- The groups of a key depend on the multi messages with this key only. -/
theorem groupsFor_receive (fullLog : container.storageConfig = .fullLog)
    (same : other.storageConfig = .fullLog)
    (equal : container.groupsFor key = other.groupsFor key)
    (calls : List Callback) :
    (receive container calls).groupsFor key =
      (receive other (calls.filter (Callback.isMultiFor key))).groupsFor key := by
  induction calls generalizing container other with
  | nil => exact equal
  | cons callback calls ih =>
      have kept := skips_fullLog fullLog
      have next := (storageConfig_call callback container).trans fullLog
      rcases multiFor_cases key callback with ⟨info, rfl, multi, rfl⟩ | ignored
      · have concerns : Callback.isMultiFor info.field.name (.messageInfo info) =
            true := by
          rw [Callback.isMultiFor, multi, beq_self_eq_true]
          rfl
        rw [List.filter_cons_of_pos concerns]
        apply ih next ((storageConfig_call _ other).trans same)
        rw [groupsFor_call kept multi, groupsFor_call (skips_fullLog same) multi,
          equal]
      · rw [List.filter_cons_of_neg (by rw [ignored]; exact Bool.false_ne_true)]
        exact ih next same ((groupsFor_other kept ignored).trans equal)

end FullLog

/-- For every key, the messages that have been accepted are in the groups in
their order, each group begins with the only message in it that is not
continued, and nothing else has an influence on them. -/
theorem multi_grouped (calls : List Callback) (key : Bytes) :
    let container := receive { storageConfig := .fullLog } calls
    let messages := accepted key
      (Exec.outcomes handler.call calls { storageConfig := .fullLog })
    (container.groupsFor key).flatten = messages ∧
    (∀ group ∈ container.groupsFor key, ∃ first rest, group = first :: rest ∧
      first.continued = false ∧ ∀ info ∈ rest, info.continued = true) ∧
    (container.groupsFor key).length =
      (messages.filter fun info => info.continued = false).length ∧
    container.groupsFor key =
      (receive { storageConfig := .fullLog }
        (calls.filter (Callback.isMultiFor key))).groupsFor key := by
  intro container messages
  have grouped : Grouped Begins (container.groupsFor key) messages :=
    @grouped_receive { storageConfig := .fullLog } key [] rfl .nil calls
  refine ⟨grouped.flatten, ?_, grouped.length, groupsFor_receive rfl rfl rfl calls⟩
  intro group mem
  obtain ⟨first, rest, same, begins, later⟩ := grouped.opened group mem
  exact ⟨first, rest, same, begins, fun info mem =>
    Bool.eq_true_of_not_eq_false (later info mem)⟩

end DataContainer

end UlogCpp
