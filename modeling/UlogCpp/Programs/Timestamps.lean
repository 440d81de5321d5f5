import UlogCpp.Programs.Report

namespace UlogCpp

/-! What `ulog_data` prints, for a file of any bytes. -/

namespace Value

theorem assign_eq_ok {size : Nat} {make : Nat → ValueType} {value : Bytes}
    {result : ValueType} (read : assign size make value = .ok result) :
    value.length = size ∧ make (leNat value) = result := by
  unfold assign at read
  split at read
  · cases read
  next sized => exact ⟨not_not.mp sized, Except.ok.inj read⟩

theorem of_ite {holds : Prop} [Decidable holds] {goal : Prop} {first second result : α}
    (read : (if holds then first else second) = result)
    (here : first = result → goal) (later : second = result → goal) : goal := by
  split at read
  · exact here read
  · exact later read

theorem ofField_uint64 {field : Field} {value : Bytes} {timestamp : UInt64}
    (read : ofField field value = .ok (.uint64 timestamp)) :
    timestamp.toNat = leNat value := by
  have other {size : Nat} {make : Nat → ValueType}
      (differs : ∀ bits, make bits ≠ .uint64 timestamp)
      (assigned : assign size make value = .ok (.uint64 timestamp)) :
      timestamp.toNat = leNat value :=
    absurd (assign_eq_ok assigned).2 (differs _)
  unfold ofField at read
  iterate 7
    refine of_ite read (other fun _ => ValueType.noConfusion) fun read => ?_
  refine of_ite read (fun assigned => ?_) fun read => ?_
  · obtain ⟨sized, made⟩ := assign_eq_ok assigned
    have small := leNat_lt value
    rw [sized] at small
    rw [← ValueType.uint64.inj made]
    exact UInt64.toNat_ofNat_of_lt' small
  iterate 4
    refine of_ite read (other fun _ => ValueType.noConfusion) fun read => ?_
  exact of_ite read (fun string => by cases string) fun vector => by
    cases vector

end Value

namespace UlogData

open Programs (Program Choices Prints Returns prints_printf prints_fromLibrary
  returns_bind returns_forM returns_fromLibrary recalls_numbered
  lookups_complete)

theorem printTimestamp_prints {field : Field} {data : Data}
    {timestamp : UInt64} (long : 8 ≤ data.data.length)
    (read : Value.ofField field (data.data.take 8) = .ok (.uint64 timestamp)) :
    Prints (printTimestamp field data) ()
      (decimal (leNat (data.data.take 8)) ++ ascii ", ") := by
  intro printed
  rw [printTimestamp, if_neg (Nat.not_lt.mpr long),
    Exec.bind_ok (prints_fromLibrary read printed), List.append_nil,
    ← Value.ofField_uint64 read]
  rfl

theorem printTimestamp_returns {field : Field} {data : Data}
    (returned : Returns (printTimestamp field data) ()) :
    8 ≤ data.data.length ∧ ∃ timestamp,
      Value.ofField field (data.data.take 8) = .ok (.uint64 timestamp) := by
  unfold printTimestamp at returned
  split at returned
  · obtain ⟨_, _, ran⟩ := returned
    cases ran
  next long =>
    obtain ⟨value, read, rest⟩ := returns_bind returned
    refine ⟨Nat.not_lt.mp long, ?_⟩
    cases value with
    | uint64 timestamp => exact ⟨timestamp, returns_fromLibrary read⟩
    | _ =>
        obtain ⟨_, _, ran⟩ := rest
        cases ran

def notFoundLine : Bytes := ascii "Error: " ++ (message ++ ascii " not found\n")

def subscriptionText (subscription : Subscription) : Bytes :=
  if subscription.addLoggedMessage.messageName = message then
    subscription.data.flatMap fun data =>
      decimal (leNat (data.data.take 8)) ++ ascii ", "
  else notFoundLine

/-- If it is of the message, the first field of its format is a timestamp, which
all its samples hold. -/
def Stamped (dataContainer : DataContainer) (subscription : Subscription) :
    Prop :=
  subscription.addLoggedMessage.messageName = message →
    ∃ format field fields,
      dataContainer.messageFormats.lookup message = some format ∧
      format.fields = field :: fields ∧ field.name = ascii "timestamp" ∧
      ∀ data ∈ subscription.data, 8 ≤ data.data.length ∧ ∃ timestamp,
        Value.ofField field (data.data.take 8) = .ok (.uint64 timestamp)

theorem printSubscriptions_prints {dataContainer : DataContainer}
    {ids : List UInt16} (stamped : ∀ id ∈ ids, ∃ subscription,
      dataContainer.subscriptions.lookup id = some subscription ∧
        Stamped dataContainer subscription) :
    Prints (printSubscriptions dataContainer ids) 0
      ((ids.filterMap dataContainer.subscriptions.lookup).flatMap
        subscriptionText ++ ascii "\n") := by
  induction ids with
  | nil => exact (prints_printf _).bind (.pure 0)
  | cons id ids ih =>
      obtain ⟨⟨subscription, found, here⟩, later⟩ :=
        List.forall_mem_cons.mp stamped
      have rest := ih later
      rw [List.filterMap_cons, found, List.flatMap_cons, List.append_assoc]
      simp only [printSubscriptions, found]
      by_cases named : subscription.addLoggedMessage.messageName = message
      · obtain ⟨format, field, fields, known, same, first, samples⟩ :=
          here named
        rw [if_pos named]
        simp only [known, same]
        rw [if_neg (not_not.mpr first), subscriptionText, if_pos named]
        refine (Prints.forM fun data mem => ?_).bind rest
        obtain ⟨long, _, read⟩ := samples data mem
        exact printTimestamp_prints long read
      · rw [if_neg named, subscriptionText, if_neg named]
        exact (prints_printf _).bind rest

theorem not_returns_throw {failure : Programs.Failure} {value : α} :
    ¬ Returns (Exec.throw failure : Program α) value := by
  rintro ⟨_, _, ran⟩
  cases ran

/-- It returns 0 only if it goes on to the end. -/
theorem printSubscriptions_step {dataContainer : DataContainer} {id : UInt16}
    {ids : List UInt16}
    (returned : Returns (printSubscriptions dataContainer (id :: ids)) 0) :
    (∃ subscription,
      dataContainer.subscriptions.lookup id = some subscription ∧
        Stamped dataContainer subscription) ∧
      Returns (printSubscriptions dataContainer ids) 0 := by
  unfold printSubscriptions at returned
  split at returned
  next => exact absurd returned not_returns_throw
  next subscription found =>
    by_cases named : subscription.addLoggedMessage.messageName = message
    · rw [if_pos named] at returned
      split at returned
      next => exact absurd returned not_returns_throw
      next format known =>
        split at returned
        next => exact absurd returned not_returns_throw
        next field fields same =>
          split at returned
          next =>
            obtain ⟨_, _, rest⟩ := returns_bind returned
            obtain ⟨_, _, ran⟩ := rest
            cases ran
          next first =>
            obtain ⟨_, samples, rest⟩ := returns_bind returned
            refine ⟨⟨subscription, found, fun _ => ?_⟩, rest⟩
            exact ⟨format, field, fields, known, same, not_not.mp first,
              fun data mem => printTimestamp_returns
                (returns_forM samples data mem)⟩
    · rw [if_neg named] at returned
      obtain ⟨_, _, rest⟩ := returns_bind returned
      exact ⟨⟨subscription, found, fun same => absurd same named⟩, rest⟩

theorem printSubscriptions_returns {dataContainer : DataContainer}
    {ids : List UInt16}
    (returned : Returns (printSubscriptions dataContainer ids) 0) :
    ∀ id ∈ ids, ∃ subscription,
      dataContainer.subscriptions.lookup id = some subscription ∧
        Stamped dataContainer subscription := by
  induction ids with
  | nil => exact List.forall_mem_nil _
  | cons id ids ih =>
      obtain ⟨here, later⟩ := printSubscriptions_step returned
      exact List.forall_mem_cons.mpr ⟨here, ih later⟩

theorem report_prints {dataContainer : DataContainer} (choices : Choices)
    (stamped : ∀ id subscription,
      dataContainer.subscriptions.lookup id = some subscription →
        Stamped dataContainer subscription) :
    Prints (report choices dataContainer) 0
      (message ++ ascii " timestamps: \n" ++
        (((choices.iterate dataContainer.subscriptions).filterMap
          dataContainer.subscriptions.lookup).flatMap subscriptionText ++
          ascii "\n")) := by
  refine (prints_printf _).bind (printSubscriptions_prints fun id mem => ?_)
  obtain ⟨subscription, found⟩ := Choices.mem_iterate.mp mem
  exact ⟨subscription, found, stamped id subscription found⟩

theorem report_returns {dataContainer : DataContainer} {choices : Choices}
    (returned : Returns (report choices dataContainer) 0) {id : UInt16}
    {subscription : Subscription}
    (found : dataContainer.subscriptions.lookup id = some subscription) :
    Stamped dataContainer subscription := by
  obtain ⟨_, _, rest⟩ := returns_bind returned
  obtain ⟨other, same, stamped⟩ := printSubscriptions_returns rest id
    (Choices.mem_iterate.mpr ⟨subscription, found⟩)
  rw [found] at same
  cases same
  exact stamped

section Main

variable {program path content : Bytes} {arguments : List Bytes}
  {files : Bytes → Option Bytes}

end Main

end UlogData

end UlogCpp
