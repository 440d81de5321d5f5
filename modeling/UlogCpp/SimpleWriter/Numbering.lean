import UlogCpp.SimpleWriter.Registration

namespace UlogCpp

/-! The ids of subscriptions. -/

namespace SimpleWriter

def returnedId : Call × Except Exception (Option UInt16) → Option UInt16
  | (.writeAddLoggedMessage _ _, .ok result) => result
  | _ => none

def returnedIds (trace : List (Call × Except Exception (Option UInt16))) :
    List UInt16 :=
  trace.filterMap returnedId

/-- The entries of `_subscriptions` come from the calls in `subscribedNames`, so
the index of a new entry is the number of these calls so far. -/
def OwnIndex (earlier : List (Call × Except Exception (Option UInt16)))
    (entry : Call × Except Exception (Option UInt16)) : Prop :=
  ∀ id, returnedId entry = some id →
    id.toNat = (subscribedNames earlier).length

/-- There are fewer than 65536 subscriptions when one is added. -/
def Room (earlier : List (Call × Except Exception (Option UInt16)))
    (entry : Call × Except Exception (Option UInt16)) : Prop :=
  ∀ id, returnedId entry = some id → (subscribedNames earlier).length < 65536

/-- The ids are different, each is the index of its own entry, and data with an
id is written with the size of the format that has been subscribed to. -/
structure Numbered (uses : UInt16 → UInt32 → Prop)
    (trace : List (Call × Except Exception (Option UInt16)))
    (simple : SimpleWriter) : Prop where
  counted : simple.subscriptions.length = (subscribedNames trace).length
  distinct : (returnedIds trace).Nodup
  own : Exec.Everywhere OwnIndex trace
  sized : ∀ {name multiId id},
    (.writeAddLoggedMessage name multiId, .ok (some id)) ∈ trace →
    ∃ format, simple.formats.lookup name = some format ∧
      simple.subscriptions[id.toNat]? = some ⟨format.messageSize⟩ ∧
      uses id format.messageSize

structure Extends (before after : SimpleWriter) : Prop where
  formats : ∀ {name format}, before.formats.lookup name = some format →
    after.formats.lookup name = some format
  subscriptions : before.subscriptions <+: after.subscriptions

section Numbered

variable {trace : List (Call × Except Exception (Option UInt16))}
  {before after : SimpleWriter} {call : Call}
  {outcome : Except Exception (Option UInt16)}

theorem Extends.of_eq (formats : after.formats = before.formats)
    (subscriptions : after.subscriptions = before.subscriptions) :
    Extends before after where
  formats found := by rwa [formats]
  subscriptions := by rw [subscriptions]

theorem Extends.insert {name : Bytes} {format : Format}
    (fresh : name ∉ before.formats)
    (formats : after.formats = before.formats.insert name format)
    (subscriptions : after.subscriptions = before.subscriptions) :
    Extends before after where
  formats {other _} found := by
    rw [formats, Map.lookup_insert_eq, if_neg, found]
    rintro rfl
    exact fresh (Finmap.mem_of_lookup_eq_some found)
  subscriptions := by rw [subscriptions]

theorem Attempted.extends (attempted : Attempted before after call outcome) :
    Extends before after := by
  rcases outcome with exception | result
  · cases attempted with
    | checked same | tooLong plain same =>
        rw [same]
        exact .of_eq rfl rfl
    | writeMessageFormat fresh long same =>
        rw [same]
        exact .insert fresh rfl rfl
    | writeAddLoggedMessage known long same =>
        rw [same]
        exact ⟨id, List.prefix_append _ _⟩
  · cases attempted with
    | writeInfo header emits | writeParameter header emits
    | writeParameterChange header emits | writeTextMessage header emits
    | writeData header subscribed covered emits =>
        obtain ⟨output, _, rfl⟩ := emits
        exact .of_eq rfl rfl
    | headerComplete same =>
        rw [same]
        exact .of_eq rfl rfl
    | writeMessageFormat header fresh named fieldsNamed basic sized emits =>
        obtain ⟨output, _, rfl⟩ := emits
        exact .insert fresh rfl rfl
    | writeAddLoggedMessage header known emits =>
        obtain ⟨output, _, rfl⟩ := emits
        exact ⟨id, List.prefix_append _ _⟩

theorem LogStep.extends {made : Call → Prop}
    {admits : SimpleWriter → UInt16 → Bytes → Prop}
    (step : LogStep made admits before call outcome after) :
    Extends before after := by
  cases step with
  | attempted given attempted => exact attempted.extends
  | data admitted => exact .of_eq rfl rfl

/-- An id is the number of subscriptions, as sixteen bits. -/
theorem LogStep.returned {made : Call → Prop}
    {admits : SimpleWriter → UInt16 → Bytes → Prop} {name : Bytes}
    {multiId : UInt8} {id : UInt16}
    (step : LogStep made admits before (.writeAddLoggedMessage name multiId)
      (.ok (some id)) after) :
    id = UInt16.ofNat before.subscriptions.length ∧
      ∃ format, before.formats.lookup name = some format ∧
        after.subscriptions = before.subscriptions ++ [⟨format.messageSize⟩] := by
  cases step with
  | attempted given attempted =>
      cases attempted with
      | @writeAddLoggedMessage _ _ format header known emits =>
          obtain ⟨output, _, rfl⟩ := emits
          exact ⟨rfl, format, known, rfl⟩

theorem returnedId_eq_some {entry : Call × Except Exception (Option UInt16)}
    {id : UInt16} (returned : returnedId entry = some id) :
    ∃ name multiId,
      entry = (.writeAddLoggedMessage name multiId, .ok (some id)) := by
  obtain ⟨call, outcome⟩ := entry
  cases call with
  | writeAddLoggedMessage name multiId =>
      cases outcome with
      | error exception => cases returned
      | ok result =>
          cases returned
          exact ⟨name, multiId, rfl⟩
  | _ => cases returned

theorem Tabled.counted (tabled : Tabled trace before) :
    before.subscriptions.length = (subscribedNames trace).length := by
  have lengths := congrArg List.length tabled.subscriptions
  rwa [List.length_map, List.length_map] at lengths

theorem returnedIds_lt (own : Exec.Everywhere OwnIndex trace) {id : UInt16}
    (mem : id ∈ returnedIds trace) : id.toNat < (subscribedNames trace).length := by
  obtain ⟨entry, among, returned⟩ := List.mem_filterMap.mp mem
  obtain ⟨earlier, later, rfl⟩ := List.append_of_mem among
  rw [own rfl id returned]
  obtain ⟨name, multiId, rfl⟩ := returnedId_eq_some returned
  rw [subscribedNames, subscribedNames, List.filterMap_append,
    List.length_append]
  exact Nat.lt_add_of_pos_right (Nat.succ_pos _)

structure Numbering (trace : List (Call × Except Exception (Option UInt16)))
    (simple : SimpleWriter) : Prop where
  tabled : Tabled trace simple
  own_iff : Exec.Everywhere OwnIndex trace ↔ Exec.Everywhere Room trace
  numbered : Exec.Everywhere OwnIndex trace →
    Numbered (fun _ _ => True) trace simple

namespace Numbering

theorem ownIndex_iff {made : Call → Prop}
    {admits : SimpleWriter → UInt16 → Bytes → Prop}
    (tabled : Tabled trace before)
    (step : LogStep made admits before call outcome after) :
    OwnIndex trace (call, outcome) ↔ Room trace (call, outcome) := by
  apply forall₂_congr
  intro id returned
  obtain ⟨name, multiId, same⟩ := returnedId_eq_some returned
  cases same
  obtain ⟨number, _⟩ := step.returned
  rw [tabled.counted] at number
  rw [number, UInt16.toNat_ofNat']
  omega

theorem step {made : Call → Prop}
    {admits : SimpleWriter → UInt16 → Bytes → Prop}
    (numbering : Numbering trace before)
    (step : LogStep made admits before call outcome after) :
    Numbering (trace ++ [(call, outcome)]) after where
  tabled := numbering.tabled.step step
  own_iff := by
    rw [Exec.everywhere_concat, Exec.everywhere_concat, numbering.own_iff,
      ownIndex_iff numbering.tabled step]
  numbered own := by
    obtain ⟨earlierOwn, here⟩ := Exec.everywhere_concat.mp own
    have numbered := numbering.numbered earlierOwn
    refine ⟨(numbering.tabled.step step).counted, ?_, own, ?_⟩
    · rw [returnedIds, List.filterMap_append, List.nodup_append]
      refine ⟨numbered.distinct, by
        rw [List.filterMap_cons]
        cases returnedId (call, outcome) <;> simp, ?_⟩
      intro id mem other now same
      obtain ⟨entry, only, returned⟩ := List.mem_filterMap.mp now
      cases List.mem_singleton.mp only
      have less := returnedIds_lt earlierOwn mem
      rw [same, here other returned] at less
      exact Nat.lt_irrefl _ less
    · intro name multiId id mem
      rcases List.mem_append.mp mem with earlier | now
      · obtain ⟨format, known, subscribed, _⟩ := numbered.sized earlier
        have extended := step.extends
        refine ⟨format, extended.formats known, ?_, trivial⟩
        obtain ⟨more, same⟩ := extended.subscriptions
        have within := (List.getElem?_eq_some_iff.mp subscribed).1
        rw [← same, List.getElem?_append_left within]
        exact subscribed
      · cases List.mem_singleton.mp now
        obtain ⟨number, format, known, appended⟩ := step.returned
        refine ⟨format, step.extends.formats known, ?_, trivial⟩
        rw [here id rfl, ← numbering.tabled.counted, appended]
        exact List.getElem?_concat_length

theorem recorded {made : Call → Prop}
    {admits : SimpleWriter → UInt16 → Bytes → Prop}
    (recorded : Recorded made admits trace before) : Numbering trace before := by
  obtain ⟨timestampUs, path⟩ := recorded
  refine path.invariant ?_ fun numbering next => numbering.step next
  refine ⟨.constructed timestampUs, iff_of_true ?_ ?_, fun own => ?_⟩
  · intro earlier entry later same
    exact absurd same.symm (List.append_ne_nil_of_right_ne_nil _ nofun)
  · intro earlier entry later same
    exact absurd same.symm (List.append_ne_nil_of_right_ne_nil _ nofun)
  · exact ⟨rfl, List.nodup_nil, own, nofun⟩

end Numbering

/-- The ids number the subscriptions as long as there is room for them. -/
theorem Recorded.numbers_iff {made : Call → Prop}
    {admits : SimpleWriter → UInt16 → Bytes → Prop}
    {uses : UInt16 → UInt32 → Prop}
    (recorded : Recorded made admits trace before)
    (used : ∀ {id : UInt16} {size},
      before.subscriptions[id.toNat]? = some ⟨size⟩ → uses id size) :
    Numbered uses trace before ↔ Exec.Everywhere Room trace := by
  have numbering := Numbering.recorded recorded
  rw [← numbering.own_iff]
  constructor
  · exact Numbered.own
  · intro own
    obtain ⟨counted, distinct, own, sized⟩ := numbering.numbered own
    refine ⟨counted, distinct, own, fun mem => ?_⟩
    obtain ⟨format, known, subscribed, _⟩ := sized mem
    exact ⟨format, known, subscribed, used subscribed⟩

end Numbered

/-! ## What the size is used for -/

def WritesWith (simple : SimpleWriter) (id : UInt16) (size : UInt32) : Prop :=
  ∀ data, Method.writeData id data simple = (do
    headerClosed
    throwUsageIf (UInt32.ofNat data.length < size)
      (ascii "sizeof(data) is too small")
    onWriter (Writer.Handle.data
      { msgId := id, data := data.take size.toNat })) simple

theorem writesWith_of_subscribed {simple : SimpleWriter} {id : UInt16}
    {size : UInt32} (subscribed : simple.subscriptions[id.toNat]? = some ⟨size⟩) :
    WritesWith simple id size := by
  intro data
  rw [Method.writeData, Method.writeDataImpl]
  rcases ran : headerClosed simple with ⟨exception | _, reached⟩
  · rw [Exec.bind_error ran, Exec.bind_error ran]
  · obtain ⟨_, rfl⟩ := headerClosed_ok ran
    rw [Exec.bind_ok ran, Exec.bind_ok ran, Exec.get_bind_apply]
    simp only [subscribed]

/-! ## Many subscriptions -/

structure Subscribable (name : Bytes) (simple : SimpleWriter) : Prop where
  synced : simple.Synced
  header : simple.headerComplete = true
  known : name ∈ simple.formats

theorem Subscribable.subscribe {simple : SimpleWriter} {name : Bytes}
    (subscribable : Subscribable name simple) (short : name.length ≤ 255) :
    (perform (.writeAddLoggedMessage name 0) simple).1 =
        .ok (some (UInt16.ofNat simple.subscriptions.length)) ∧
      Subscribable name (perform (.writeAddLoggedMessage name 0) simple).2 ∧
      (perform (.writeAddLoggedMessage name 0) simple).2.subscriptions.length =
        simple.subscriptions.length + 1 := by
  obtain ⟨synced, header, known⟩ := subscribable
  obtain ⟨format, found⟩ := Finmap.mem_iff.mp known
  have fits : ¬ (Message.addLoggedMessage
      (simple.nextSubscription name 0)).TooLong := by
    have length := Message.length_addLoggedMessage
      (simple.nextSubscription name 0)
    change _ = 3 + name.length at length
    rintro (long | keyed)
    · omega
    · cases keyed
  rw [perform_writeAddLoggedMessage, writeAddLoggedMessage_apply synced header found,
    Message.serialize_returns fits]
  exact ⟨rfl, ⟨synced, header, known⟩, List.length_append⟩

theorem Subscribable.repeated {simple : SimpleWriter} {name : Bytes}
    (subscribable : Subscribable name simple) (short : name.length ≤ 255)
    (count : Nat) :
    Subscribable name (Exec.final perform
        (List.replicate count (.writeAddLoggedMessage name 0)) simple) ∧
      (Exec.final perform (List.replicate count
        (.writeAddLoggedMessage name 0)) simple).subscriptions.length =
        simple.subscriptions.length + count := by
  induction count generalizing simple with
  | zero => exact ⟨subscribable, rfl⟩
  | succ count ih =>
      obtain ⟨_, next, longer⟩ := subscribable.subscribe short
      obtain ⟨last, length⟩ := ih next
      refine ⟨last, length.trans ?_⟩
      rw [longer]
      omega

def subscriptionCalls (count : Nat) : List Call :=
  [.writeMessageFormat [109] [timestampField], .headerComplete] ++
    List.replicate count (.writeAddLoggedMessage [109] 0)

theorem not_room_subscriptionCalls {count : Nat} (full : 65536 ≤ count) :
    ¬ Exec.Everywhere Room (Exec.outcomes perform
      (subscriptionCalls count ++ [.writeAddLoggedMessage [109] 0])
      (constructed 0)) := by
  have subscribable : Subscribable [109] (Exec.final perform
      [.writeMessageFormat [109] [timestampField], .headerComplete]
      (constructed 0)) := by
    refine ⟨synced_final 0 _, by decide +kernel, ?_⟩
    apply Finmap.lookup_isSome.mp
    decide +kernel
  obtain ⟨filled, length⟩ := subscribable.repeated (by decide) count
  rw [← Exec.final_append] at filled length
  have recorded := @Recorded.calls (fun _ => True) (fun _ _ _ => True)
    (fun _ => trivial) 0 (subscriptionCalls count)
  have counted := recorded.tabled.counted
  intro everywhere
  rw [Exec.outcomes_append] at everywhere
  have room := (Exec.everywhere_concat.mp everywhere).2
  have returned := (filled.subscribe (by decide)).1
  have few := room _ (congrArg (fun outcome =>
    returnedId (.writeAddLoggedMessage [109] 0, outcome)) returned)
  rw [← counted] at few
  change (Exec.final perform (subscriptionCalls count)
    (constructed 0)).subscriptions.length = _ at length
  omega

end SimpleWriter

end UlogCpp
