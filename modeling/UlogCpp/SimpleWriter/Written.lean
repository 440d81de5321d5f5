import UlogCpp.Data.Run
import UlogCpp.DataContainer.Model
import UlogCpp.SimpleWriter.Run

namespace UlogCpp

namespace SimpleWriter

/-! What a run has written, kept as lists in the order of the calls. -/

structure Written where
  formats : List (Bytes × MessageFormat) := []
  infos : List (Bytes × MessageInfo) := []
  texts : List Logging := []
  subscriptions : List (UInt16 × AddLoggedMessage) := []
  samples : List (UInt16 × Bytes) := []

namespace Written

/-- A call, with what it returns, adds what it has been given. -/
def add (written : Written) : Call × Option UInt16 → Written
  | (.writeInfo key value, _) =>
      { written with
        infos := written.infos ++ [(key, value.messageInfo key)] }
  | (.writeMessageFormat name fields, _) =>
      { written with
        formats := written.formats ++ [(name, { name, fields })] }
  | (.writeTextMessage level message timestamp, _) =>
      { written with
        texts := written.texts ++ [.ofText level message timestamp] }
  | (.writeAddLoggedMessage messageName multiId, some msgId) =>
      { written with
        subscriptions := written.subscriptions ++
          [(msgId, { multiId, msgId, messageName })] }
  | (.writeData id data, _) =>
      { written with samples := written.samples ++ [(id, data)] }
  | _ => written

def ofTrace (trace : List (Call × Option UInt16)) : Written :=
  trace.foldl add {}

theorem ofTrace_concat (trace : List (Call × Option UInt16))
    (entry : Call × Option UInt16) :
    ofTrace (trace ++ [entry]) = (ofTrace trace).add entry :=
  List.foldl_concat _ _ _ _

variable (written : Written)

def sizeOf (name : Bytes) : Nat :=
  ((written.formats.lookup name).map fun format =>
    messageSize format.fields).getD 0

/-- The data that has been written for a subscription, of which a sample is the
first part. -/
def dataOf (id : UInt16) (name : Bytes) : List Data :=
  (written.samples.filter fun sample => sample.1 == id).map fun sample =>
    { msgId := id, data := sample.2.take (written.sizeOf name) }

def subscription (id : UInt16) : Option UlogCpp.Subscription :=
  (written.subscriptions.lookup id).map fun added =>
    { addLoggedMessage := added, data := written.dataOf id added.messageName }

end Written

/-! ## Conditions on the calls -/

def Call.message (self : SimpleWriter) : Call → Option Message
  | writeInfo key value => some (.messageInfo (value.messageInfo key) .info)
  | writeParameter key value | writeParameterChange key value =>
      some (.messageInfo (value.messageInfo key) .parameter)
  | writeMessageFormat name fields => some (.messageFormat { name, fields })
  | headerComplete => none
  | writeAddLoggedMessage name multiId =>
      some (.addLoggedMessage
        ⟨multiId, UInt16.ofNat self.subscriptions.length, name⟩)
  | writeTextMessage level message timestamp =>
      some (.logging (.ofText level message timestamp))
  | writeData id data =>
      self.subscriptions[id.toNat]?.map fun subscription =>
        .data ⟨id, data.take subscription.messageSize.toNat⟩

/-- Array lengths are at least -1, texts are not empty, and there are at most
65536 subscriptions. -/
def Admissible (self : SimpleWriter) : Call → Prop
  | .writeMessageFormat _ fields =>
      ∀ field ∈ fields, -1 ≤ field.arrayLength.toInt
  | .writeTextMessage _ message _ => message ≠ []
  | .writeAddLoggedMessage _ _ => self.subscriptions.length < 65536
  | _ => True

instance (self : SimpleWriter) : (call : Call) → Decidable (Admissible self call)
  | .writeMessageFormat _ fields =>
      inferInstanceAs
        (Decidable (∀ field ∈ fields, -1 ≤ field.arrayLength.toInt))
  | .writeTextMessage _ message _ => inferInstanceAs (Decidable (message ≠ []))
  | .writeAddLoggedMessage _ _ =>
      inferInstanceAs (Decidable (self.subscriptions.length < 65536))
  | .writeInfo _ _ | .writeParameter _ _ | .headerComplete
  | .writeParameterChange _ _ | .writeData _ _ => .isTrue trivial

/-- The size of the message that data is written for has not come out as zero,
which happens when it wraps. -/
def SizeNonzero (self : SimpleWriter) : Call → Prop
  | .writeData id _ =>
      ∀ subscription ∈ self.subscriptions[id.toNat]?,
        subscription.messageSize ≠ 0
  | _ => True

instance (self : SimpleWriter) :
    (call : Call) → Decidable (SizeNonzero self call)
  | .writeData id _ =>
      inferInstanceAs (Decidable (∀ subscription ∈ self.subscriptions[id.toNat]?,
        subscription.messageSize ≠ 0))
  | .writeInfo _ _ | .writeParameter _ _ | .writeMessageFormat _ _
  | .headerComplete | .writeParameterChange _ _ | .writeAddLoggedMessage _ _
  | .writeTextMessage _ _ _ => .isTrue trivial

/-- Moreover no message is so long that its size is no `int`. -/
def Sound (self : SimpleWriter) (call : Call) : Prop :=
  Admissible self call ∧ SizeNonzero self call ∧
    ∀ message ∈ call.message self, message.body.length < 2 ^ 31

instance (self : SimpleWriter) (call : Call) : Decidable (Sound self call) :=
  inferInstanceAs (Decidable (_ ∧ _ ∧ _))

/-! ## The tables of the writer -/

structure Registered (written : Written) (simple : SimpleWriter) : Prop where
  formats : ∀ name,
    (simple.formats.lookup name).map (fun format => format.messageSize.toNat) =
      (written.formats.lookup name).map fun format =>
        messageSize format.fields
  unnamed : written.formats.lookup [] = none
  subscriptions :
    simple.subscriptions.map (fun subscription =>
        subscription.messageSize.toNat) =
      written.subscriptions.map fun added => written.sizeOf added.2.messageName
  known : ∀ added ∈ written.subscriptions,
    (written.formats.lookup added.2.messageName).isSome = true
  numbered : ∀ id, written.subscriptions.lookup id =
    written.subscriptions[id.toNat]?.map Prod.snd
  sampled : ∀ sample ∈ written.samples,
    sample.1.toNat < written.subscriptions.length

theorem Written.sizeOf_addFormat {written : Written} {name other : Bytes}
    {format : MessageFormat}
    (known : (written.formats.lookup other).isSome = true) :
    { written with
      formats := written.formats ++ [(name, format)] }.sizeOf other =
      written.sizeOf other := by
  obtain ⟨found, same⟩ := Option.isSome_iff_exists.mp known
  unfold sizeOf
  rw [Map.lookup_concat, same, Option.some_or]

theorem Written.subscription_addFormat {written : Written} {name : Bytes}
    {format : MessageFormat}
    (known : ∀ added ∈ written.subscriptions,
      (written.formats.lookup added.2.messageName).isSome = true)
    (id : UInt16) :
    { written with
      formats := written.formats ++ [(name, format)] }.subscription id =
      written.subscription id := by
  unfold subscription
  refine Option.map_congr ?_
  intro added found
  obtain ⟨before, after, split, _⟩ := List.lookup_eq_some_iff.mp found
  have member : (id, added) ∈ written.subscriptions := by
    rw [split]
    exact List.mem_append_right _ List.mem_cons_self
  unfold dataOf
  rw [sizeOf_addFormat (known _ member)]

theorem Written.dataOf_addSample {written : Written} {id : UInt16}
    {data : Bytes} (other : UInt16) (name : Bytes) :
    { written with
      samples := written.samples ++ [(id, data)] }.dataOf other name =
      written.dataOf other name ++
        if other = id then [⟨id, data.take (written.sizeOf name)⟩] else [] := by
  unfold dataOf
  rw [List.filter_append, List.map_append]
  refine congrArg (_ ++ ·) ?_
  by_cases same : other = id
  · rw [if_pos same, same, List.filter_singleton, beq_self_eq_true]
    rfl
  · rw [if_neg same, List.filter_singleton,
      beq_eq_false_iff_ne.mpr (Ne.symm same)]
    rfl

namespace Registered

variable {written : Written} {self : SimpleWriter}

theorem constructed (timestampUs : UInt64) :
    Registered {} (constructed timestampUs) where
  formats _ := rfl
  unnamed := rfl
  subscriptions := rfl
  known := nofun
  numbered _ := rfl
  sampled := nofun

theorem fresh_format (registered : Registered written self) {name : Bytes}
    (fresh : name ∉ self.formats) : written.formats.lookup name = none := by
  have same := registered.formats name
  rw [Finmap.lookup_eq_none.mpr fresh] at same
  exact Option.map_eq_none_iff.mp same.symm

theorem length_subscriptions (registered : Registered written self) :
    self.subscriptions.length = written.subscriptions.length := by
  have lengths := congrArg List.length registered.subscriptions
  rwa [List.length_map, List.length_map] at lengths

theorem addFormat (registered : Registered written self) {name : Bytes}
    {fields : List Field} {size : UInt32} (named : name ≠ [])
    (fresh : name ∉ self.formats) (sized : size.toNat = messageSize fields) :
    Registered
      { written with
        formats := written.formats ++ [(name, { name, fields })] }
      { self with
        formats := self.formats.insert name { messageSize := size } } where
  formats other := by
    have same := registered.formats other
    rw [Map.lookup_insert_eq, Map.lookup_concat]
    by_cases this : other = name
    · rw [if_pos this, if_pos this, this, registered.fresh_format fresh,
        Option.none_or, Option.map_some, Option.map_some, sized]
    · rw [if_neg this, if_neg this, Option.or_none]
      exact same
  unnamed := by
    rw [Map.lookup_concat, registered.unnamed, if_neg named.symm]
    rfl
  subscriptions := by
    refine registered.subscriptions.trans (List.map_congr_left ?_)
    intro added mem
    exact (Written.sizeOf_addFormat (registered.known added mem)).symm
  known added mem := by
    have known := registered.known added mem
    obtain ⟨found, same⟩ := Option.isSome_iff_exists.mp known
    rw [Map.lookup_concat, same]
    rfl
  numbered := registered.numbered
  sampled := registered.sampled

theorem number (registered : Registered written self)
    (few : self.subscriptions.length < 65536) :
    (UInt16.ofNat self.subscriptions.length).toNat =
      written.subscriptions.length := by
  rw [UInt16.toNat_ofNat', ← registered.length_subscriptions]
  exact Nat.mod_eq_of_lt few

theorem addSubscription (registered : Registered written self) {name : Bytes}
    {multiId : UInt8} {format : Format}
    (few : self.subscriptions.length < 65536)
    (known : self.formats.lookup name = some format) :
    Registered
      { written with
        subscriptions := written.subscriptions ++
          [(UInt16.ofNat self.subscriptions.length,
            ⟨multiId, UInt16.ofNat self.subscriptions.length, name⟩)] }
      { self with
        subscriptions := self.subscriptions ++ [⟨format.messageSize⟩] } where
  formats := registered.formats
  unnamed := registered.unnamed
  subscriptions := by
    have size := registered.formats name
    rw [known, Option.map_some] at size
    rw [List.map_append, List.map_append, registered.subscriptions]
    refine congrArg (_ ++ [·]) ?_
    exact congrArg (Option.getD · 0) size
  known added mem := by
    have size := registered.formats name
    rw [known, Option.map_some] at size
    rcases List.mem_append.mp mem with before | new
    · exact registered.known added before
    · rw [List.mem_singleton.mp new]
      exact Option.isSome_iff_exists.mpr
        ((Option.map_eq_some_iff.mp size.symm).imp fun _ => And.left)
  numbered id := by
    have number := registered.number few
    rw [Map.lookup_concat, registered.numbered, List.getElem?_append]
    by_cases same : id = UInt16.ofNat self.subscriptions.length
    · rw [if_pos same, same, number, if_neg (Nat.lt_irrefl _), Nat.sub_self,
        List.getElem?_eq_none (Nat.le_refl _)]
      rfl
    · have other : id.toNat ≠ written.subscriptions.length := fun equal =>
        same (UInt16.toNat_inj.mp (equal.trans number.symm))
      rw [if_neg same, Option.or_none]
      by_cases earlier : id.toNat < written.subscriptions.length
      · rw [if_pos earlier]
      · rw [if_neg earlier, List.getElem?_eq_none (by omega),
          List.getElem?_eq_none (by rw [List.length_singleton]; omega)]
  sampled sample mem := by
    have earlier := registered.sampled sample mem
    rw [List.length_append]
    omega

theorem addSample (registered : Registered written self) {id : UInt16}
    {data : Bytes} {subscription : Subscription}
    (subscribed : self.subscriptions[id.toNat]? = some subscription) :
    Registered { written with samples := written.samples ++ [(id, data)] }
      self where
  formats := registered.formats
  unnamed := registered.unnamed
  subscriptions := registered.subscriptions
  known := registered.known
  numbered := registered.numbered
  sampled sample mem := by
    rcases List.mem_append.mp mem with before | new
    · exact registered.sampled sample before
    · rw [List.mem_singleton.mp new, ← registered.length_subscriptions]
      exact (List.getElem?_eq_some_iff.mp subscribed).1

theorem fresh_id (registered : Registered written self)
    (few : self.subscriptions.length < 65536) :
    written.subscriptions.lookup (UInt16.ofNat self.subscriptions.length) =
        none ∧
      ∀ name, written.dataOf (UInt16.ofNat self.subscriptions.length) name =
        [] := by
  have number := registered.number few
  constructor
  · rw [registered.numbered, number, List.getElem?_eq_none (Nat.le_refl _)]
    rfl
  · intro name
    refine List.map_eq_nil_iff.mpr (List.filter_eq_nil_iff.mpr ?_)
    intro sample mem same
    have earlier := registered.sampled sample mem
    rw [beq_iff_eq.mp same, number] at earlier
    exact Nat.lt_irrefl _ earlier

theorem subscribed (registered : Registered written self) {id : UInt16}
    {subscription : Subscription}
    (subscribed : self.subscriptions[id.toNat]? = some subscription) :
    ∃ added, written.subscriptions.lookup id = some added ∧
      subscription.messageSize.toNat = written.sizeOf added.messageName := by
  have sizes := congrArg (fun list : List Nat => list[id.toNat]?)
    registered.subscriptions
  simp only [List.getElem?_map, subscribed, Option.map_some] at sizes
  obtain ⟨added, found, size⟩ := Option.map_eq_some_iff.mp sizes.symm
  refine ⟨added.2, ?_, size.symm⟩
  rw [registered.numbered, found]
  rfl

end Registered

end SimpleWriter

end UlogCpp
