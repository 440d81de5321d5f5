import UlogCpp.Data.Layout
import UlogCpp.SimpleWriter.Registration

namespace UlogCpp

/-! The padding check of `writeMessageFormat` and the layout of structs. -/

theorem Field.basicType {type : Bytes} {size : Nat}
    (known : kBasicTypes.lookup type = some size) :
    size = 1 ∨ size = 2 ∨ size = 4 ∨ size = 8 := by
  obtain ⟨before, after, split, _⟩ := List.lookup_eq_some_iff.mp known
  have entries : ∀ entry ∈ kBasicTypes,
      entry.2 = 1 ∨ entry.2 = 2 ∨ entry.2 = 4 ∨ entry.2 = 8 := by
    decide +kernel
  refine entries (type, size) ?_
  rw [split]
  exact List.mem_append_right _ List.mem_cons_self

def Field.member (field : Field) : Layout.Member where
  size := (kBasicTypes.lookup field.type).getD 1
  count :=
    if field.arrayLength ≤ 0 then 1 else field.arrayLength.toNatClampNeg
  positive := by
    cases known : kBasicTypes.lookup field.type with
    | none => exact Nat.one_pos
    | some size =>
        have sizes := basicType known
        rw [Option.getD_some]
        omega

namespace SimpleWriter

open Layout (Gapless Member)

section Padding

variable {self : SimpleWriter} {fields : List Field} {field : Field}
  {start size : UInt32}

def members (fields : List Field) : List Member := fields.map Field.member

theorem bytes_member {unit : Nat}
    (known : Field.kBasicTypes.lookup field.type = some unit) :
    field.member.size = unit ∧ field.member.bytes = countedSize field := by
  have size : field.member.size = unit := congrArg (Option.getD · 1) known
  refine ⟨size, ?_⟩
  rw [Member.bytes, size, countedSize, known]
  rfl

/-- The remainder that the loop looks at. -/
theorem remainder_iff {unit : Nat}
    (known : Field.kBasicTypes.lookup field.type = some unit) :
    start % UInt32.ofNat unit = 0 ↔ start.toNat % field.member.size = 0 := by
  have sizes := Field.basicType known
  have small : (UInt32.ofNat unit).toNat = unit :=
    UInt32.toNat_ofNat_of_lt' (by
      change unit < 4294967296
      omega)
  rw [(bytes_member known).1, ← UInt32.toNat_inj, UInt32.toNat_mod, small]
  rfl

theorem addSizes_cons {unit : Nat}
    (known : Field.kBasicTypes.lookup field.type = some unit)
    (aligned : start % UInt32.ofNat unit = 0) :
    addSizes start (field :: fields) self =
      addSizes
        (start + (if field.arrayLength ≤ 0 then 1 else field.arrayLength).toUInt32 *
          UInt32.ofNat unit) fields self := by
  rw [addSizes, known]
  exact Exec.bind_ok (throwUsageIf_ok (not_not.mpr aligned) _ _) _

theorem toNat_advance {unit : Nat}
    (known : Field.kBasicTypes.lookup field.type = some unit)
    (small : start.toNat + field.member.bytes < 2 ^ 31) :
    (start + (if field.arrayLength ≤ 0 then 1 else field.arrayLength).toUInt32 *
      UInt32.ofNat unit).toNat = start.toNat + field.member.bytes := by
  rw [(bytes_member known).2] at small ⊢
  rw [UInt32.toNat_add, countedSize_product known]
  omega

theorem addSizes_of_gapless (basic : ∀ field ∈ fields, IsBasic field)
    (small : start.toNat + Layout.total (members fields) < 2 ^ 31)
    (gapless : Gapless start.toNat (members fields)) :
    ∃ size, addSizes start fields self = (.ok size, self) ∧
      size.toNat = start.toNat + Layout.total (members fields) := by
  induction fields generalizing start with
  | nil => exact ⟨start, rfl, rfl⟩
  | cons field fields ih =>
      obtain ⟨⟨unit, known⟩, others⟩ := List.forall_mem_cons.mp basic
      obtain ⟨aligned, later⟩ := gapless.of_cons
      rw [members, List.map_cons, Layout.total_cons, ← Nat.add_assoc] at small ⊢
      rw [addSizes_cons known ((remainder_iff known).mpr aligned)]
      have advance := toNat_advance known (Nat.lt_of_le_of_lt (Nat.le_add_right _ _)
        small)
      rw [← advance] at small later ⊢
      exact ih others small later

theorem gapless_of_addSizes (basic : ∀ field ∈ fields, IsBasic field)
    (small : start.toNat + Layout.total (members fields) < 2 ^ 31)
    (passes : addSizes start fields self = (.ok size, self)) :
    Gapless start.toNat (members fields) := by
  induction fields generalizing start with
  | nil => trivial
  | cons field fields ih =>
      obtain ⟨⟨unit, known⟩, others⟩ := List.forall_mem_cons.mp basic
      rw [members, List.map_cons, Layout.total_cons, ← Nat.add_assoc] at small
      by_cases aligned : start % UInt32.ofNat unit = 0
      · rw [addSizes_cons known aligned] at passes
        apply Gapless.cons ((remainder_iff known).mp aligned)
        have advance := toNat_advance known (Nat.lt_of_le_of_lt
          (Nat.le_add_right _ _) small)
        rw [← advance] at small ⊢
        exact ih others small passes
      · rw [addSizes, known] at passes
        obtain ⟨_, _, passed, _⟩ := Exec.bind_eq_ok.mp passes
        exact absurd aligned (throwUsageIf_eq_ok.mp passed).1

theorem size_member_le (field : Field) : field.member.size ≤ 8 := by
  cases known : Field.kBasicTypes.lookup field.type with
  | none =>
      have size : field.member.size = 1 := congrArg (Option.getD · 1) known
      omega
  | some unit =>
      have sizes := Field.basicType known
      have size := (bytes_member known).1
      omega

theorem structSize_lt (small : Layout.total (members fields) < 2 ^ 31)
    (gapless : Gapless 0 (members fields)) :
    Layout.structSize (members fields) < 2 ^ 32 := by
  have positive := Layout.alignment_pos (members fields)
  have bounded : Layout.alignment (members fields) ≤ 8 := by
    apply Layout.alignment_le (by decide)
    intro member mem
    obtain ⟨field, _, rfl⟩ := List.mem_map.mp mem
    exact size_member_le field
  have rounded := @Layout.alignUp_lt (Layout.endOffset 0 (members fields)) _ positive
  rw [gapless.endOffset] at rounded
  rw [Layout.structSize, gapless.endOffset]
  omega

theorem FormatChecks.stored {matchesField : Bytes → Bool} {regex name : Bytes}
    (checks : FormatChecks matchesField self name fields size) :
    (Method.writeFormat matchesField regex name fields self).2.formats.lookup
      name = some ⟨size⟩ := by
  rw [checks.writeFormat]
  exact Finmap.lookup_insert _

/-- An object that is not shorter than the size passes the check of
`writeData`. -/
theorem writeData_covered {id : UInt16} {object : Bytes}
    (header : self.headerComplete = true)
    (subscribed : self.subscriptions[id.toNat]? = some ⟨size⟩)
    (covered : size ≤ UInt32.ofNat object.length) :
    Method.writeData id object self =
      onWriter (Writer.Handle.data
        { msgId := id, data := object.take size.toNat }) self := by
  apply (Exec.bind_ok (headerClosed_passes header) _).trans
  rw [Exec.get_bind_apply]
  simp only [subscribed]
  exact Exec.bind_ok (throwUsageIf_ok (UInt32.not_lt.mpr covered) _ _) _

/-- The loop of `writeMessageFormat` accepts exactly the lists of fields whose
struct has no padding between its members. What it adds up is the end of the
last member; the offsets of the fields in a message are those in the struct; and
`writeData` accepts the struct and copies exactly its members. -/
theorem addSizes_exact (self : SimpleWriter) {fields : List Field}
    (basic : ∀ field ∈ fields, IsBasic field)
    (small : Layout.total (members fields) < 2 ^ 31) :
    ((∃ size, addSizes 0 fields self = (.ok size, self)) ↔
      Gapless 0 (members fields)) ∧
    ∀ size, addSizes 0 fields self = (.ok size, self) →
      (∀ {matchesField regex name},
        FormatChecks matchesField self name fields size →
        (Method.writeFormat matchesField regex name fields self).2.formats.lookup
          name = some ⟨size⟩) ∧
      size.toNat = Layout.endOffset 0 (members fields) ∧
      Layout.packed 0 (members fields) = Layout.place 0 (members fields) ∧
      size.toNat ≤ Layout.structSize (members fields) ∧
      ∀ {simple : SimpleWriter} {id : UInt16} {object : Bytes},
        simple.headerComplete = true →
        simple.subscriptions[id.toNat]? = some ⟨size⟩ →
        object.length = Layout.structSize (members fields) →
        Method.writeData id object simple =
          onWriter (Writer.Handle.data
            { msgId := id
              data := Layout.contents object 0 (members fields) }) simple := by
  have start : (0 : UInt32).toNat + Layout.total (members fields) < 2 ^ 31 := by
    rwa [show (0 : UInt32).toNat = 0 from rfl, Nat.zero_add]
  constructor
  · constructor
    · rintro ⟨size, passes⟩
      exact gapless_of_addSizes basic start passes
    · intro gapless
      exact (addSizes_of_gapless basic start gapless).imp fun _ => And.left
  · intro size passes
    have gapless : Gapless 0 (members fields) :=
      gapless_of_addSizes basic start passes
    obtain ⟨added, same, total⟩ :=
      @addSizes_of_gapless self fields 0 basic start gapless
    cases passes.symm.trans same
    replace total : size.toNat = Layout.total (members fields) :=
      total.trans (Nat.zero_add _)
    have ends : size.toNat = Layout.endOffset 0 (members fields) := by
      rw [gapless.endOffset, total, Nat.zero_add]
    have within : size.toNat ≤ Layout.structSize (members fields) :=
      ends.trans_le (Layout.endOffset_le_structSize _)
    refine ⟨FormatChecks.stored, ends, gapless.place.symm, within, ?_⟩
    intro simple id object header subscribed whole
    have length : (UInt32.ofNat object.length).toNat =
        Layout.structSize (members fields) := by
      rw [whole, UInt32.toNat_ofNat_of_lt' (structSize_lt small gapless)]
    have covered : size ≤ UInt32.ofNat object.length := by
      rwa [UInt32.le_iff_toNat_le, length]
    rw [writeData_covered header subscribed covered, gapless.contents,
      List.drop_zero, total]

def sampleFields : List Field :=
  [timestampField, { type := ascii "float", name := [97] },
    { type := ascii "uint8_t", name := [98], arrayLength := 3 }]

theorem addSizes_sampleFields :
    ∃ size, addSizes 0 sampleFields (constructed 0) = (.ok size, constructed 0) := by
  have basic : ∀ field ∈ sampleFields, IsBasic field := by
    intro field mem
    have known : ∀ field ∈ sampleFields,
        (Field.kBasicTypes.lookup field.type).isSome = true := by
      decide +kernel
    exact Option.isSome_iff_exists.mp (known field mem)
  exact (addSizes_exact (constructed 0) basic (by decide +kernel)).1.mpr
    (by decide +kernel)

end Padding

end SimpleWriter

end UlogCpp
