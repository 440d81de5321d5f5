import UlogCpp.Tools.GenerateStructs
import UlogCpp.ZzDataLog.PayloadSize

namespace UlogCpp

/-! The list of fields that `generate_structs.py` makes of a struct, against the
memory of the struct. -/

namespace GenerateStructs

open SimpleWriter (members bytes_member messageSize)
open ZzDataLog (Env Request Constructor Method Subscribed InFile Renumbers)

structure Compiled extends Declaration where
  plain : toDeclaration.Plain
  narrow : toDeclaration.count < 2 ^ 31

/-- The member as the compiler lays it out. -/
def Compiled.member (declared : Compiled) : Layout.Member where
  size := declared.found.size
  count := declared.count
  positive := by
    have sizes := declared.plain.size
    omega

structure StructDefinition where
  declarations : List Compiled
  trailing : Bytes
  white : ∀ byte ∈ trailing, isWhite byte = true

namespace StructDefinition

def content (definition : StructDefinition) : Bytes :=
  structContent (definition.declarations.map Compiled.toDeclaration)
    definition.trailing

/-- The declarations with the offsets of their members in the struct. -/
def placed (definition : StructDefinition) : List (Compiled × Nat) :=
  definition.declarations.zip
    (Layout.place 0 (definition.declarations.map Compiled.member))

/-- The same in the order of the list that the script makes. -/
def listed (definition : StructDefinition) : List (Compiled × Nat) :=
  definition.placed.insertionSort fun first second =>
    second.1.found.size ≤ first.1.found.size

def described (definition : StructDefinition) : List Layout.Member :=
  members (fields definition.content)

/-- The offset of every field, packed as in the list, is that of its member. -/
def Describes (definition : StructDefinition) : Prop :=
  Layout.packed 0 definition.described = definition.listed.map Prod.snd

instance (definition : StructDefinition) : Decidable definition.Describes :=
  inferInstanceAs (Decidable (_ = _))

/-- No type is larger than that of an earlier declaration. -/
def Descending (definition : StructDefinition) : Prop :=
  definition.declarations.Pairwise fun earlier later =>
    later.found.size ≤ earlier.found.size

def size (definition : StructDefinition) : Nat :=
  Layout.total (definition.declarations.map Compiled.member)

/-- Decoding the payload by the format gives the bytes of each member of the
object. -/
def Recovers (definition : StructDefinition) (object payload : Bytes)
    (format : MessageFormat) : Prop :=
  Layout.parts payload (Layout.packed 0 (members format.fields))
      (members format.fields) =
    definition.listed.map fun entry =>
      (object.drop entry.2).take entry.1.member.bytes

end StructDefinition

section Members

theorem Compiled.member_field (declared : Compiled) :
    declared.found.field.member = declared.member := by
  have size := (bytes_member declared.plain.lookup).1
  have count := declared.plain.count_member declared.narrow
  cases same : declared.found.field.member with
  | mk unit number positive =>
      rw [same] at size count
      cases size
      cases count
      rfl

theorem Compiled.solid (declared : Compiled) : 0 < declared.member.bytes := by
  have sizes := declared.plain.size
  refine Nat.mul_pos declared.plain.positive ?_
  change 0 < declared.found.size
  omega

end Members

namespace StructDefinition

variable {definition : StructDefinition}

theorem solid (list : List Compiled) :
    ∀ member ∈ list.map Compiled.member, 0 < member.bytes := by
  intro member mem
  obtain ⟨declared, _, rfl⟩ := List.mem_map.mp mem
  exact declared.solid

theorem map_placed (definition : StructDefinition) :
    definition.placed.map Prod.fst = definition.declarations ∧
      definition.placed.map Prod.snd =
        Layout.place 0 (definition.declarations.map Compiled.member) := by
  have same : definition.declarations.length =
      (Layout.place 0 (definition.declarations.map Compiled.member)).length := by
    rw [Layout.length_place, List.length_map]
  exact ⟨List.map_fst_zip same.le, List.map_snd_zip same.ge⟩

theorem listed_found (definition : StructDefinition) :
    definition.listed.map (fun entry => entry.1.found) =
      sortBySize (definition.declarations.map fun declared =>
        declared.found) := by
  have moved := List.map_insertionSort
    (fun first second : Compiled × Nat =>
      second.1.found.size ≤ first.1.found.size)
    (fun first second : FieldMatch => second.size ≤ first.size)
    (fun entry => entry.1.found) definition.placed
    (fun _ _ _ _ => Iff.rfl)
  have found : definition.placed.map (fun entry => entry.1.found) =
      definition.declarations.map fun declared => declared.found := by
    rw [← (map_placed definition).1, List.map_map]
    rfl
  rw [listed, moved, found]
  rfl

theorem described_eq (definition : StructDefinition) :
    definition.described =
      definition.listed.map fun entry => entry.1.member := by
  have found : (definition.declarations.map Compiled.toDeclaration).map
      Declaration.found =
        definition.declarations.map fun declared => declared.found :=
    List.map_map
  rw [described, content, fields_structContent definition.white, found,
    ← listed_found, List.map_map, members, List.map_map]
  exact List.map_congr_left fun entry _ => entry.1.member_field

theorem Descending.listed (descending : definition.Descending) :
    definition.listed = definition.placed := by
  apply List.Pairwise.insertionSort_eq
  rw [Descending, ← (map_placed definition).1, List.pairwise_map] at descending
  exact descending

theorem Descending.describes (descending : definition.Descending) :
    definition.Describes := by
  have gapless :
      Layout.Gapless 0 (definition.declarations.map Compiled.member) := by
    apply Layout.gapless_of_dvd
    · refine List.pairwise_map.mpr (descending.imp fun {earlier later} le => ?_)
      exact dvd_of_le later.plain.size earlier.plain.size le
    · exact fun _ _ => Nat.dvd_zero _
  have order : definition.described =
      definition.declarations.map Compiled.member := by
    rw [described_eq, descending.listed, ← (map_placed definition).1, List.map_map]
    rfl
  rw [Describes, order, descending.listed, (map_placed definition).2,
    gapless.place]

/-- Where the offsets agree, the list and the struct are in the same order, since
in both the offsets grow. -/
theorem Describes.descending (describes : definition.Describes) :
    definition.Descending := by
  have inMemory : definition.placed.Pairwise fun first second =>
      first.2 < second.2 := by
    apply List.pairwise_map.mp
    rw [(map_placed definition).2]
    exact Layout.pairwise_place (solid definition.declarations)
  have inList : definition.listed.Pairwise fun first second =>
      first.2 < second.2 := by
    apply List.pairwise_map.mp
    rw [← describes, described_eq]
    apply Layout.pairwise_packed
    intro member mem
    obtain ⟨entry, _, rfl⟩ := List.mem_map.mp mem
    exact entry.1.solid
  have same : definition.listed = definition.placed :=
    List.Perm.eq_of_pairwise
      (fun _ _ _ _ before after => absurd before (Nat.lt_asymm after)) inList
      inMemory (List.perm_insertionSort _ _)
  have sorted := pairwise_sortBySize
    (definition.declarations.map fun declared => declared.found)
  rw [← listed_found, same, List.pairwise_map] at sorted
  rw [Descending, ← (map_placed definition).1, List.pairwise_map]
  exact sorted

/-- The members of an object lie where the list says. -/
theorem Describes.parts (describes : definition.Describes) (object : Bytes) :
    Layout.parts object (Layout.packed 0 definition.described)
        definition.described =
      definition.listed.map fun entry =>
        (object.drop entry.2).take entry.1.member.bytes := by
  rw [describes, described_eq, Layout.parts, List.zip_map', List.map_map]
  rfl

end StructDefinition

def ordered : Definition :=
  { myData1 with
    others := [debugArray, array, counter]
    plain := by
      simp only [List.forall_mem_cons]
      exact ⟨⟨by decide, by decide⟩, ⟨by decide, by decide⟩,
        ⟨by decide, by decide⟩, nofun⟩ }

end GenerateStructs

end UlogCpp
