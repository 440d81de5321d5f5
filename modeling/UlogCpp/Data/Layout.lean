import Mathlib.Algebra.Order.Group.Nat
import Mathlib.Data.Nat.ModEq

namespace UlogCpp

/-! Struct layout with natural alignment: a member is placed at the next multiple
of the size of its elements. -/

namespace Layout

structure Member where
  size : Nat
  count : Nat
  positive : 0 < size

def Member.bytes (member : Member) : Nat := member.count * member.size

def alignUp (offset size : Nat) : Nat := (offset + (size - 1)) / size * size

def place : Nat → List Member → List Nat
  | _, [] => []
  | start, member :: members =>
      alignUp start member.size ::
        place (alignUp start member.size + member.bytes) members

def endOffset : Nat → List Member → Nat
  | start, [] => start
  | start, member :: members =>
      endOffset (alignUp start member.size + member.bytes) members

def Gapless : Nat → List Member → Prop
  | _, [] => True
  | start, member :: members =>
      alignUp start member.size = start ∧
        Gapless (alignUp start member.size + member.bytes) members

instance decidableGapless :
    (start : Nat) → (members : List Member) → Decidable (Gapless start members)
  | _, [] => .isTrue trivial
  | start, member :: members =>
      have := decidableGapless (alignUp start member.size + member.bytes) members
      inferInstanceAs (Decidable (_ ∧ _))

def packed : Nat → List Member → List Nat
  | _, [] => []
  | start, member :: members =>
      start :: packed (start + member.bytes) members

example : place 0 [⟨8, 1, by decide⟩, ⟨1, 3, by decide⟩, ⟨4, 1, by decide⟩] =
    [0, 8, 12] := by
  decide

def total (members : List Member) : Nat := (members.map Member.bytes).sum

def alignment (members : List Member) : Nat :=
  (members.map Member.size).foldr max 1

def structSize (members : List Member) : Nat :=
  alignUp (endOffset 0 members) (alignment members)

def contents {α : Type} (object : List α) (start : Nat) (members : List Member) :
    List α :=
  ((place start members).zip members).flatMap fun placed =>
    (object.drop placed.1).take placed.2.bytes

def parts {α : Type} (object : List α) (offsets : List Nat)
    (members : List Member) : List (List α) :=
  (offsets.zip members).map fun placed =>
    (object.drop placed.1).take placed.2.bytes

variable {offset size start : Nat} {member : Member} {members : List Member}

theorem le_alignUp (positive : 0 < size) : offset ≤ alignUp offset size := by
  have parts := Nat.div_add_mod' (offset + (size - 1)) size
  have small := Nat.mod_lt (offset + (size - 1)) positive
  rw [alignUp]
  omega

theorem alignUp_lt (positive : 0 < size) : alignUp offset size < offset + size := by
  have below := Nat.div_mul_le_self (offset + (size - 1)) size
  rw [alignUp]
  omega

theorem alignUp_eq_iff (positive : 0 < size) :
    alignUp offset size = offset ↔ offset % size = 0 := by
  constructor
  · intro same
    rw [← same, alignUp]
    exact Nat.mul_mod_left _ _
  · intro aligned
    obtain ⟨count, rfl⟩ := Nat.dvd_of_mod_eq_zero aligned
    rw [alignUp, Nat.mul_add_div positive, Nat.div_eq_of_lt (by omega),
      Nat.add_zero, Nat.mul_comm]

theorem total_cons : total (member :: members) = member.bytes + total members :=
  rfl

theorem Gapless.cons (aligned : start % member.size = 0)
    (later : Gapless (start + member.bytes) members) :
    Gapless start (member :: members) := by
  have here := (alignUp_eq_iff member.positive).mpr aligned
  rw [Gapless, here]
  exact ⟨rfl, later⟩

theorem Gapless.of_cons (gapless : Gapless start (member :: members)) :
    start % member.size = 0 ∧ Gapless (start + member.bytes) members := by
  obtain ⟨here, later⟩ := gapless
  rw [here] at later
  exact ⟨(alignUp_eq_iff member.positive).mp here, later⟩

theorem Gapless.place (gapless : Gapless start members) :
    place start members = packed start members := by
  induction members generalizing start with
  | nil => rfl
  | cons member members ih =>
      obtain ⟨here, later⟩ := gapless
      rw [Layout.place, packed, here]
      rw [here] at later
      rw [ih later]

theorem Gapless.endOffset (gapless : Gapless start members) :
    endOffset start members = start + total members := by
  induction members generalizing start with
  | nil => rfl
  | cons member members ih =>
      obtain ⟨here, later⟩ := gapless
      rw [Layout.endOffset, ih later, here, total_cons, Nat.add_assoc]

theorem alignment_pos (members : List Member) : 0 < alignment members := by
  induction members with
  | nil => exact Nat.one_pos
  | cons member members ih => exact lt_max_of_lt_right ih

theorem alignment_le {bound : Nat} (positive : 0 < bound)
    (bounded : ∀ member ∈ members, member.size ≤ bound) :
    alignment members ≤ bound := by
  induction members with
  | nil => exact positive
  | cons member members ih =>
      exact max_le (bounded member List.mem_cons_self)
        (ih fun other mem => bounded other (List.mem_cons_of_mem _ mem))

theorem endOffset_le_structSize (members : List Member) :
    Layout.endOffset 0 members ≤ structSize members :=
  le_alignUp (alignment_pos members)

theorem Gapless.contents {α : Type} (gapless : Gapless start members)
    (object : List α) :
    contents object start members =
      (object.drop start).take (total members) := by
  induction members generalizing start with
  | nil => rfl
  | cons member members ih =>
      obtain ⟨here, later⟩ := gapless
      rw [here] at later
      have rest := ih later
      rw [Layout.contents] at rest ⊢
      rw [Layout.place, here, List.zip_cons_cons, List.flatMap_cons, rest,
        total_cons, List.take_add, List.drop_drop]

/-- Members in an order of decreasing sizes, of which each divides the earlier
ones, leave no gaps. -/
theorem gapless_of_dvd (ordered : members.Pairwise fun earlier later =>
      later.size ∣ earlier.size)
    (aligned : ∀ member ∈ members, member.size ∣ start) :
    Gapless start members := by
  induction members generalizing start with
  | nil => trivial
  | cons member members ih =>
      obtain ⟨first, rest⟩ := List.pairwise_cons.mp ordered
      apply Gapless.cons
      · exact Nat.mod_eq_zero_of_dvd (aligned member List.mem_cons_self)
      · apply ih rest
        intro other mem
        apply Nat.dvd_add (aligned other (List.mem_cons_of_mem _ mem))
        exact Nat.dvd_mul_left_of_dvd (first other mem) _

/-! ## Offsets -/

@[simp] theorem length_place : (place start members).length = members.length := by
  induction members generalizing start with
  | nil => rfl
  | cons member members ih => exact congrArg (· + 1) ih

@[simp] theorem length_packed :
    (packed start members).length = members.length := by
  induction members generalizing start with
  | nil => rfl
  | cons member members ih => exact congrArg (· + 1) ih

theorem le_of_mem_place (mem : offset ∈ place start members) : start ≤ offset := by
  induction members generalizing start with
  | nil => cases mem
  | cons member members ih =>
      have aligned : start ≤ alignUp start member.size :=
        le_alignUp member.positive
      rcases List.mem_cons.mp mem with rfl | later
      · exact aligned
      · have after := ih later
        omega

theorem le_of_mem_packed (mem : offset ∈ packed start members) :
    start ≤ offset := by
  induction members generalizing start with
  | nil => cases mem
  | cons member members ih =>
      rcases List.mem_cons.mp mem with rfl | later
      · exact le_rfl
      · exact le_of_add_le_left (ih later)

theorem pairwise_place (solid : ∀ member ∈ members, 0 < member.bytes) :
    (place start members).Pairwise (· < ·) := by
  induction members generalizing start with
  | nil => exact List.Pairwise.nil
  | cons member members ih =>
      obtain ⟨here, others⟩ := List.forall_mem_cons.mp solid
      refine List.Pairwise.cons (fun offset mem => ?_) (ih others)
      have after := le_of_mem_place mem
      omega

theorem pairwise_packed (solid : ∀ member ∈ members, 0 < member.bytes) :
    (packed start members).Pairwise (· < ·) := by
  induction members generalizing start with
  | nil => exact List.Pairwise.nil
  | cons member members ih =>
      obtain ⟨here, others⟩ := List.forall_mem_cons.mp solid
      refine List.Pairwise.cons (fun offset mem => ?_) (ih others)
      have after := le_of_mem_packed mem
      omega

end Layout

end UlogCpp
