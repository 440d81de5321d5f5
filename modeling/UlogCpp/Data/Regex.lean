namespace UlogCpp

/-! Regular expressions with greedy operators, as a backtracking matcher takes
them: of all ways to match, it takes the first in an order of preference. -/

inductive Regex (α : Type) where
  | one (accepts : α → Bool)
  | many (least : Nat) (accepts : α → Bool)
  | group (inner : Regex α)
  | optional (inner : Regex α)
  | seq (first second : Regex α)

namespace Regex

variable {α : Type}

structure Match (α : Type) where
  groups : List (List α)
  text : List α
  rest : List α

def groupCount : Regex α → Nat
  | one _ | many _ _ => 0
  | group inner => inner.groupCount + 1
  | optional inner => inner.groupCount
  | seq first second => first.groupCount + second.groupCount

/-- All ways to match, the preferred ones first. A group that does not take part
has the empty text. -/
def paths : Regex α → List α → List (Match α)
  | one _, [] => []
  | one accepts, head :: rest =>
      if accepts head then [⟨[], [head], rest⟩] else []
  | many least accepts, input =>
      let longest := (input.takeWhile accepts).length
      (((List.range (longest + 1)).reverse.filter fun count => least ≤ count)).map
        fun count => ⟨[], input.take count, input.drop count⟩
  | group inner, input =>
      (inner.paths input).map fun found =>
        { found with groups := found.text :: found.groups }
  | optional inner, input =>
      inner.paths input ++ [⟨.replicate inner.groupCount [], [], input⟩]
  | seq first second, input =>
      (first.paths input).flatMap fun found =>
        (second.paths found.rest).map fun next =>
          ⟨found.groups ++ next.groups, found.text ++ next.text, next.rest⟩

def find (regex : Regex α) (input : List α) : Option (Match α) :=
  (regex.paths input).head?

/-- `findall`, for an expression that does not match the empty text: the groups
of each match, from left to right. -/
def findAll (regex : Regex α) : Nat → List α → List (List (List α))
  | 0, _ | _ + 1, [] => []
  | rounds + 1, head :: input =>
      match regex.find (head :: input) with
      | some found => found.groups :: findAll regex rounds found.rest
      | none => findAll regex rounds input

/-! ## Rules -/

section Rules

variable {accepts : α → Bool} {least : Nat} {input word rest : List α}
  {inner first second regex : Regex α} {found next : Match α}

theorem one_paths {head : α} :
    (one accepts).paths (head :: rest) =
      if accepts head then [⟨[], [head], rest⟩] else [] := rfl

theorem many_paths :
    (many least accepts).paths input =
      ((List.range ((input.takeWhile accepts).length + 1)).reverse.filter
        fun count => least ≤ count).map
          fun count => ⟨[], input.take count, input.drop count⟩ := rfl

theorem group_paths :
    (group inner).paths input = (inner.paths input).map
      fun found => { found with groups := found.text :: found.groups } := rfl

theorem optional_paths :
    (optional inner).paths input = inner.paths input ++
      [⟨.replicate inner.groupCount [], [], input⟩] := rfl

theorem seq_paths :
    (seq first second).paths input = (first.paths input).flatMap
      fun found => (second.paths found.rest).map fun next =>
        ⟨found.groups ++ next.groups, found.text ++ next.text, next.rest⟩ := rfl

theorem find_eq : regex.find input = (regex.paths input).head? := rfl

theorem find_one {head : α} (accepted : accepts head = true) :
    (one accepts).find (head :: rest) = some ⟨[], [head], rest⟩ := by
  rw [find_eq, one_paths, if_pos accepted]
  rfl

theorem paths_one {input : List α}
    (other : ∀ head, input.head? = some head → accepts head = false) :
    (one accepts).paths input = [] := by
  cases input with
  | nil => rfl
  | cons head rest =>
      rw [one_paths, if_neg]
      rw [other head rfl]
      exact Bool.false_ne_true

theorem find_many (long : least ≤ word.length)
    (accepted : ∀ value ∈ word, accepts value = true)
    (ends : ∀ head, rest.head? = some head → accepts head = false) :
    (many least accepts).find (word ++ rest) = some ⟨[], word, rest⟩ := by
  have longest : (word ++ rest).takeWhile accepts = word := by
    rw [List.takeWhile_append_of_pos accepted]
    cases rest with
    | nil => exact List.append_nil word
    | cons head rest =>
        rw [List.takeWhile_cons_of_neg (by simp [ends head rfl]),
          List.append_nil]
  rw [find_eq, many_paths, longest, List.range_succ, List.reverse_append,
    List.reverse_singleton, List.singleton_append,
    List.filter_cons_of_pos (by simpa using long), List.map_cons, List.head?_cons,
    List.take_left, List.drop_left]

theorem paths_many (positive : 0 < least)
    (other : ∀ head, input.head? = some head → accepts head = false) :
    (many least accepts).paths input = [] := by
  have none : input.takeWhile accepts = [] := by
    cases input with
    | nil => rfl
    | cons head rest =>
        exact List.takeWhile_cons_of_neg (by simp [other head rfl])
  rw [many_paths, none, List.length_nil]
  simp only [List.map_eq_nil_iff, List.filter_eq_nil_iff]
  intro count mem
  have zero : count = 0 := by simpa using mem
  simpa [zero] using Nat.pos_iff_ne_zero.mp positive

theorem find_group (inside : inner.find input = some found) :
    (group inner).find input =
      some { found with groups := found.text :: found.groups } := by
  rw [find_eq] at inside
  rw [find_eq, group_paths, List.head?_map, inside]
  rfl

theorem find_optional (inside : inner.find input = some found) :
    (optional inner).find input = some found := by
  rw [find_eq] at inside
  rw [find_eq, optional_paths, List.head?_append, inside]
  rfl

theorem find_optional_skip (outside : inner.paths input = []) :
    (optional inner).find input =
      some ⟨.replicate inner.groupCount [], [], input⟩ := by
  rw [find_eq, optional_paths, outside]
  rfl

/-- The first way to match the first part is taken where the second part can
follow. -/
theorem find_seq (here : first.find input = some found)
    (there : second.find found.rest = some next) :
    (seq first second).find input =
      some ⟨found.groups ++ next.groups, found.text ++ next.text, next.rest⟩ := by
  obtain ⟨others, shape⟩ := List.head?_eq_some_iff.mp here
  obtain ⟨rest, later⟩ := List.head?_eq_some_iff.mp there
  rw [find_eq, seq_paths, shape, List.flatMap_cons, later]
  rfl

theorem paths_seq (none : first.paths input = []) :
    (seq first second).paths input = [] := by
  rw [seq_paths, none]
  rfl

theorem paths_group (none : inner.paths input = []) :
    (group inner).paths input = [] := by
  rw [group_paths, none]
  rfl

theorem findAll_skip {rounds : Nat} {head : α}
    (none : regex.paths (head :: input) = []) :
    regex.findAll (rounds + 1) (head :: input) = regex.findAll rounds input := by
  rw [findAll, find_eq, none]
  rfl

theorem findAll_found {rounds : Nat} (nonempty : input ≠ [])
    (here : regex.find input = some found) :
    regex.findAll (rounds + 1) input =
      found.groups :: regex.findAll rounds found.rest := by
  cases input with
  | nil => exact absurd rfl nonempty
  | cons head input => rw [findAll, here]

end Rules

end Regex

end UlogCpp
