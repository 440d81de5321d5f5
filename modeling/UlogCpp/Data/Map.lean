import Mathlib.Data.Finmap

namespace UlogCpp

/-- The content of a `std::map` or a `std::unordered_map`. -/
abbrev Map (κ α : Type) := Finmap fun _ : κ => α

namespace Map

variable {κ α : Type} [DecidableEq κ]

/-- `insert`: a key that is there already keeps its value. -/
def insertNew (key : κ) (value : α) (map : Map κ α) : Map κ α :=
  if key ∈ map then map else map.insert key value

/-- Assign through `operator[]`, which creates the entry of a new key. -/
def update (key : κ) (fresh : α) (change : α → α) (map : Map κ α) : Map κ α :=
  map.insert key (change ((map.lookup key).getD fresh))

variable {map : Map κ α} {key other : κ} {value : α}

theorem lookup_insert_eq (key other : κ) (value : α) (map : Map κ α) :
    (map.insert key value).lookup other =
      if other = key then some value else map.lookup other := by
  by_cases same : other = key
  · rw [if_pos same, same, Finmap.lookup_insert]
  · rw [if_neg same, Finmap.lookup_insert_of_ne _ same]

theorem lookup_insertNew (key other : κ) (value : α) (map : Map κ α) :
    (map.insertNew key value).lookup other =
      (map.lookup other).or (if other = key then some value else none) := by
  unfold insertNew
  by_cases present : key ∈ map
  · rw [if_pos present]
    by_cases same : other = key
    · obtain ⟨held, found⟩ :=
        Option.isSome_iff_exists.mp (Finmap.lookup_isSome.mpr present)
      rw [same, found, Option.some_or]
    · rw [if_neg same, Option.or_none]
  · rw [if_neg present, lookup_insert_eq]
    by_cases same : other = key
    · have absent : map.lookup other = none := by
        rw [same, Finmap.lookup_eq_none.mpr present]
      rw [if_pos same, absent, Option.none_or, if_pos same]
    · rw [if_neg same, if_neg same, Option.or_none]

theorem lookup_concat [BEq κ] [LawfulBEq κ] (key other : κ) (value : α)
    (list : List (κ × α)) :
    (list ++ [(key, value)]).lookup other =
      (list.lookup other).or (if other = key then some value else none) := by
  rw [List.lookup_append, List.lookup_cons, List.lookup_nil]
  by_cases same : other = key
  · rw [if_pos same, beq_iff_eq.mpr same]
  · rw [if_neg same, beq_eq_false_iff_ne.mpr same]

end Map

end UlogCpp
