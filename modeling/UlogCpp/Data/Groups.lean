namespace UlogCpp

/-! Items that come one after the other and fall into groups. -/

section Grouped

variable {α : Type} {opens : α → Prop} {groups : List (List α)} {items : List α}

inductive Grouped (opens : α → Prop) : List (List α) → List α → Prop
  | nil : Grouped opens [] []
  | first {groups : List (List α)} {items : List α} {item : α}
      (before : Grouped opens groups items) (new : opens item) :
      Grouped opens (groups ++ [[item]]) (items ++ [item])
  | join {groups : List (List α)} {last items : List α} {item : α}
      (before : Grouped opens (groups ++ [last]) items) (more : ¬ opens item) :
      Grouped opens (groups ++ [last ++ [item]]) (items ++ [item])

def Opened (opens : α → Prop) (group : List α) : Prop :=
  ∃ first rest, group = first :: rest ∧ opens first ∧
    ∀ item ∈ rest, ¬ opens item

theorem modify_concat (groups : List α) (last : α) (change : α → α) :
    (groups ++ [last]).modify groups.length change =
      groups ++ [change last] := by
  induction groups with
  | nil => rfl
  | cons group groups ih => exact congrArg (group :: ·) ih

namespace Grouped

theorem flatten (grouped : Grouped opens groups items) :
    groups.flatten = items := by
  induction grouped with
  | nil => rfl
  | first _ _ ih => rw [List.flatten_append, ih, List.flatten_singleton]
  | join _ _ ih =>
      rw [List.flatten_append, List.flatten_singleton] at ih ⊢
      rw [← List.append_assoc, ih]

theorem opened (grouped : Grouped opens groups items) :
    ∀ group ∈ groups, Opened opens group := by
  induction grouped with
  | nil => exact List.forall_mem_nil _
  | first _ new ih =>
      refine List.forall_mem_append.mpr ⟨ih, List.forall_mem_singleton.mpr ?_⟩
      exact ⟨_, [], rfl, new, List.forall_mem_nil _⟩
  | join _ more ih =>
      obtain ⟨earlier, here⟩ := List.forall_mem_append.mp ih
      obtain ⟨first, rest, same, new, later⟩ := List.forall_mem_singleton.mp here
      refine List.forall_mem_append.mpr
        ⟨earlier, List.forall_mem_singleton.mpr ?_⟩
      refine ⟨first, rest ++ [_], congrArg (· ++ [_]) same, new, ?_⟩
      exact List.forall_mem_append.mpr
        ⟨later, List.forall_mem_singleton.mpr more⟩

theorem length [DecidablePred opens] (grouped : Grouped opens groups items) :
    groups.length = (items.filter fun item => opens item).length := by
  induction grouped with
  | nil => rfl
  | first _ new ih =>
      rw [List.length_append, ih, List.filter_append, List.length_append,
        List.filter_cons_of_pos (by simpa using new)]
      rfl
  | join _ more ih =>
      rw [List.length_append] at ih ⊢
      rw [List.filter_append, List.filter_cons_of_neg (by simpa using more),
        List.filter_nil, List.append_nil]
      exact ih

end Grouped

end Grouped

end UlogCpp
