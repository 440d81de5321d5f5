namespace UlogCpp

variable {α : Type} [DecidableEq α]

def splitFirst (separator : α) : List α → Option (List α × List α)
  | [] => none
  | head :: tail =>
      if head = separator then some ([], tail)
      else (splitFirst separator tail).map fun parts =>
        (head :: parts.1, parts.2)

theorem splitFirst_append {separator : α} {left : List α}
    (absent : separator ∉ left) (right : List α) :
    splitFirst separator (left ++ separator :: right) = some (left, right) := by
  induction left with
  | nil => simp [splitFirst]
  | cons head tail ih =>
      simp only [List.mem_cons, not_or] at absent
      simp [splitFirst, Ne.symm absent.1, ih absent.2]

theorem splitFirst_eq_some {separator : α} {list left right : List α} :
    splitFirst separator list = some (left, right) ↔
      list = left ++ separator :: right ∧ separator ∉ left := by
  constructor
  · intro split
    induction list generalizing left with
    | nil => cases split
    | cons head tail ih =>
        unfold splitFirst at split
        by_cases found : head = separator
        · rw [if_pos found] at split
          cases split
          simp [found]
        · rw [if_neg found] at split
          obtain ⟨⟨rest, _⟩, tailSplit, same⟩ := Option.map_eq_some_iff.mp split
          cases same
          obtain ⟨rfl, absent⟩ := ih tailSplit
          exact ⟨rfl, by simp [Ne.symm found, absent]⟩
  · rintro ⟨rfl, absent⟩
    exact splitFirst_append absent right

theorem splitFirst_ne_nil {separator : α} {list : List α}
    {parts : List α × List α} (split : splitFirst separator list = some parts) :
    list ≠ [] := by
  rintro rfl
  cases split

theorem splitFirst_length_lt {separator : α} {list left right : List α}
    (split : splitFirst separator list = some (left, right)) :
    right.length < list.length := by
  rw [(splitFirst_eq_some.mp split).1, List.length_append, List.length_cons]
  omega

theorem splitFirst_eq_none {separator : α} {list : List α} :
    splitFirst separator list = none ↔ separator ∉ list := by
  induction list with
  | nil => simp [splitFirst]
  | cons head tail ih =>
      by_cases found : head = separator
      · simp [splitFirst, found]
      · simp [splitFirst, found, ih, Ne.symm found]

def splitLast (separator : α) (list : List α) : Option (List α × List α) :=
  (splitFirst separator list.reverse).map fun parts =>
    (parts.2.reverse, parts.1.reverse)

theorem splitLast_append {separator : α} {right : List α}
    (absent : separator ∉ right) (left : List α) :
    splitLast separator (left ++ separator :: right) = some (left, right) := by
  have reversed : (left ++ separator :: right).reverse =
      right.reverse ++ separator :: left.reverse := by
    rw [List.reverse_append, List.reverse_cons, List.append_assoc]
    rfl
  have missing : separator ∉ right.reverse := mt List.mem_reverse.mp absent
  rw [splitLast, reversed, splitFirst_append missing, Option.map_some,
    List.reverse_reverse, List.reverse_reverse]

theorem splitLast_eq_none {separator : α} {list : List α} :
    splitLast separator list = none ↔ separator ∉ list := by
  rw [splitLast, Option.map_eq_none_iff, splitFirst_eq_none, List.mem_reverse]

theorem exists_splitLast {separator : α} {list : List α}
    (present : separator ∈ list) :
    ∃ left right, list = left ++ separator :: right ∧ separator ∉ right := by
  induction list with
  | nil => cases present
  | cons head tail ih =>
      by_cases later : separator ∈ tail
      · obtain ⟨left, right, rfl, absent⟩ := ih later
        exact ⟨head :: left, right, rfl, absent⟩
      · cases present with
        | head => exact ⟨[], tail, rfl, later⟩
        | tail _ found => exact absurd found later

end UlogCpp
