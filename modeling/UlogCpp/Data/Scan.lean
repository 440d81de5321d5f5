namespace UlogCpp

/-! Search for the earliest position of a sequence at which a test of bounded
lookahead succeeds. -/

variable {α : Type}

def firstFrom (here : List α → Bool) : List α → Option (List α)
  | [] => none
  | head :: tail =>
      if here (head :: tail) then some (head :: tail) else firstFrom here tail

structure Lookahead (width : Nat) (here : List α → Bool) : Prop where
  positive : 0 < width
  needs : ∀ {list}, here list = true → width ≤ list.length
  stable : ∀ {list} (more : List α), width ≤ list.length →
    here (list ++ more) = here list

variable {here : List α → Bool} {width : Nat}

theorem firstFrom_head {list : List α} (positive : list ≠ [])
    (holds : here list = true) : firstFrom here list = some list := by
  cases list with
  | nil => exact absurd rfl positive
  | cons head tail => simp only [firstFrom, holds, if_true]

theorem firstFrom_tail {head : α} {tail : List α}
    (fails : here (head :: tail) = false) :
    firstFrom here (head :: tail) = firstFrom here tail := by
  simp only [firstFrom, fails, Bool.false_eq_true, if_false]

theorem firstFrom_holds {list found : List α}
    (search : firstFrom here list = some found) : here found = true := by
  induction list with
  | nil => cases search
  | cons head tail ih =>
      cases test : here (head :: tail) with
      | true =>
          rw [firstFrom_head (by simp) test] at search
          cases search
          exact test
      | false =>
          rw [firstFrom_tail test] at search
          exact ih search

theorem firstFrom_position {list found : List α}
    (search : firstFrom here list = some found) :
    ∃ position, found = list.drop position ∧
      ∀ earlier < position, here (list.drop earlier) = false := by
  induction list with
  | nil => cases search
  | cons head tail ih =>
      cases test : here (head :: tail) with
      | true =>
          rw [firstFrom_head (List.cons_ne_nil _ _) test] at search
          cases search
          exact ⟨0, rfl, nofun⟩
      | false =>
          rw [firstFrom_tail test] at search
          obtain ⟨position, rfl, least⟩ := ih search
          refine ⟨position + 1, rfl, fun earlier below => ?_⟩
          cases earlier with
          | zero => exact test
          | succ earlier => exact least earlier (Nat.lt_of_succ_lt_succ below)

theorem firstFrom_suffix {list found : List α}
    (search : firstFrom here list = some found) : found <:+ list := by
  induction list with
  | nil => cases search
  | cons head tail ih =>
      cases test : here (head :: tail) with
      | true =>
          rw [firstFrom_head (by simp) test] at search
          cases search
          exact List.suffix_refl _
      | false =>
          rw [firstFrom_tail test] at search
          exact (ih search).trans (List.suffix_cons _ _)

theorem firstFrom_drop {list : List α} {count : Nat}
    (fails : ∀ skipped, skipped < count → here (list.drop skipped) = false) :
    firstFrom here list = firstFrom here (list.drop count) := by
  induction count generalizing list with
  | zero => rfl
  | succ count ih =>
      cases list with
      | nil => rfl
      | cons head tail =>
          have first : here (head :: tail) = false := fails 0 (by omega)
          rw [firstFrom_tail first, List.drop_succ_cons]
          exact ih fun skipped below => by
            simpa using fails (skipped + 1) (by omega)

theorem firstFrom_eq_none {list : List α}
    (fails : ∀ skipped, skipped < list.length →
      here (list.drop skipped) = false) : firstFrom here list = none := by
  rw [firstFrom_drop fails, List.drop_length]
  rfl

theorem firstFrom_none_drop {list : List α} (empty : here [] = false)
    (search : firstFrom here list = none) (skipped : Nat) :
    here (list.drop skipped) = false := by
  induction list generalizing skipped with
  | nil => simpa using empty
  | cons head tail ih =>
      cases test : here (head :: tail) with
      | true =>
          rw [firstFrom_head (by simp) test] at search
          cases search
      | false =>
          rw [firstFrom_tail test] at search
          cases skipped with
          | zero => exact test
          | succ skipped => exact ih search skipped

namespace Lookahead

theorem empty (bounded : Lookahead width here) : here [] = false := by
  cases test : here ([] : List α) with
  | false => rfl
  | true =>
      have long := bounded.needs test
      have positive := bounded.positive
      simp only [List.length_nil] at long
      omega

theorem short (bounded : Lookahead width here) {list : List α}
    (few : list.length < width) : here list = false := by
  cases test : here list with
  | false => rfl
  | true =>
      have long := bounded.needs test
      omega

/-- What has been found stays the earliest position when more input comes. -/
theorem firstFrom_append_some (bounded : Lookahead width here)
    {list found : List α} (search : firstFrom here list = some found)
    (more : List α) :
    firstFrom here (list ++ more) = some (found ++ more) := by
  induction list with
  | nil => cases search
  | cons head tail ih =>
      cases test : here (head :: tail) with
      | true =>
          rw [firstFrom_head (by simp) test] at search
          cases search
          exact firstFrom_head (by simp)
            ((bounded.stable more (bounded.needs test)).trans test)
      | false =>
          rw [firstFrom_tail test] at search
          have long : width ≤ (head :: tail).length := by
            have holds := bounded.needs (firstFrom_holds search)
            have within := (firstFrom_suffix search).length_le
            simp only [List.length_cons]
            omega
          have fails : here (head :: (tail ++ more)) = false :=
            (bounded.stable more long).trans test
          rw [List.cons_append, firstFrom_tail fails]
          exact ih search

/-- After a search that found nothing only the last `width - 1` elements can
be part of a position that is still to be found. -/
theorem firstFrom_append_none (bounded : Lookahead width here)
    {list : List α} (search : firstFrom here list = none) (more : List α) :
    firstFrom here (list ++ more) =
      firstFrom here (list.drop (list.length - (width - 1)) ++ more) := by
  have positive := bounded.positive
  have dropped : list.drop (list.length - (width - 1)) ++ more =
      (list ++ more).drop (list.length - (width - 1)) := by
    rw [List.drop_append_of_le_length (by omega)]
  rw [dropped]
  refine firstFrom_drop fun skipped below => ?_
  rw [List.drop_append_of_le_length (by omega),
    bounded.stable more (by rw [List.length_drop]; omega)]
  exact firstFrom_none_drop bounded.empty search skipped

/-- What more input lets a search find reaches into that input. -/
theorem found_late (bounded : Lookahead width here) {list more found : List α}
    (nothing : firstFrom here list = none)
    (search : firstFrom here (list ++ more) = some found) :
    found.length < more.length + width := by
  have positive := bounded.positive
  rw [bounded.firstFrom_append_none nothing] at search
  have within := (firstFrom_suffix search).length_le
  rw [List.length_append, List.length_drop] at within
  omega

end Lookahead

end UlogCpp
