import UlogCpp.Data.Map

namespace UlogCpp

/-! A part of a state that some of the steps change. -/

section Fold

variable {σ τ κ α : Type} {step : σ → κ → σ} {view : σ → τ}
  {pick : κ → Option α} {next : τ → α → τ} {invariant : σ → Prop}

theorem foldl_view
    (keeps : ∀ state key, invariant state → invariant (step state key))
    (others : ∀ state key, invariant state → pick key = none →
      view (step state key) = view state)
    (own : ∀ state key value, invariant state → pick key = some value →
      view (step state key) = next (view state) value)
    {state : σ} (holds : invariant state) (keys : List κ) :
    view (keys.foldl step state) =
      (keys.filterMap pick).foldl next (view state) := by
  induction keys generalizing state with
  | nil => rfl
  | cons key keys ih =>
      rw [List.foldl_cons, ih (keeps state key holds)]
      cases picked : pick key with
      | none => rw [others state key holds picked, List.filterMap_cons_none picked]
      | some value =>
          rw [own state key value holds picked, List.filterMap_cons_some picked,
            List.foldl_cons]

theorem foldl_concat (values list : List α) :
    values.foldl (fun list value => list ++ [value]) list = list ++ values := by
  induction values generalizing list with
  | nil => exact (List.append_nil list).symm
  | cons value values ih =>
      rw [List.foldl_cons, ih, List.append_assoc, List.singleton_append]

theorem foldl_last (values : List α) (value : α) :
    values.foldl (fun _ value => value) value =
      values.getLast?.getD value := by
  induction values generalizing value with
  | nil => rfl
  | cons head values ih =>
      rw [List.foldl_cons, ih, List.getLast?_cons]
      rfl

end Fold

namespace Map

variable {κ α : Type} [DecidableEq κ]

theorem lookup_foldl_insertNew (key : α → κ) (values : List α) (map : Map κ α)
    (other : κ) :
    (values.foldl (fun map value => map.insertNew (key value) value) map).lookup
        other =
      (map.lookup other).or (values.find? fun value => key value = other) := by
  induction values generalizing map with
  | nil => exact (Option.or_none).symm
  | cons value values ih =>
      rw [List.foldl_cons, ih, lookup_insertNew, Option.or_assoc,
        List.find?_cons]
      by_cases same : key value = other
      · simp [same]
      · simp [same, Ne.symm same]

end Map

end UlogCpp
