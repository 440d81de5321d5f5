import UlogCpp.Data.Exec

namespace UlogCpp.Exec

/-! Programs that return from a state exactly under a condition. -/

variable {ε σ α β : Type} {condition further : Prop} {after middle : σ → Prop}
  {ran : Except ε α × σ}

def Decides (condition : Prop) (after : σ → Prop) (ran : Except ε α × σ) :
    Prop :=
  match ran with
  | (.ok _, reached) => condition ∧ after reached
  | (.error _, _) => ¬ condition

namespace Decides

theorem returns_iff (decides : Decides condition after ran) :
    (∃ value reached, ran = (.ok value, reached)) ↔ condition := by
  rcases ran with ⟨stop | value, reached⟩
  · refine iff_of_false ?_ decides
    rintro ⟨_, _, same⟩
    cases same
  · exact iff_of_true ⟨value, reached, rfl⟩ decides.1

theorem of_ok {value : α} {reached : σ} (decides : Decides condition after ran)
    (returned : ran = (.ok value, reached)) : condition ∧ after reached := by
  rw [returned] at decides
  exact decides

theorem of_error {stop : ε} {reached : σ}
    (decides : Decides condition after ran)
    (stopped : ran = (.error stop, reached)) : ¬ condition := by
  rw [stopped] at decides
  exact decides

theorem congr (decides : Decides condition after ran)
    (same : condition ↔ further) : Decides further after ran :=
  propext same ▸ decides

theorem weaken {later : σ → Prop} (decides : Decides condition after ran)
    (implies : ∀ reached, after reached → later reached) :
    Decides condition later ran := by
  rcases ran with ⟨stop | value, reached⟩
  · exact decides
  · exact ⟨decides.1, implies reached decides.2⟩

theorem map {outcome : Except ε α} {reached : σ}
    (decides : Decides condition after (outcome, reached)) (change : α → β) :
    Decides condition after (outcome.map change, reached) := by
  cases outcome <;> exact decides

theorem bind {program : Exec ε σ α} {next : α → Exec ε σ β} {state : σ}
    (first : Decides condition middle (program state))
    (second : ∀ value reached, middle reached →
      Decides further after (next value reached)) :
    Decides (condition ∧ further) after ((program >>= next) state) := by
  rw [bind_apply]
  rcases started : program state with ⟨stop | value, reached⟩
  · exact fun both => first.of_error started both.1
  · obtain ⟨holds, here⟩ := first.of_ok started
    exact (second value reached here).congr (and_iff_right holds).symm

theorem modify_bind {change : σ → σ} {next : Unit → Exec ε σ β} {state : σ}
    (later : Decides condition after (next () (change state))) :
    Decides condition after ((modify change >>= next) state) :=
  later

/-- The rule for loops whose rounds do not depend on each other. -/
theorem forM {invariant : σ → Prop} {accepts : α → Prop}
    {program : α → Exec ε σ Unit} {list : List α} {state : σ}
    (each : ∀ value ∈ list, ∀ state, invariant state →
      Decides (accepts value) invariant (program value state))
    (holds : invariant state) :
    Decides (∀ value ∈ list, accepts value) invariant
      (list.forM program state) := by
  induction list generalizing state with
  | nil => exact ⟨List.forall_mem_nil _, holds⟩
  | cons value list ih =>
      have first := each value List.mem_cons_self state holds
      have whole := first.bind fun _ reached kept =>
        @ih reached (fun other mem => each other (List.mem_cons_of_mem _ mem)) kept
      exact whole.congr List.forall_mem_cons.symm

end Decides

end UlogCpp.Exec
