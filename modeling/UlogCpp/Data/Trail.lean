import UlogCpp.Data.Iterate

namespace UlogCpp.Exec

/-! What can be seen of a loop while it runs. -/

variable {ε σ α β : Type}

/-- What is seen at the configurations that a loop comes to, in their order. -/
def trail (step : α → Exec ε σ (Option α)) (view : α → σ → List β) :
    Nat → α → σ → List β
  | 0, _, _ => []
  | fuel + 1, point, state =>
      view point state ++
        match step point state with
        | (.ok (some next), reached) => trail step view fuel next reached
        | _ => []

def seen (step : α → Exec ε σ (Option α)) (view : α → σ → List β)
    (measure : α → σ → Nat) (point : α) (state : σ) : List β :=
  trail step view (measure point state + 1) point state

variable {step : α → Exec ε σ (Option α)} {invariant : α → σ → Prop}
  {measure : α → σ → Nat} {exhausted : ε} {view : α → σ → List β}

theorem trail_next {fuel : Nat} {point next : α} {state reached : σ}
    (moved : step point state = (.ok (some next), reached)) :
    trail step view (fuel + 1) point state =
      view point state ++ trail step view fuel next reached := by
  rw [trail, moved]

theorem trail_last {fuel : Nat} {point : α} {state : σ}
    (ends : ∀ next reached, step point state ≠ (.ok (some next), reached)) :
    trail step view (fuel + 1) point state = view point state := by
  rw [trail]
  split
  next next reached moved => exact absurd moved (ends next reached)
  next => exact List.append_nil _

/-- The rule for loops that are watched: what holds at the end of a loop, and is
carried back over every step, holds of the whole loop. -/
theorem Variant.seen_rule
    {holds : α → σ → List β → Except ε Unit × σ → Prop}
    (variant : Variant step invariant measure)
    (done : ∀ {point state final}, invariant point state →
      step point state = (.ok none, final) →
      holds point state (view point state) (.ok (), final))
    (stop : ∀ {point state stop final}, invariant point state →
      step point state = (.error stop, final) →
      holds point state (view point state) (.error stop, final))
    (back : ∀ {point next state reached rest outcome}, invariant point state →
      step point state = (.ok (some next), reached) →
      holds next reached rest outcome →
      holds point state (view point state ++ rest) outcome)
    {point : α} {state : σ} (ready : invariant point state) :
    holds point state (seen step view measure point state)
      (runLoop exhausted step measure point state) := by
  have rule : ∀ fuel point state, invariant point state →
      measure point state < fuel →
      holds point state (trail step view fuel point state)
        (iterate exhausted step fuel point state) := by
    intro fuel
    induction fuel with
    | zero => omega
    | succ fuel ih =>
        intro point state ready enough
        rcases ran : step point state with ⟨failure | _ | next, reached⟩
        · rw [trail_last (by simp [ran]), iterate_stop ran]
          exact stop ready ran
        · rw [trail_last (by simp [ran]), iterate_done ran]
          exact done ready ran
        · have lower := variant.decreases ready ran
          rw [trail_next ran, iterate_next ran]
          exact back ready ran
            (ih next reached (variant.keeps ready ran) (by omega))
  exact rule _ point state ready (Nat.lt_succ_self _)

end UlogCpp.Exec
