import UlogCpp.Data.Exec

namespace UlogCpp.Exec

variable {ε σ α : Type}

/-! Loops and tail calls over `Exec`. A step answers the point at which to go
on, or `none` when the loop returns. -/

def iterate (exhausted : ε) (step : α → Exec ε σ (Option α)) :
    Nat → α → Exec ε σ Unit
  | 0, _ => throw exhausted
  | fuel + 1, point => do
      match ← step point with
      | none => pure ()
      | some next => iterate exhausted step fuel next

inductive Reaches (step : α → Exec ε σ (Option α)) (start : α) (initial : σ) :
    α → σ → Prop
  | refl : Reaches step start initial start initial
  | tail {point next : α} {state reached : σ}
      (before : Reaches step start initial point state)
      (moved : step point state = (.ok (some next), reached)) :
      Reaches step start initial next reached

structure Variant (step : α → Exec ε σ (Option α))
    (invariant : α → σ → Prop) (measure : α → σ → Nat) : Prop where
  keeps : ∀ {point next state reached}, invariant point state →
    step point state = (.ok (some next), reached) → invariant next reached
  decreases : ∀ {point next state reached}, invariant point state →
    step point state = (.ok (some next), reached) →
      measure next reached < measure point state

variable {step : α → Exec ε σ (Option α)} {invariant : α → σ → Prop}
  {measure : α → σ → Nat} {exhausted : ε}

theorem iterate_next {fuel : Nat} {point next : α} {state reached : σ}
    (moved : step point state = (.ok (some next), reached)) :
    iterate exhausted step (fuel + 1) point state =
      iterate exhausted step fuel next reached := by
  simp only [iterate, bind_ok moved]

theorem iterate_done {fuel : Nat} {point : α} {state final : σ}
    (returned : step point state = (.ok none, final)) :
    iterate exhausted step (fuel + 1) point state = (.ok (), final) := by
  simp only [iterate, bind_ok returned, pure_apply]

theorem iterate_stop {fuel : Nat} {point : α} {state final : σ} {stop : ε}
    (stopped : step point state = (.error stop, final)) :
    iterate exhausted step (fuel + 1) point state = (.error stop, final) := by
  simp only [iterate, bind_error stopped]

namespace Reaches

variable {start : α} {initial : σ}

theorem trans {middle point : α} {between state : σ}
    (first : Reaches step start initial middle between)
    (second : Reaches step middle between point state) :
    Reaches step start initial point state := by
  induction second with
  | refl => exact first
  | tail _ moved ih => exact .tail ih moved

theorem head {next point : α} {reached state : σ}
    (moved : step start initial = (.ok (some next), reached))
    (rest : Reaches step next reached point state) :
    Reaches step start initial point state :=
  (Reaches.tail .refl moved).trans rest

theorem cases_head {point : α} {state : σ}
    (reaches : Reaches step start initial point state) :
    (point = start ∧ state = initial) ∨
      ∃ next reached, step start initial = (.ok (some next), reached) ∧
        Reaches step next reached point state := by
  induction reaches with
  | refl => exact .inl ⟨rfl, rfl⟩
  | tail before moved ih =>
      rcases ih with ⟨rfl, rfl⟩ | ⟨next, reached, first, rest⟩
      · exact .inr ⟨_, _, moved, .refl⟩
      · exact .inr ⟨next, reached, first, rest.tail moved⟩

theorem keeps (variant : Variant step invariant measure)
    (holds : invariant start initial) {point : α} {state : σ}
    (reaches : Reaches step start initial point state) :
    invariant point state := by
  induction reaches with
  | refl => exact holds
  | tail _ moved ih => exact variant.keeps ih moved

theorem measure_le (variant : Variant step invariant measure)
    (holds : invariant start initial) {point : α} {state : σ}
    (reaches : Reaches step start initial point state) :
    measure point state ≤ measure start initial := by
  induction reaches with
  | refl => exact Nat.le_refl _
  | tail before moved ih =>
      have lower := variant.decreases (before.keeps variant holds) moved
      exact Nat.le_trans (Nat.le_of_lt lower) ih

end Reaches

/-- A loop with a variant never comes back to a configuration it has left. -/
theorem Variant.never_returns (variant : Variant step invariant measure)
    {point next : α} {state reached : σ} (holds : invariant point state)
    (moved : step point state = (.ok (some next), reached)) :
    ¬ Reaches step next reached point state := by
  intro back
  have lower := variant.decreases holds moved
  have bounded := back.measure_le variant (variant.keeps holds moved)
  omega

inductive EndsAt (step : α → Exec ε σ (Option α)) (point : α) (state : σ) :
    Except ε Unit × σ → Prop
  | done {final : σ} (returned : step point state = (.ok none, final)) :
      EndsAt step point state (.ok (), final)
  | stop {stop : ε} {final : σ}
      (stopped : step point state = (.error stop, final)) :
      EndsAt step point state (.error stop, final)

/-- Fuel above the measure is enough: the loop ends at a configuration that it
reaches, and the fuel is not what ended it. -/
theorem Variant.iterate_ends (variant : Variant step invariant measure)
    {fuel : Nat} {point : α} {state : σ} (holds : invariant point state)
    (enough : measure point state < fuel) :
    ∃ last reached, Reaches step point state last reached ∧
      EndsAt step last reached (iterate exhausted step fuel point state) := by
  induction fuel generalizing point state with
  | zero => omega
  | succ fuel ih =>
      rcases ran : step point state with ⟨stop | _ | next, reached⟩
      · rw [iterate_stop ran]
        exact ⟨point, state, .refl, .stop ran⟩
      · rw [iterate_done ran]
        exact ⟨point, state, .refl, .done ran⟩
      · have lower := variant.decreases holds ran
        obtain ⟨last, final, reaches, ends⟩ :=
          ih (variant.keeps holds ran) (by omega)
        rw [iterate_next ran]
        exact ⟨last, final, reaches.head ran, ends⟩

theorem Variant.iterate_fuel (variant : Variant step invariant measure)
    {fuel more : Nat} {point : α} {state : σ} (holds : invariant point state)
    (enough : measure point state < fuel)
    (enough' : measure point state < more) :
    iterate exhausted step fuel point state =
      iterate exhausted step more point state := by
  induction fuel generalizing more point state with
  | zero => omega
  | succ fuel ih =>
      obtain ⟨more, rfl⟩ : ∃ less, more = less + 1 := ⟨more - 1, by omega⟩
      rcases ran : step point state with ⟨stop | _ | next, reached⟩
      · rw [iterate_stop ran, iterate_stop ran]
      · rw [iterate_done ran, iterate_done ran]
      · have lower := variant.decreases holds ran
        rw [iterate_next ran, iterate_next ran]
        exact ih (variant.keeps holds ran) (by omega) (by omega)

/-- Run a loop with the fuel that its measure asks for. -/
def runLoop (exhausted : ε) (step : α → Exec ε σ (Option α))
    (measure : α → σ → Nat) (point : α) : Exec ε σ Unit := fun state =>
  iterate exhausted step (measure point state + 1) point state

namespace Variant

variable {point next : α} {state reached final : σ}

theorem runLoop_next (variant : Variant step invariant measure)
    (holds : invariant point state)
    (moved : step point state = (.ok (some next), reached)) :
    runLoop exhausted step measure point state =
      runLoop exhausted step measure next reached := by
  have lower := variant.decreases holds moved
  unfold runLoop
  rw [iterate_next moved]
  exact variant.iterate_fuel (variant.keeps holds moved) lower
    (Nat.lt_succ_self _)

theorem runLoop_ends (variant : Variant step invariant measure)
    (holds : invariant point state) :
    ∃ last reached, Reaches step point state last reached ∧
      EndsAt step last reached
        (runLoop exhausted step measure point state) :=
  variant.iterate_ends holds (Nat.lt_succ_self _)

theorem runLoop_reaches (variant : Variant step invariant measure)
    (holds : invariant point state) {last : α}
    (reaches : Reaches step point state last reached) :
    runLoop exhausted step measure point state =
      runLoop exhausted step measure last reached := by
  induction reaches with
  | refl => rfl
  | tail before moved ih =>
      exact ih.trans (variant.runLoop_next (before.keeps variant holds) moved)

end Variant

theorem runLoop_done {point : α} {state final : σ}
    (returned : step point state = (.ok none, final)) :
    runLoop exhausted step measure point state = (.ok (), final) :=
  iterate_done returned

theorem runLoop_stop {point : α} {state final : σ} {stop : ε}
    (stopped : step point state = (.error stop, final)) :
    runLoop exhausted step measure point state = (.error stop, final) :=
  iterate_stop stopped

/-- The rule for loops: an assertion that every step carries from point to
point holds when the loop ends. -/
theorem Triple.iterate {assertion : α → σ → Prop} {after : σ → Prop}
    {stopped : ε → σ → Prop}
    (carried : ∀ point, Triple (assertion point) (step point)
      (fun answer state => match answer with
        | none => after state
        | some next => assertion next state) stopped)
    (outOfFuel : ∀ point state, assertion point state →
      stopped exhausted state)
    (fuel : Nat) (point : α) :
    Triple (assertion point) (iterate exhausted step fuel point)
      (fun _ => after) stopped := by
  induction fuel generalizing point with
  | zero => exact outOfFuel point
  | succ fuel ih =>
      refine Triple.bind (carried point) ?_
      intro answer
      cases answer with
      | none => exact fun _ holds => holds
      | some next => exact ih next

end UlogCpp.Exec
