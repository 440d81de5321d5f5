import Mathlib.Algebra.GroupWithZero.Nat
import UlogCpp.Data.Iterate
import UlogCpp.Data.Run

namespace UlogCpp.Exec

variable {ε σ α : Type}

/-! Amortised costs. A step has a price, which it pays from a credit. What is
left of the credit when a loop ends is saved for the next call. -/

def cost (step : α → Exec ε σ (Option α)) (price : α → σ → Nat) :
    Nat → α → σ → Nat
  | 0, _, _ => 0
  | fuel + 1, point, state =>
      price point state +
        match step point state with
        | (.ok (some next), reached) => cost step price fuel next reached
        | _ => 0

def runCost (step : α → Exec ε σ (Option α)) (price measure : α → σ → Nat)
    (point : α) (state : σ) : Nat :=
  cost step price (measure point state + 1) point state

structure Pays (step : α → Exec ε σ (Option α)) (invariant : α → σ → Prop)
    (price credit : α → σ → Nat) (saved : σ → Nat) : Prop where
  moves : ∀ {point next state reached}, invariant point state →
    step point state = (.ok (some next), reached) →
      price point state + credit next reached ≤ credit point state
  ends : ∀ {point state outcome}, invariant point state →
    EndsAt step point state outcome →
      price point state + saved outcome.2 ≤ credit point state

section Loops

variable {step : α → Exec ε σ (Option α)} {invariant : α → σ → Prop}
  {measure price credit : α → σ → Nat} {saved : σ → Nat} {exhausted : ε}
  {point : α} {state : σ}

theorem cost_next {fuel : Nat} {next : α} {reached : σ}
    (moved : step point state = (.ok (some next), reached)) :
    cost step price (fuel + 1) point state =
      price point state + cost step price fuel next reached := by
  simp only [cost, moved]

theorem cost_end {fuel : Nat} {outcome : Except ε Unit × σ}
    (ends : EndsAt step point state outcome) :
    cost step price (fuel + 1) point state = price point state := by
  cases ends with
  | done returned => simp only [cost, returned, Nat.add_zero]
  | stop stopped => simp only [cost, stopped, Nat.add_zero]

theorem Variant.iterate_cost (variant : Variant step invariant measure)
    (pays : Pays step invariant price credit saved) {fuel : Nat}
    (holds : invariant point state) (enough : measure point state < fuel) :
    cost step price fuel point state +
        saved (iterate exhausted step fuel point state).2 ≤
      credit point state := by
  induction fuel generalizing point state with
  | zero => omega
  | succ fuel ih =>
      rcases ran : step point state with ⟨stop | _ | next, reached⟩
      · rw [cost_end (.stop ran), iterate_stop ran]
        exact pays.ends holds (.stop ran)
      · rw [cost_end (.done ran), iterate_done ran]
        exact pays.ends holds (.done ran)
      · have lower := variant.decreases holds ran
        have paid := pays.moves holds ran
        have later := ih (variant.keeps holds ran) (by omega)
        rw [cost_next ran, iterate_next ran]
        omega

/-- A loop costs what it takes off the credit, at most. -/
theorem Variant.runLoop_cost (variant : Variant step invariant measure)
    (pays : Pays step invariant price credit saved)
    (holds : invariant point state) :
    runCost step price measure point state +
        saved (runLoop exhausted step measure point state).2 ≤
      credit point state :=
  variant.iterate_cost pays holds (Nat.lt_succ_self _)

end Loops

section Calls

variable {κ : Type} {perform : κ → Exec ε σ α} {price : κ → σ → Nat}
  {invariant : σ → Prop} {income : κ → Nat} {saved : σ → Nat}

def totalCost (perform : κ → Exec ε σ α) (price : κ → σ → Nat) :
    List κ → σ → Nat
  | [], _ => 0
  | call :: calls, state =>
      price call state + totalCost perform price calls (perform call state).2

/-- If each call pays from what it brings and from what the calls before it
have saved, then all of them pay from what they bring. -/
theorem totalCost_le {calls : List κ}
    (pays : ∀ {state call}, invariant state →
      price call state + saved (perform call state).2 ≤
        saved state + income call)
    (kept : ∀ {state call}, invariant state → invariant (perform call state).2)
    {state : σ} (initial : invariant state) :
    totalCost perform price calls state + saved (final perform calls state) ≤
      saved state + (calls.map income).sum := by
  induction calls generalizing state with
  | nil =>
      simp only [totalCost, List.map_nil, List.sum_nil]
      exact Nat.le_of_eq (Nat.zero_add _)
  | cons call calls ih =>
      have here := @pays state call initial
      have later := ih (@kept state call initial)
      have ends : final perform (call :: calls) state =
          final perform calls (perform call state).2 := rfl
      simp only [totalCost, ends, List.map_cons, List.sum_cons]
      omega

end Calls

end UlogCpp.Exec
