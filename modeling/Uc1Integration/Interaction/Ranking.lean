import Mathlib.Data.List.Basic

/-!
# Ranks

A goal is met after enough of the actions that count, whatever other actions fall
between them, when each of these brings a rank down.
-/

set_option autoImplicit false

namespace Uc1Integration.Interaction

variable {State Action : Type} {step : State → Action → State} {counts : Action → Bool}
  {holds goal : State → Prop} {rank : State → Nat}

/-- Until the goal is met an action that counts brings the rank down, and no other raises it. -/
structure Ranked (step : State → Action → State) (counts : Action → Bool)
    (holds goal : State → Prop) (rank : State → Nat) : Prop where
  kept {state : State} (action : Action) : holds state → holds (step state action)
  stays {state : State} (action : Action) : holds state → goal state → goal (step state action)
  spent {state : State} : holds state → rank state = 0 → goal state
  descends {state : State} {action : Action} : holds state → ¬ goal state →
    counts action = true → rank (step state action) < rank state
  others {state : State} {action : Action} : holds state → counts action = false →
    rank (step state action) ≤ rank state

theorem Ranked.stays_run (ranked : Ranked step counts holds goal rank) {state : State}
    (here : holds state) (met : goal state) (actions : List Action) :
    goal (actions.foldl step state) := by
  induction actions generalizing state with
  | nil => exact met
  | cons action actions ih => exact ih (ranked.kept action here) (ranked.stays action here met)

theorem Ranked.met (ranked : Ranked step counts holds goal rank) {state : State}
    (here : holds state) {actions : List Action} (enough : rank state ≤ actions.countP counts) :
    goal (actions.foldl step state) := by
  induction actions generalizing state with
  | nil => exact ranked.spent here (Nat.le_zero.mp enough)
  | cons action actions ih =>
      by_cases before : goal state
      · exact ranked.stays_run here before (action :: actions)
      · apply ih (ranked.kept action here)
        cases counted : counts action with
        | true =>
            rw [List.countP_cons_of_pos counted] at enough
            have down := ranked.descends here before counted
            omega
        | false =>
            rw [List.countP_cons_of_neg (by simp [counted])] at enough
            exact Nat.le_trans (ranked.others here counted) enough

end Uc1Integration.Interaction
