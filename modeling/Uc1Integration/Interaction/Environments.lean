import Mathlib.Order.WellFounded
import Uc1Integration.Interaction.Runs

/-!
# Programs in an environment

An environment has a state and answers every call from it. A program has one run
in an environment: it can be as long as one likes, unless the program returns.
-/

set_option autoImplicit false

namespace Uc1Integration.Interaction.Program

variable {E : Type} {R : E → Type} {α β σ τ : Type}

/-- A run whose answers are those of the environment. -/
inductive Plays (answer : σ → (operation : E) → R operation × σ) :
    σ → Program E R α → List (Event E R) → Program E R α → σ → Prop where
  | stop (state : σ) (program : Program E R α) : Plays answer state program [] program state
  | call {state state' : σ} {program final : Program E R α} {operation : E}
      {resume : R operation → Program E R α} {events : List (Event E R)} :
      program.view = .call operation resume →
      Plays answer (answer state operation).2 (resume (answer state operation).1) events final
        state' →
      Plays answer state program (⟨operation, (answer state operation).1⟩ :: events) final state'

section

variable {answer : σ → (operation : E) → R operation × σ}

theorem Plays.runs {state state' : σ} {program final : Program E R α} {events : List (Event E R)}
    (plays : Plays answer state program events final state') : Runs program events final := by
  induction plays with
  | stop => exact .stop _
  | call calls _ ih => exact .call _ calls ih

theorem Plays.append {state middle state' : σ} {program between final : Program E R α}
    {first second : List (Event E R)} (one : Plays answer state program first between middle)
    (two : Plays answer middle between second final state') :
    Plays answer state program (first ++ second) final state' := by
  induction one with
  | stop => exact two
  | call calls _ ih => exact .call calls (ih two)

theorem Plays.bind {state state' : σ} {program final : Program E R α} {events : List (Event E R)}
    (plays : Plays answer state program events final state')
    (continuation : α → Program E R β) :
    Plays answer state (program.bind continuation) events (final.bind continuation) state' := by
  induction plays with
  | stop => exact .stop _ _
  | call calls _ ih => exact .call (view_bind_call continuation calls) ih

/-- Of two runs the longer one goes on where the other one stops. -/
theorem Plays.split {state state₁ state₂ : σ} {program final₁ final₂ : Program E R α}
    {first second : List (Event E R)} (one : Plays answer state program first final₁ state₁)
    (two : Plays answer state program second final₂ state₂)
    (longer : first.length ≤ second.length) :
    ∃ rest, second = first ++ rest ∧ Plays answer state₁ final₁ rest final₂ state₂ := by
  induction one generalizing second with
  | stop => exact ⟨second, rfl, two⟩
  | call calls _ ih =>
      cases two with
      | stop => exact absurd longer (by simp)
      | call sameCall onward =>
          rw [calls] at sameCall
          cases sameCall
          obtain ⟨rest, rfl, later⟩ := ih onward (Nat.le_of_succ_le_succ longer)
          exact ⟨rest, rfl, later⟩

theorem Plays.of_done {state state' : σ} {value : α} {final : Program E R α}
    {events : List (Event E R)} (plays : Plays answer state (.done value) events final state') :
    events = [] ∧ final = .done value ∧ state' = state := by
  cases plays with
  | stop => exact ⟨rfl, rfl, rfl⟩
  | call calls => cases calls

/-- A program returns one value only, after one run. -/
theorem Plays.unique {state state₁ state₂ : σ} {program : Program E R α} {value₁ value₂ : α}
    {first second : List (Event E R)}
    (one : Plays answer state program first (.done value₁) state₁)
    (two : Plays answer state program second (.done value₂) state₂) :
    first = second ∧ value₁ = value₂ ∧ state₁ = state₂ := by
  cases Nat.le_total first.length second.length with
  | inl longer =>
      obtain ⟨rest, rfl, later⟩ := one.split two longer
      obtain ⟨rfl, same, rfl⟩ := later.of_done
      cases same
      exact ⟨(List.append_nil _).symm, rfl, rfl⟩
  | inr longer =>
      obtain ⟨rest, rfl, later⟩ := two.split one longer
      obtain ⟨rfl, same, rfl⟩ := later.of_done
      cases same
      exact ⟨List.append_nil _, rfl, rfl⟩

/-- The run is as long as one likes, or the program has returned. -/
theorem exists_plays (answer : σ → (operation : E) → R operation × σ) (steps : Nat) (state : σ)
    (program : Program E R α) :
    ∃ events final state', Plays answer state program events final state' ∧
      (events.length = steps ∨ events.length ≤ steps ∧ ∃ value, final = .done value) := by
  induction steps generalizing state program with
  | zero => exact ⟨[], program, state, .stop _ _, .inl rfl⟩
  | succ steps ih =>
      cases head : program.view with
      | done value =>
          exact ⟨[], program, state, .stop _ _, .inr ⟨Nat.zero_le _, value, view_eq_done head⟩⟩
      | call operation resume =>
          obtain ⟨events, final, state', plays, long⟩ :=
            ih (answer state operation).2 (resume (answer state operation).1)
          refine ⟨_, final, state', .call head plays, ?_⟩
          cases long with
          | inl exact => exact .inl (congrArg Nat.succ exact)
          | inr done => exact .inr ⟨Nat.succ_le_succ done.1, done.2⟩

theorem plays_play (answer : σ → (operation : E) → R operation × σ) (steps : Nat) (state : σ)
    (program : Program E R α) :
    ∃ state', Plays answer state program (play answer steps state program).1
      (play answer steps state program).2 state' := by
  induction steps generalizing state program with
  | zero => exact ⟨state, .stop _ _⟩
  | succ steps ih =>
      unfold play
      cases head : program.view with
      | done value =>
          rw [view_eq_done head]
          exact ⟨state, .stop _ _⟩
      | call operation resume =>
          obtain ⟨state', plays⟩ := ih (answer state operation).2 (resume (answer state operation).1)
          exact ⟨state', .call head plays⟩

/-- These calls, answered by the environment one after the other. -/
def Answered (answer : σ → (operation : E) → R operation × σ) :
    σ → List (Event E R) → σ → Prop
  | state, [], state' => state' = state
  | state, event :: events, state' =>
      event.2 = (answer state event.1).1 ∧ Answered answer (answer state event.1).2 events state'

theorem Plays.answered {state state' : σ} {program final : Program E R α} {events : List (Event E R)}
    (plays : Plays answer state program events final state') :
    Answered answer state events state' := by
  induction plays with
  | stop => rfl
  | call _ _ ih => exact ⟨rfl, ih⟩

theorem answered_append {state state' : σ} {first second : List (Event E R)} :
    Answered answer state (first ++ second) state' ↔
      ∃ middle, Answered answer state first middle ∧ Answered answer middle second state' := by
  induction first generalizing state with
  | nil => simp [Answered]
  | cons event first ih =>
      constructor
      · rintro ⟨here, later⟩
        obtain ⟨middle, one, two⟩ := ih.mp later
        exact ⟨middle, ⟨here, one⟩, two⟩
      · rintro ⟨middle, ⟨here, one⟩, two⟩
        exact ⟨here, ih.mpr ⟨middle, one, two⟩⟩

/-- The program returns, whatever state the environment is in. -/
def Ends (answer : σ → (operation : E) → R operation × σ) (program : Program E R α) : Prop :=
  ∀ state, ∃ events value state', Plays answer state program events (.done value) state'

theorem ends_done (value : α) : Ends answer (.done value : Program E R α) :=
  fun state => ⟨[], value, state, .stop _ _⟩

theorem Ends.bind {program : Program E R α} {continuation : α → Program E R β}
    (first : Ends answer program) (second : ∀ value, Ends answer (continuation value)) :
    Ends answer (program.bind continuation) := by
  intro state
  obtain ⟨before, value, middle, one⟩ := first state
  obtain ⟨after, result, last, two⟩ := second value middle
  exact ⟨before ++ after, result, last, (one.bind continuation).append two⟩

theorem Ends.ite {condition : Prop} [Decidable condition] {one two : Program E R α}
    (first : Ends answer one) (second : Ends answer two) :
    Ends answer (if condition then one else two) := by
  split
  · exact first
  · exact second

/-- A loop ends when each further iteration needs less, or as much after less
delay. -/
theorem ends_iterate {call : τ → E} {body : (inner : τ) → R (call inner) → τ ⊕ β}
    (needs delay : σ → τ → Nat)
    (comesDown : ∀ state inner inner', body inner (answer state (call inner)).1 = .inl inner' →
      needs (answer state (call inner)).2 inner' < needs state inner ∨
        needs (answer state (call inner)).2 inner' = needs state inner ∧
          delay (answer state (call inner)).2 inner' < delay state inner) (inner : τ) :
    Ends answer (iterate call body inner) := by
  have founded := (Prod.lex Nat.lt_wfRel Nat.lt_wfRel).wf.onFun
    (f := fun both : σ × τ => (needs both.1 both.2, delay both.1 both.2))
  intro state
  suffices all : ∀ both : σ × τ, ∃ events value state',
      Plays answer both.1 (iterate call body both.2) events (.done value) state' from
    all (state, inner)
  intro both
  induction both using founded.induction with
  | _ both ih =>
      obtain ⟨state, inner⟩ := both
      have calls := view_iterate call body inner
      cases next : body inner (answer state (call inner)).1 with
      | inl inner' =>
          obtain ⟨events, value, state', plays⟩ := ih ((answer state (call inner)).2, inner') (by
            cases comesDown state inner inner' next with
            | inl fewer => exact Prod.Lex.left _ _ fewer
            | inr sooner => exact Prod.Lex.right' _ sooner.1.le sooner.2)
          have onward : Plays answer (answer state (call inner)).2
              ((body inner (answer state (call inner)).1).elim (iterate call body) .done) events
              (.done value) state' := by
            rw [next]
            exact plays
          exact ⟨_, value, state', .call calls onward⟩
      | inr value =>
          have onward : Plays answer (answer state (call inner)).2
              ((body inner (answer state (call inner)).1).elim (iterate call body) .done) []
              (.done value) (answer state (call inner)).2 := by
            rw [next]
            exact .stop _ _
          exact ⟨_, value, _, .call calls onward⟩

end

end Uc1Integration.Interaction.Program
