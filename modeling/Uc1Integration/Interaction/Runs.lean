import Uc1Integration.Interaction.Program

/-!
# Runs of programs

A run is the list of the calls a program has made, each with its answer. Runs of
a program put together from others are put together from their runs.
-/

set_option autoImplicit false

namespace Uc1Integration.Interaction

abbrev Event (E : Type) (R : E → Type) := (call : E) × R call

namespace Program

variable {E E' : Type} {R : E → Type} {R' : E' → Type} {α β σ : Type}

inductive Runs : Program E R α → List (Event E R) → Program E R α → Prop where
  | stop (program : Program E R α) : Runs program [] program
  | call {program final : Program E R α} {operation : E}
      {resume : R operation → Program E R α} {events : List (Event E R)}
      (answer : R operation) :
      program.view = .call operation resume → Runs (resume answer) events final →
      Runs program (⟨operation, answer⟩ :: events) final

theorem Runs.append {program middle final : Program E R α} {first second : List (Event E R)}
    (one : Runs program first middle) (two : Runs middle second final) :
    Runs program (first ++ second) final := by
  induction one with
  | stop => exact two
  | call answer calls _ ih => exact .call answer calls (ih two)

theorem Runs.of_append {program final : Program E R α} {first second : List (Event E R)}
    (runs : Runs program (first ++ second) final) :
    ∃ middle, Runs program first middle ∧ Runs middle second final := by
  induction first generalizing program with
  | nil => exact ⟨program, .stop program, runs⟩
  | cons event first ih =>
      cases runs with
      | call answer calls onward =>
          obtain ⟨middle, one, two⟩ := ih onward
          exact ⟨middle, .call answer calls one, two⟩

theorem Runs.deterministic {program final other : Program E R α} {events : List (Event E R)}
    (one : Runs program events final) (two : Runs program events other) : final = other := by
  induction one with
  | stop => cases two; rfl
  | call answer calls _ ih =>
      cases two with
      | call _ sameCall onward =>
          rw [calls] at sameCall
          cases sameCall
          exact ih onward

theorem Runs.of_done {value : α} {final : Program E R α} {events : List (Event E R)}
    (runs : Runs (.done value) events final) : events = [] ∧ final = .done value := by
  cases runs with
  | stop => exact ⟨rfl, rfl⟩
  | call answer calls => cases calls

theorem Runs.bind {program final : Program E R α} {events : List (Event E R)}
    (runs : Runs program events final) (continuation : α → Program E R β) :
    Runs (program.bind continuation) events (final.bind continuation) := by
  induction runs with
  | stop => exact .stop _
  | call answer calls _ ih => exact .call answer (view_bind_call continuation calls) ih

/-- A run of two programs one after the other is one of the first, or a whole
run of the first followed by one of the second. -/
theorem Runs.of_bind {program : Program E R α} {continuation : α → Program E R β}
    {events : List (Event E R)} {final : Program E R β}
    (runs : Runs (program.bind continuation) events final) :
    (∃ middle, Runs program events middle ∧ final = middle.bind continuation) ∨
      ∃ value first second, events = first ++ second ∧ Runs program first (.done value) ∧
        Runs (continuation value) second final := by
  induction events generalizing program with
  | nil =>
      cases runs with
      | stop => exact .inl ⟨program, .stop program, rfl⟩
  | cons event events ih =>
      cases head : program.view with
      | done value =>
          rw [view_bind_done continuation head] at runs
          rw [view_eq_done head]
          exact .inr ⟨value, [], event :: events, rfl, .stop _, runs⟩
      | call operation resume =>
          cases runs with
          | call answer calls onward =>
              rw [view_bind_call continuation head] at calls
              cases calls
              cases ih onward with
              | inl within =>
                  obtain ⟨middle, one, same⟩ := within
                  exact .inl ⟨middle, .call answer head one, same⟩
              | inr through =>
                  obtain ⟨value, first, second, rfl, one, two⟩ := through
                  exact .inr ⟨value, ⟨operation, answer⟩ :: first, second, rfl,
                    .call answer head one, two⟩

theorem result_bind_none {program : Program E R α} (unfinished : program.result? = none)
    (continuation : α → Program E R β) : (program.bind continuation).result? = none := by
  cases program with
  | done => cases unfinished
  | loop => rfl

/-- A run of two programs is still in the first, which has not returned, or goes on from its
value. -/
theorem Runs.of_bind_unfinished {program : Program E R α} {continuation : α → Program E R β}
    {events : List (Event E R)} {final : Program E R β}
    (runs : Runs (program.bind continuation) events final) :
    (∃ middle, middle.result? = none ∧ Runs program events middle ∧ final.result? = none) ∨
      ∃ value first second, events = first ++ second ∧ Runs program first (.done value) ∧
        Runs (continuation value) second final := by
  cases runs.of_bind with
  | inr through => exact .inr through
  | inl within =>
      obtain ⟨middle, one, rfl⟩ := within
      cases returned : middle.result? with
      | none => exact .inl ⟨middle, returned, one, result_bind_none returned continuation⟩
      | some value =>
          have finished := view_eq_done (view_eq_done_iff.mpr returned)
          subst finished
          exact .inr ⟨value, events, [], (List.append_nil events).symm, one, .stop _⟩

theorem Runs.of_bind_done {program : Program E R α} {continuation : α → Program E R β}
    {events : List (Event E R)} {result : β}
    (runs : Runs (program.bind continuation) events (.done result)) :
    ∃ value first second, events = first ++ second ∧ Runs program first (.done value) ∧
      Runs (continuation value) second (.done result) := by
  cases runs.of_bind_unfinished with
  | inr through => exact through
  | inl within =>
      obtain ⟨middle, _, _, unfinished⟩ := within
      cases unfinished

theorem Runs.of_perform {operation : E} {answer : R operation} {events : List (Event E R)}
    (runs : Runs (perform operation) events (.done answer)) : events = [⟨operation, answer⟩] := by
  cases runs with
  | call reply calls onward =>
      cases calls
      obtain ⟨rfl, same⟩ := onward.of_done
      cases same
      rfl

/-- A run that starts with one call has not made it yet, or goes on from its answer. -/
theorem Runs.of_perform_bind {operation : E} {continuation : R operation → Program E R β}
    {events : List (Event E R)} {final : Program E R β}
    (runs : Runs ((perform operation).bind continuation) events final) :
    events = [] ∨ ∃ answer later, events = ⟨operation, answer⟩ :: later ∧
      Runs (continuation answer) later final := by
  cases runs with
  | stop => exact .inl rfl
  | call answer calls onward =>
      cases calls
      exact .inr ⟨answer, _, rfl, onward⟩

theorem view_lift {rename : E → E'} {back : (operation : E) → R' (rename operation) → R operation}
    {program : Program E R α} {operation : E} {resume : R operation → Program E R α}
    (calls : program.view = .call operation resume) :
    (program.lift rename back).view = .call (rename operation) fun answer =>
      (resume (back operation answer)).lift rename back := by
  cases program with
  | done => cases calls
  | loop call body next state =>
      cases calls
      simp only [lift, view, View.call.injEq, heq_eq_eq, true_and]
      funext answer
      cases body state (back (call state) answer) <;> rfl

def Event.rename (rename : E → E') (forth : (operation : E) → R operation → R' (rename operation))
    (event : Event E R) : Event E' R' :=
  ⟨rename event.1, forth event.1 event.2⟩

theorem Runs.of_lift {program : Program E R α} {events : List (Event E' R')}
    {final : Program E' R' α} (rename : E → E')
    (back : (operation : E) → R' (rename operation) → R operation)
    (forth : (operation : E) → R operation → R' (rename operation))
    (inverse : ∀ operation answer, forth operation (back operation answer) = answer)
    (runs : Runs (program.lift rename back) events final) :
    ∃ original last, Runs program original last ∧ final = last.lift rename back ∧
      events = original.map (Event.rename rename forth) := by
  induction events generalizing program with
  | nil =>
      cases runs with
      | stop => exact ⟨[], program, .stop program, rfl, rfl⟩
  | cons event events ih =>
      cases head : program.view with
      | done value =>
          rw [view_eq_done head] at runs
          cases runs with
          | call answer calls => cases calls
      | call operation resume =>
          cases runs with
          | call answer calls onward =>
              rw [view_lift head] at calls
              cases calls
              obtain ⟨original, last, one, same, renamed⟩ := ih onward
              refine ⟨⟨operation, back operation answer⟩ :: original, last,
                .call _ head one, same, ?_⟩
              rw [List.map_cons, ← renamed, Event.rename, inverse]

theorem result_lift {rename : E → E'}
    {back : (operation : E) → R' (rename operation) → R operation} {program : Program E R α}
    {value : α} (finished : program.lift rename back = .done value) : program = .done value := by
  cases program with
  | done result => cases finished; rfl
  | loop => cases finished

/-- A run of a loop is within it and keeps its invariant, or has left it. -/
theorem Runs.of_iterate_stage {call : σ → E} {body : (state : σ) → R (call state) → σ ⊕ β}
    (valid : Event E R → Prop) (inv : σ → List (Event E R) → Prop)
    (post : β → List (Event E R) → Prop)
    (again : ∀ state earlier answer state', inv state earlier → valid ⟨call state, answer⟩ →
      body state answer = .inl state' → inv state' (earlier ++ [⟨call state, answer⟩]))
    (leave : ∀ state earlier answer value, inv state earlier → valid ⟨call state, answer⟩ →
      body state answer = .inr value → post value (earlier ++ [⟨call state, answer⟩]))
    {state : σ} {events : List (Event E R)} {final : Program E R β} (begins : inv state [])
    (valids : ∀ event ∈ events, valid event)
    (runs : Runs (iterate call body state) events final) :
    (∃ state', final = iterate call body state' ∧ inv state' events) ∨
      ∃ value, final = .done value ∧ post value events := by
  suffices onward : ∀ (earlier : List (Event E R)) state, inv state earlier →
      Runs (iterate call body state) events final →
      (∃ state', final = iterate call body state' ∧ inv state' (earlier ++ events)) ∨
        ∃ value, final = .done value ∧ post value (earlier ++ events) from
    onward [] state begins runs
  clear runs begins
  intro earlier state holds runs
  induction events generalizing earlier state with
  | nil =>
      cases runs with
      | stop => exact .inl ⟨state, rfl, (List.append_nil earlier).symm ▸ holds⟩
  | cons event events ih =>
      cases runs with
      | call answer calls onward =>
          rw [view_iterate] at calls
          cases calls
          have here := valids _ List.mem_cons_self
          have later := fun event member => valids event (List.mem_cons_of_mem _ member)
          cases next : body state answer with
          | inl state' =>
              simp only [next, Sum.elim_inl] at onward
              have whole := ih later (earlier ++ [⟨call state, answer⟩]) state'
                (again _ _ _ _ holds here next) onward
              rw [List.append_assoc] at whole
              exact whole
          | inr result =>
              simp only [next, Sum.elim_inr] at onward
              obtain ⟨rfl, rfl⟩ := onward.of_done
              exact .inr ⟨result, rfl, leave _ _ _ _ holds here next⟩

/-- What a program does with the answers of a strategy that has a state. -/
def play (answer : σ → (operation : E) → R operation × σ) :
    Nat → σ → Program E R α → List (Event E R) × Program E R α
  | 0, _, program => ([], program)
  | steps + 1, state, program =>
      match program.view with
      | .done value => ([], .done value)
      | .call operation resume =>
          let (reply, state) := answer state operation
          let (events, final) := play answer steps state (resume reply)
          (⟨operation, reply⟩ :: events, final)

theorem runs_play (answer : σ → (operation : E) → R operation × σ) (steps : Nat) (state : σ)
    (program : Program E R α) :
    Runs program (play answer steps state program).1 (play answer steps state program).2 := by
  induction steps generalizing state program with
  | zero => exact .stop program
  | succ steps ih =>
      unfold play
      cases head : program.view with
      | done value =>
          rw [view_eq_done head]
          exact .stop _
      | call operation resume => exact .call _ head (ih _ _)

theorem play_forall {answer : σ → (operation : E) → R operation × σ} {property : Event E R → Prop}
    (each : ∀ state operation, property ⟨operation, (answer state operation).1⟩) (steps : Nat)
    (state : σ) (program : Program E R α) :
    ∀ event ∈ (play answer steps state program).1, property event := by
  induction steps generalizing state program with
  | zero => exact nofun
  | succ steps ih =>
      unfold play
      split
      · exact nofun
      · intro event member
        cases List.mem_cons.mp member with
        | inl here => exact here ▸ each _ _
        | inr behind => exact ih _ _ event behind

/-- Every call the program can make is allowed. -/
def Uses (allowed : E → Prop) (program : Program E R α) : Prop :=
  ∀ ⦃events : List (Event E R)⦄ ⦃final : Program E R α⦄, Runs program events final →
    ∀ event ∈ events, allowed event.1

section Uses

variable {allowed : E → Prop}

theorem uses_done (value : α) : Uses allowed (.done value : Program E R α) := by
  intro events final runs event member
  obtain ⟨rfl, _⟩ := runs.of_done
  cases member

theorem Uses.bind {program : Program E R α} {continuation : α → Program E R β}
    (first : Uses allowed program) (second : ∀ value, Uses allowed (continuation value)) :
    Uses allowed (program.bind continuation) := by
  intro events final runs event member
  cases runs.of_bind with
  | inl within =>
      obtain ⟨middle, one, _⟩ := within
      exact first one event member
  | inr through =>
      obtain ⟨value, before, after, rfl, one, two⟩ := through
      cases List.mem_append.mp member with
      | inl early => exact first one event early
      | inr late => exact second value two event late

theorem Uses.ite {condition : Prop} [Decidable condition] {one two : Program E R α}
    (first : Uses allowed one) (second : Uses allowed two) :
    Uses allowed (if condition then one else two) := by
  split
  · exact first
  · exact second

/-- A loop makes only the calls its states make, and its states keep an invariant. -/
theorem uses_iterate_inv {call : σ → E} {body : (state : σ) → R (call state) → σ ⊕ β}
    (inv : σ → Prop) (permitted : ∀ state, inv state → allowed (call state))
    (again : ∀ state answer state', inv state → body state answer = .inl state' → inv state')
    {state : σ} (begins : inv state) : Uses allowed (iterate call body state) := by
  intro events final runs event member
  induction events generalizing state with
  | nil => cases member
  | cons first events ih =>
      cases runs with
      | call answer calls onward =>
          rw [view_iterate] at calls
          cases calls
          cases List.mem_cons.mp member with
          | inl here =>
              rw [here]
              exact permitted state begins
          | inr later =>
              cases next : body state answer with
              | inl state' =>
                  simp only [next, Sum.elim_inl] at onward
                  exact ih (again state answer state' begins next) onward later
              | inr value =>
                  simp only [next, Sum.elim_inr] at onward
                  obtain ⟨rfl, _⟩ := onward.of_done
                  cases later

theorem uses_iterate {call : σ → E} {body : (state : σ) → R (call state) → σ ⊕ β}
    (permitted : ∀ state, allowed (call state)) (state : σ) :
    Uses allowed (iterate call body state) :=
  uses_iterate_inv (fun _ => True) (fun state _ => permitted state)
    (fun _ _ _ _ _ => trivial) trivial

theorem uses_lift {rename : E → E'}
    {back : (operation : E) → R' (rename operation) → R operation} {allowed' : E' → Prop}
    (permitted : ∀ operation, allowed' (rename operation)) (program : Program E R α) :
    Uses allowed' (program.lift rename back) := by
  intro events final runs event member
  induction events generalizing program with
  | nil => cases member
  | cons first events ih =>
      cases head : program.view with
      | done value =>
          rw [view_eq_done head] at runs
          cases runs with
          | call answer calls => cases calls
      | call operation resume =>
          cases runs with
          | call answer calls onward =>
              rw [view_lift head] at calls
              cases calls
              cases List.mem_cons.mp member with
              | inl here =>
                  rw [here]
                  exact permitted operation
              | inr later => exact ih _ onward later

theorem uses_perform {operation : E} (permitted : allowed operation) :
    Uses allowed (perform operation : Program E R (R operation)) :=
  uses_iterate (fun _ => permitted) ()

theorem Uses.mono {allowed' : E → Prop} {program : Program E R α} (uses : Uses allowed program)
    (implies : ∀ operation, allowed operation → allowed' operation) : Uses allowed' program :=
  fun _ _ runs event member => implies _ (uses runs event member)

end Uses

/-- Every run makes only early calls, or goes over from them to one of the targets. -/
def Passes (early : E → Prop) (targets : Program E R α → Prop) (program : Program E R α) : Prop :=
  ∀ ⦃events : List (Event E R)⦄ ⦃final : Program E R α⦄, Runs program events final →
    (∀ event ∈ events, early event.1) ∨
      ∃ target before after, targets target ∧ events = before ++ after ∧
        (∀ event ∈ before, early event.1) ∧ Runs target after final

section Passes

variable {early : E → Prop} {targets : Program E R α → Prop}

theorem Passes.of_target {program : Program E R α} (isTarget : targets program) :
    Passes early targets program :=
  fun _ _ runs => .inr ⟨program, [], _, isTarget, rfl, nofun, runs⟩

theorem Passes.of_uses {program : Program E R α} (uses : Uses early program) :
    Passes early targets program :=
  fun _ _ runs => .inl (uses runs)

theorem Passes.ite {condition : Prop} [Decidable condition] {one two : Program E R α}
    (first : Passes early targets one) (second : Passes early targets two) :
    Passes early targets (if condition then one else two) := by
  split
  · exact first
  · exact second

theorem Passes.bind {program : Program E R β} {continuation : β → Program E R α}
    (uses : Uses early program) (passes : ∀ value, Passes early targets (continuation value)) :
    Passes early targets (program.bind continuation) := by
  intro events final runs
  cases runs.of_bind with
  | inl within =>
      obtain ⟨middle, one, _⟩ := within
      exact .inl (uses one)
  | inr through =>
      obtain ⟨value, first, second, rfl, one, two⟩ := through
      have begins := uses one
      cases passes value two with
      | inl all =>
          refine .inl ?_
          intro event member
          cases List.mem_append.mp member with
          | inl ahead => exact begins event ahead
          | inr behind => exact all event behind
      | inr crossed =>
          obtain ⟨target, before, after, isTarget, rfl, all, runs⟩ := crossed
          refine .inr ⟨target, first ++ before, after, isTarget, by simp, ?_, runs⟩
          intro event member
          cases List.mem_append.mp member with
          | inl ahead => exact begins event ahead
          | inr behind => exact all event behind

end Passes

end Program

end Uc1Integration.Interaction
