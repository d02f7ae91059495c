import Mathlib.Logic.Basic
import Mathlib.Data.Option.Basic

/-!
# Programs that call out

Resumptions with guarded loops. Every node that is not finished calls one
operation outside the program, so one step of a run is exactly one call and its
answer. The answer's type may depend on the operation.
-/

set_option autoImplicit false

namespace Uc1Integration.Interaction

/-- A program over operations `E` with answers `R`. A loop calls once per
iteration; its body decides from the answer to iterate again or to leave. -/
inductive Program (E : Type) (R : E → Type) (α : Type) : Type 1 where
  | done (value : α) : Program E R α
  | loop {σ β : Type} (call : σ → E) (body : (state : σ) → R (call state) → σ ⊕ β)
      (next : β → Program E R α) (state : σ) : Program E R α

namespace Program

variable {E E' : Type} {R : E → Type} {R' : E' → Type} {α β σ : Type}

/-- The head of a program: a result, or the operation it calls next. -/
inductive View (E : Type) (R : E → Type) (α : Type) : Type 1 where
  | done (value : α) : View E R α
  | call (operation : E) (resume : R operation → Program E R α) : View E R α

def view : Program E R α → View E R α
  | .done value => .done value
  | .loop call body next state => .call (call state) fun answer =>
      (body state answer).elim (.loop call body next) next

def result? : Program E R α → Option α
  | .done value => some value
  | .loop .. => none

def bind : Program E R α → (α → Program E R β) → Program E R β
  | .done value, continuation => continuation value
  | .loop call body next state, continuation =>
      .loop call body (fun result => (next result).bind continuation) state

instance : Monad (Program E R) where
  pure := .done
  bind := bind

def perform (operation : E) : Program E R (R operation) :=
  .loop (fun _ : Unit => operation) (fun _ answer => .inr answer) .done ()

/-- A loop that returns what its body leaves with. -/
def iterate (call : σ → E) (body : (state : σ) → R (call state) → σ ⊕ β) (state : σ) :
    Program E R β :=
  .loop call body .done state

/-- Rename the operations of a program, reading each answer back. -/
def lift (rename : E → E') (back : (operation : E) → R' (rename operation) → R operation) :
    Program E R α → Program E' R' α
  | .done value => .done value
  | .loop call body next state =>
      .loop (fun state => rename (call state))
        (fun state answer => body state (back (call state) answer))
        (fun result => (next result).lift rename back) state

@[simp] theorem bind_eq (program : Program E R α) (continuation : α → Program E R β) :
    program >>= continuation = program.bind continuation := rfl

@[simp] theorem done_bind (value : α) (continuation : α → Program E R β) :
    (Program.done value).bind continuation = continuation value := rfl

@[simp] theorem view_perform (operation : E) :
    (perform operation : Program E R (R operation)).view = .call operation .done := rfl

theorem view_iterate (call : σ → E) (body : (state : σ) → R (call state) → σ ⊕ β) (state : σ) :
    (iterate call body state).view = .call (call state) fun answer =>
      (body state answer).elim (iterate call body) .done := rfl

theorem view_eq_done {program : Program E R α} {value : α} (finished : program.view = .done value) :
    program = .done value := by
  cases program with
  | done result => cases finished; rfl
  | loop => cases finished

theorem view_eq_done_iff {program : Program E R α} {value : α} :
    program.view = .done value ↔ program.result? = some value := by
  constructor
  · intro finished
    rw [view_eq_done finished]
    rfl
  · intro has
    cases program with
    | done result => cases has; rfl
    | loop => cases has

theorem view_bind_done {program : Program E R α} {value : α} (continuation : α → Program E R β)
    (finished : program.view = .done value) : program.bind continuation = continuation value := by
  rw [view_eq_done finished, done_bind]

theorem view_bind_call {program : Program E R α} {operation : E}
    {resume : R operation → Program E R α} (continuation : α → Program E R β)
    (calls : program.view = .call operation resume) :
    (program.bind continuation).view =
      .call operation fun answer => (resume answer).bind continuation := by
  cases program with
  | done => cases calls
  | loop call body next state =>
      cases calls
      simp only [bind, view, View.call.injEq, heq_eq_eq, true_and]
      funext answer
      cases body state answer <;> rfl

theorem bind_assoc {γ : Type} (program : Program E R α) (first : α → Program E R β)
    (second : β → Program E R γ) :
    (program.bind first).bind second = program.bind fun value => (first value).bind second := by
  induction program with
  | done => rfl
  | loop call body next state ih => simp only [bind, ih]

end Program

end Uc1Integration.Interaction
