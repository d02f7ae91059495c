import Mathlib.Algebra.Order.BigOperators.Group.List
import Mathlib.Data.Multiset.OrderedMonoid
import Uc1Integration.Interaction.Runs

/-!
# Accounts of resources

A ledger says which resources an event acquires and which it releases. Events
settle when each of them releases only what is live by then.
-/

set_option autoImplicit false

namespace Uc1Integration.Interaction

structure Ledger (ε ρ : Type) where
  acquires : ε → Multiset ρ
  releases : ε → Multiset ρ

namespace Ledger

variable {ε ρ : Type}

/-- The events lead from these live resources to those. -/
inductive Settles (ledger : Ledger ε ρ) : Multiset ρ → List ε → Multiset ρ → Prop where
  | nil (live : Multiset ρ) : Settles ledger live [] live
  | cons {live kept live' : Multiset ρ} {event : ε} {events : List ε} :
      live = kept + ledger.releases event →
      Settles ledger (kept + ledger.acquires event) events live' →
      Settles ledger live (event :: events) live'

section

variable {ledger : Ledger ε ρ}

theorem Settles.append {live middle live' : Multiset ρ} {first second : List ε}
    (one : ledger.Settles live first middle) (two : ledger.Settles middle second live') :
    ledger.Settles live (first ++ second) live' := by
  induction one with
  | nil => exact two
  | cons holds _ ih => exact .cons holds (ih two)

theorem Settles.unique {live live₁ live₂ : Multiset ρ} {events : List ε}
    (one : ledger.Settles live events live₁) (two : ledger.Settles live events live₂) :
    live₁ = live₂ := by
  induction one with
  | nil => cases two; rfl
  | cons holds _ ih =>
      cases two with
      | cons sameHolds onward =>
          rw [holds] at sameHolds
          rw [← add_right_cancel sameHolds] at onward
          exact ih onward

/-- What was live follows from what is. -/
theorem Settles.unique_start {live₁ live₂ live : Multiset ρ} {events : List ε}
    (one : ledger.Settles live₁ events live) (two : ledger.Settles live₂ events live) :
    live₁ = live₂ := by
  induction one generalizing live₂ with
  | nil => cases two; rfl
  | cons holds _ ih =>
      cases two with
      | cons sameHolds onward => rw [holds, sameHolds, add_right_cancel (ih onward)]

theorem Settles.of_append {live live' : Multiset ρ} {first second : List ε}
    (settles : ledger.Settles live (first ++ second) live') :
    ∃ middle, ledger.Settles live first middle ∧ ledger.Settles middle second live' := by
  induction first generalizing live with
  | nil => exact ⟨live, .nil live, settles⟩
  | cons event first ih =>
      cases settles with
      | cons holds onward =>
          obtain ⟨middle, one, two⟩ := ih onward
          exact ⟨middle, .cons holds one, two⟩

/-- Resources that are not touched stay. -/
theorem Settles.add {live live' : Multiset ρ} {events : List ε}
    (settles : ledger.Settles live events live') (extra : Multiset ρ) :
    ledger.Settles (live + extra) events (live' + extra) := by
  induction settles with
  | nil => exact .nil _
  | cons holds _ ih =>
      rename_i live kept live' event events _
      have holds' : live + extra = kept + extra + ledger.releases event := by
        rw [holds, add_right_comm]
      rw [add_right_comm] at ih
      exact .cons holds' ih

/-- An event that neither acquires nor releases. -/
def Neutral (ledger : Ledger ε ρ) (event : ε) : Prop :=
  ledger.acquires event = 0 ∧ ledger.releases event = 0

theorem settles_neutral {events : List ε} (neutral : ∀ event ∈ events, ledger.Neutral event)
    (live : Multiset ρ) : ledger.Settles live events live := by
  induction events with
  | nil => exact .nil live
  | cons event events ih =>
      obtain ⟨acquires, releases⟩ := neutral event List.mem_cons_self
      have holds : live = live + ledger.releases event := by rw [releases, add_zero]
      refine .cons holds ?_
      rw [acquires, add_zero]
      exact ih fun other member => neutral other (List.mem_cons_of_mem _ member)

end

/-- The ledger in which what an event loses counts as released. -/
def writeOff (ledger : Ledger ε ρ) (lost : ε → Multiset ρ) : Ledger ε ρ :=
  { ledger with releases := fun event => ledger.releases event + lost event }

section WriteOff

variable {ledger : Ledger ε ρ} {lost : ε → Multiset ρ}

/-- What was written off is still live. -/
theorem Settles.of_writeOff {live live' : Multiset ρ} {events : List ε}
    (settles : (ledger.writeOff lost).Settles live events live') :
    ledger.Settles live events (live' + (events.map lost).sum) := by
  induction settles with
  | nil live =>
      rw [List.map_nil, List.sum_nil, add_zero]
      exact .nil live
  | cons holds _ ih =>
      rename_i live kept live' event events _
      have holds' : live = kept + lost event + ledger.releases event := by
        rw [holds, add_right_comm, add_assoc]
        rfl
      have onward := ih.add (lost event)
      rw [add_right_comm, add_assoc live', add_comm (List.sum _)] at onward
      exact .cons holds' onward

theorem sum_lost_eq_zero {events : List ε} :
    (events.map lost).sum = 0 ↔ ∀ event ∈ events, lost event = 0 := by
  rw [List.sum_eq_zero_iff, List.forall_mem_map]

/-- When all is settled but for what was written off, the account is balanced
exactly when nothing was. -/
theorem Settles.balanced_iff {live : Multiset ρ} {events : List ε}
    (settles : (ledger.writeOff lost).Settles live events live) :
    ledger.Settles live events live ↔ ∀ event ∈ events, lost event = 0 := by
  have really := settles.of_writeOff
  rw [← sum_lost_eq_zero]
  constructor
  · intro balanced
    exact Multiset.add_right_inj.mp ((really.unique balanced).trans (add_zero live).symm)
  · intro none
    rw [none, add_zero] at really
    exact really

end WriteOff

section Restrict

variable {ledger : Ledger ε ρ} {kind : ρ → Prop} [DecidablePred kind]

/-- The account of one kind of resources alone. -/
def restrict (ledger : Ledger ε ρ) (kind : ρ → Prop) [DecidablePred kind] : Ledger ε ρ where
  acquires event := (ledger.acquires event).filter kind
  releases event := (ledger.releases event).filter kind

theorem Settles.restrict {live live' : Multiset ρ} {events : List ε}
    (settles : ledger.Settles live events live') :
    (ledger.restrict kind).Settles (live.filter kind) events (live'.filter kind) := by
  induction settles with
  | nil => exact .nil _
  | cons holds _ ih =>
      rename_i live kept live' event events _
      have holds' : live.filter kind = kept.filter kind + (ledger.restrict kind).releases event := by
        rw [holds, Multiset.filter_add]
        rfl
      rw [Multiset.filter_add] at ih
      exact .cons holds' ih

end Restrict

section Leaves

variable {E : Type} {R : E → Type} {α β : Type}

/-- Every whole run settles, and leaves live what its value promises. -/
def Leaves (ledger : Ledger (Event E R) ρ) (valid : Event E R → Prop) (live : Multiset ρ)
    (program : Program E R α) (post : α → Multiset ρ → Prop) : Prop :=
  ∀ ⦃events : List (Event E R)⦄ ⦃value : α⦄, program.Runs events (.done value) →
    (∀ event ∈ events, valid event) → ∃ live', ledger.Settles live events live' ∧ post value live'

variable {ledger : Ledger (Event E R) ρ} {valid : Event E R → Prop} {live : Multiset ρ}

theorem leaves_done {value : α} {post : α → Multiset ρ → Prop} (holds : post value live) :
    ledger.Leaves valid live (.done value) post := by
  intro events result runs _
  obtain ⟨rfl, same⟩ := runs.of_done
  cases same
  exact ⟨live, .nil live, holds⟩

theorem Leaves.bind {program : Program E R α} {continuation : α → Program E R β}
    {between : α → Multiset ρ → Prop} {post : β → Multiset ρ → Prop}
    (first : ledger.Leaves valid live program between)
    (second : ∀ value live', between value live' →
      ledger.Leaves valid live' (continuation value) post) :
    ledger.Leaves valid live (program.bind continuation) post := by
  intro events result runs valids
  obtain ⟨value, before, after, rfl, one, two⟩ := runs.of_bind_done
  obtain ⟨middle, settled, holds⟩ := first one fun event member =>
    valids event (List.mem_append_left _ member)
  obtain ⟨live', settled', holds'⟩ := second value middle holds two fun event member =>
    valids event (List.mem_append_right _ member)
  exact ⟨live', settled.append settled', holds'⟩

theorem Leaves.ite {condition : Prop} [Decidable condition] {one two : Program E R α}
    {post : α → Multiset ρ → Prop} (first : condition → ledger.Leaves valid live one post)
    (second : ¬ condition → ledger.Leaves valid live two post) :
    ledger.Leaves valid live (if condition then one else two) post := by
  split
  next holds => exact first holds
  next fails => exact second fails

theorem Leaves.mono {program : Program E R α} {post post' : α → Multiset ρ → Prop}
    (leaves : ledger.Leaves valid live program post)
    (implies : ∀ value live', post value live' → post' value live') :
    ledger.Leaves valid live program post' := by
  intro events value runs valids
  obtain ⟨live', settled, holds⟩ := leaves runs valids
  exact ⟨live', settled, implies value live' holds⟩

/-- One call, which must find live what it releases. -/
theorem leaves_call {operation : E} {continuation : R operation → Program E R α}
    {post : α → Multiset ρ → Prop}
    (each : ∀ answer, valid ⟨operation, answer⟩ →
      ∃ kept, live = kept + ledger.releases ⟨operation, answer⟩ ∧
        ledger.Leaves valid (kept + ledger.acquires ⟨operation, answer⟩) (continuation answer)
          post) :
    ledger.Leaves valid live ((Program.perform operation).bind continuation) post := by
  intro events value runs valids
  obtain ⟨answer, first, later, rfl, one, two⟩ := runs.of_bind_done
  rw [one.of_perform] at valids ⊢
  obtain ⟨kept, holds, onward⟩ := each answer (valids _ (List.mem_append_left _ (by simp)))
  obtain ⟨live', settled, holds'⟩ := onward two fun event member =>
    valids event (List.mem_append_right _ member)
  exact ⟨live', .cons holds settled, holds'⟩

theorem leaves_acquire {operation : E} {continuation : R operation → Program E R α}
    {post : α → Multiset ρ → Prop} (gives : ∀ answer, ledger.releases ⟨operation, answer⟩ = 0)
    (each : ∀ answer, valid ⟨operation, answer⟩ →
      ledger.Leaves valid (live + ledger.acquires ⟨operation, answer⟩) (continuation answer) post) :
    ledger.Leaves valid live ((Program.perform operation).bind continuation) post :=
  leaves_call fun answer here => ⟨live, by rw [gives, add_zero], each answer here⟩

theorem leaves_release {operation : E} {held : Multiset ρ}
    {continuation : R operation → Program E R α} {post : α → Multiset ρ → Prop}
    (gives : ∀ answer, ledger.releases ⟨operation, answer⟩ = held)
    (takes : ∀ answer, ledger.acquires ⟨operation, answer⟩ = 0)
    (each : ∀ answer, ledger.Leaves valid live (continuation answer) post) :
    ledger.Leaves valid (live + held) ((Program.perform operation).bind continuation) post := by
  refine leaves_call fun answer _ => ⟨live, by rw [gives], ?_⟩
  rw [takes, add_zero]
  exact each answer

/-- A part whose calls are all neutral leaves the account as it is. -/
theorem leaves_neutral {allowed : E → Prop} {program : Program E R α}
    (uses : program.Uses allowed)
    (neutral : ∀ operation answer, allowed operation → ledger.Neutral ⟨operation, answer⟩) :
    ledger.Leaves valid live program fun value live' =>
      live' = live ∧ ∃ events, program.Runs events (.done value) ∧ ∀ event ∈ events, valid event := by
  intro events value runs valids
  refine ⟨live, settles_neutral ?_ live, rfl, events, runs, valids⟩
  intro event member
  exact neutral event.1 event.2 (uses runs event member)

end Leaves

end Ledger

end Uc1Integration.Interaction
