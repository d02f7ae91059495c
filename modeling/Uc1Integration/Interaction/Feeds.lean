import Mathlib.Data.Nat.Find
import Uc1Integration.Interaction.Conversation
import Uc1Integration.Interaction.Environments

/-!
# Scheduled streams

Environments of one endpoint that move bytes by a schedule. At each turn the
schedule says how many bytes may be moved, and 0 blocks the call. A feed delivers
a finite stream and then reports its end; an outlet takes what is written.
-/

set_option autoImplicit false

namespace Uc1Integration.Interaction

open Program

variable {Byte Error α β τ : Type}

/-- The schedule blocks only finitely often in a row. -/
def Fair (schedule : Nat → Nat) : Prop :=
  ∀ turn, ∃ later, turn ≤ later ∧ schedule later ≠ 0

section Wait

open Classical

/-- How long the schedule blocks from a turn on. -/
noncomputable def Fair.wait {schedule : Nat → Nat} (fair : Fair schedule) (turn : Nat) : Nat :=
  Nat.find (fair turn) - turn

theorem Fair.wait_succ {schedule : Nat → Nat} (fair : Fair schedule) {turn : Nat}
    (blocks : schedule turn = 0) : fair.wait (turn + 1) < fair.wait turn := by
  obtain ⟨behind, moves⟩ := Nat.find_spec (fair turn)
  have later : turn + 1 ≤ Nat.find (fair turn) := by
    apply Nat.lt_of_le_of_ne behind
    intro same
    rw [← same] at moves
    exact moves blocks
  have first : Nat.find (fair (turn + 1)) ≤ Nat.find (fair turn) :=
    Nat.find_min' (fair (turn + 1)) ⟨later, moves⟩
  unfold Fair.wait
  omega

end Wait

structure Feed (Byte : Type) where
  rest : List Byte
  turn : Nat

/-- A feed answers a read with at most the bytes of its schedule. -/
def Feed.answer (blocked ended : Error) (schedule : Nat → Nat) (feed : Feed Byte) :
    (call : StreamCall Byte) → StreamAnswer Byte Error call × Feed Byte
  | .read limit =>
      if schedule feed.turn = 0 then (.failed blocked, { feed with turn := feed.turn + 1 })
      else if feed.rest.isEmpty then (.failed ended, { feed with turn := feed.turn + 1 })
      else
        let count := min (schedule feed.turn) limit
        (.received (feed.rest.take count), ⟨feed.rest.drop count, feed.turn + 1⟩)
  | .write data => (.accepted data.length, { feed with turn := feed.turn + 1 })

/-- A loop of reads ends when it leaves at the end of the stream, and needs a
byte at least whenever it goes on. -/
theorem ends_iterate_feed {blocked ended : Error} {schedule : Nat → Nat} (fair : Fair schedule)
    {limit : τ → Nat} {body : τ → ReadAnswer Byte Error → τ ⊕ β}
    (leaves : ∀ inner inner', body inner (.failed ended) ≠ .inl inner')
    (needs : ∀ inner inner' data, body inner (.received data) = .inl inner' → 0 < limit inner)
    (inner : τ) :
    Ends (Feed.answer blocked ended schedule)
      (iterate (fun inner => .read (limit inner)) body inner) := by
  refine ends_iterate (fun feed _ => feed.rest.length) (fun feed _ => fair.wait feed.turn) ?_ inner
  intro feed inner inner' next
  dsimp only [Feed.answer] at next ⊢
  split at next
  next blocks =>
    rw [if_pos blocks]
    exact .inr ⟨rfl, fair.wait_succ blocks⟩
  next moves =>
    split at next
    next => exact absurd next (leaves inner inner')
    next some =>
      have positive := needs inner inner' _ next
      rw [if_neg moves, if_neg some]
      left
      have one : 0 < feed.rest.length := by
        rw [List.length_pos_iff]
        intro none
        exact some (by rw [none]; rfl)
      dsimp only
      rw [List.length_drop]
      omega

/-- An outlet accepts at most the bytes of its schedule. -/
def outletAnswer (blocked : Error) (schedule : Nat → Nat) (turn : Nat) :
    (call : StreamCall Byte) → StreamAnswer Byte Error call × Nat
  | .read _ => (.failed blocked, turn + 1)
  | .write data =>
      if schedule turn = 0 then (.failed blocked, turn + 1)
      else (.accepted (min (schedule turn) data.length), turn + 1)

end Uc1Integration.Interaction
