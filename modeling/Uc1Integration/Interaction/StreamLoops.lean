import Uc1Integration.Interaction.Following

/-! Rules for the loops that read or write a fixed string of bytes. The state
after `count` bytes is a function of `count`, so a chunked run and a run byte by
byte pass through the same states. -/

set_option autoImplicit false

namespace Uc1Integration.Interaction

open Conversation

variable {Byte Error σ α : Type}

theorem Follows.of_done {medium : Medium Error} {me : Side} {results : Results α} {value : α}
    (isGood : results.good value) :
    Follows medium me results [] (.done value : Endpoint Byte Error α) :=
  .done rfl isGood

theorem Doomed.done {medium : Medium Error} {bad : α → Prop} {value : α} (isBad : bad value) :
    Doomed medium bad (.done value : Endpoint Byte Error α) :=
  .of_done rfl isBad

theorem Doomed.iterate {medium : Medium Error} {bad : α → Prop} {call : σ → StreamCall Byte}
    {body : (state : σ) → StreamAnswer Byte Error (call state) → σ ⊕ α} {state : σ}
    (refused : ∀ answer, medium.Refuses (call state) answer →
      body state answer = .inl state ∨ ∃ value, body state answer = .inr value ∧ bad value) :
    Doomed medium bad (Program.iterate call body state) := by
  refine .of_call (Program.view_iterate call body state) ?_
  intro answer refusal
  rcases refused answer refusal with again | ⟨value, leaves, isBad⟩
  · left
    rw [again]
    rfl
  · right
    rw [leaves]
    exact .done isBad

/-- What one iteration of a loop that reads `data` does after `count` bytes. -/
structure ReadLoop (medium : Medium Error) (bad : α → Prop) (size : σ → Nat)
    (body : σ → ReadAnswer Byte Error → σ ⊕ α) (state : Nat → σ) (data : List Byte)
    (result : α) : Prop where
  positive : ∀ count < data.length, 0 < size (state count)
  bounded : ∀ count < data.length, size (state count) ≤ data.length - count
  onward : ∀ count more, 0 < more → more ≤ size (state count) → count + more < data.length →
    body (state count) (.received ((data.drop count).take more)) = .inl (state (count + more))
  finish : ∀ count more, 0 < more → more ≤ size (state count) → count + more = data.length →
    body (state count) (.received ((data.drop count).take more)) = .inr result
  blocked : ∀ count < data.length,
    body (state count) (.failed medium.readBlocked) = .inl (state count)
  broken : ∀ count < data.length, ∀ error, medium.fatal error →
    body (state count) (.failed error) = .inl (state count) ∨
      ∃ value, body (state count) (.failed error) = .inr value ∧ bad value

private theorem ReadLoop.follows_from {medium : Medium Error} {me : Side} {results : Results α}
    {size : σ → Nat} {body : σ → ReadAnswer Byte Error → σ ⊕ α} {state : Nat → σ}
    {data : List Byte} {result : α}
    (loop : ReadLoop medium results.bad size body state data result)
    (isGood : results.good result) {count : Nat} (started : count < data.length) :
    Follows medium me results (saying me.other (data.drop count))
      (Program.iterate (fun state => StreamCall.read (size state)) body (state count)) := by
  have doomed : ∀ done < data.length, Doomed medium results.bad
      (Program.iterate (fun state => StreamCall.read (size state)) body (state done)) := by
    intro done inside
    apply Doomed.iterate
    intro answer refusal
    cases refusal with
    | read fatal => exact loop.broken done inside _ fatal
  obtain ⟨left, remaining⟩ : ∃ left, data.length - count = left := ⟨_, rfl⟩
  induction left using Nat.strongRecOn generalizing count with
  | ind left ih =>
      have rest : saying me.other (data.drop count) =
          saying me.other (data.drop count) ++ ([] : Conversation Byte) := by simp
      rw [rest]
      refine .read (Program.view_iterate _ _ _) (loop.positive count started) ?_ ?_ ?_ ?_
      · rw [List.length_drop]
        exact loop.bounded count started
      · intro more positive short
        have inside := loop.bounded count started
        rw [List.drop_drop, List.append_nil]
        by_cases last : count + more = data.length
        · rw [loop.finish count more positive short last, last, List.drop_length]
          exact .of_done isGood
        · have before : count + more < data.length := by omega
          rw [loop.onward count more positive short before]
          exact ih (data.length - (count + more)) (by omega) before rfl
      · rw [loop.blocked count started]
        rfl
      · intro error fatal
        exact (doomed count started).resume (Program.view_iterate _ _ _) (.read fatal)

theorem ReadLoop.follows {medium : Medium Error} (me : Side) (results : Results α)
    {size : σ → Nat} {body : σ → ReadAnswer Byte Error → σ ⊕ α} {state : Nat → σ}
    {data : List Byte} {result : α}
    (loop : ReadLoop medium results.bad size body state data result)
    (isGood : results.good result) (some : data ≠ []) :
    Follows medium me results (saying me.other data)
      (Program.iterate (fun state => StreamCall.read (size state)) body (state 0)) :=
  loop.follows_from isGood (List.length_pos_of_ne_nil some)

/-- What one iteration of a loop that writes `data` does after `count` bytes. -/
structure WriteLoop (medium : Medium Error) (bad : α → Prop) (unsent : σ → List Byte)
    (body : σ → WriteAnswer Error → σ ⊕ α) (state : Nat → σ) (data : List Byte)
    (result : α) : Prop where
  unsent : ∀ count < data.length, unsent (state count) = data.drop count
  onward : ∀ count more, 0 < more → count + more < data.length →
    body (state count) (.accepted more) = .inl (state (count + more))
  finish : ∀ count more, 0 < more → count + more = data.length →
    body (state count) (.accepted more) = .inr result
  blocked : ∀ count < data.length,
    body (state count) (.failed medium.writeBlocked) = .inl (state count)
  broken : ∀ count < data.length, ∀ error, medium.fatal error →
    body (state count) (.failed error) = .inl (state count) ∨
      ∃ value, body (state count) (.failed error) = .inr value ∧ bad value

private theorem WriteLoop.follows_from {medium : Medium Error} {me : Side} {results : Results α}
    {unsent : σ → List Byte} {body : σ → WriteAnswer Error → σ ⊕ α} {state : Nat → σ}
    {data : List Byte} {result : α}
    (loop : WriteLoop medium results.bad unsent body state data result)
    (isGood : results.good result) {count : Nat} (started : count < data.length) :
    Follows medium me results (saying me (data.drop count))
      (Program.iterate (fun state => StreamCall.write (unsent state)) body (state count)) := by
  have doomed : ∀ done < data.length, Doomed medium results.bad
      (Program.iterate (fun state => StreamCall.write (unsent state)) body (state done)) := by
    intro done inside
    apply Doomed.iterate
    intro answer refusal
    cases refusal with
    | write fatal => exact loop.broken done inside _ fatal
  obtain ⟨left, remaining⟩ : ∃ left, data.length - count = left := ⟨_, rfl⟩
  induction left using Nat.strongRecOn generalizing count with
  | ind left ih =>
      have rest : saying me (data.drop count) =
          saying me (unsent (state count)) ++ ([] : Conversation Byte) := by
        rw [loop.unsent count started, List.append_nil]
      rw [rest]
      refine .write (fun _ => True) (Program.view_iterate _ _ _) ?_ trivial ?_ ?_ ?_ ?_
      · rw [loop.unsent count started, Ne, List.drop_eq_nil_iff]
        omega
      · intro more positive short _
        rw [loop.unsent count started, List.length_drop] at short
        rw [loop.unsent count started, List.drop_drop, List.append_nil]
        by_cases last : count + more = data.length
        · rw [loop.finish count more positive last, last, List.drop_length]
          exact .of_done isGood
        · have before : count + more < data.length := by omega
          rw [loop.onward count more positive before]
          exact ih (data.length - (count + more)) (by omega) before rfl
      · intro _ _ _ stops
        exact absurd trivial stops
      · left
        rw [loop.blocked count started]
        rfl
      · intro error fatal
        exact (doomed count started).resume (Program.view_iterate _ _ _) (.write fatal)

theorem WriteLoop.follows {medium : Medium Error} (me : Side) (results : Results α)
    {unsent : σ → List Byte} {body : σ → WriteAnswer Error → σ ⊕ α} {state : Nat → σ}
    {data : List Byte} {result : α}
    (loop : WriteLoop medium results.bad unsent body state data result)
    (isGood : results.good result) (some : data ≠ []) :
    Follows medium me results (saying me data)
      (Program.iterate (fun state => StreamCall.write (unsent state)) body (state 0)) :=
  loop.follows_from isGood (List.length_pos_of_ne_nil some)

end Uc1Integration.Interaction
