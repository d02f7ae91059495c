import Mathlib.Data.List.Basic

/-! A queue of bounded capacity, which refuses what it has no room for. -/

set_option autoImplicit false

namespace Uc1Integration.Interaction

structure BoundedQueue (capacity : Nat) (α : Type) where
  items : List α
  bound : items.length ≤ capacity

namespace BoundedQueue

variable {capacity : Nat} {α : Type}

def empty : BoundedQueue capacity α :=
  ⟨[], Nat.zero_le capacity⟩

theorem put_bound {items : List α} (room : items.length < capacity) (item : α) :
    (items ++ [item]).length ≤ capacity := by
  rw [List.length_append, List.length_singleton]
  exact room

def put (queue : BoundedQueue capacity α) (item : α) : Option (BoundedQueue capacity α) :=
  if room : queue.items.length < capacity then some ⟨queue.items ++ [item], put_bound room item⟩
  else none

theorem get_bound {item : α} {rest : List α} (bound : (item :: rest).length ≤ capacity) :
    rest.length ≤ capacity :=
  Nat.le_of_succ_le bound

def get : BoundedQueue capacity α → Option (α × BoundedQueue capacity α)
  | ⟨[], _⟩ => none
  | ⟨item :: rest, bound⟩ => some (item, ⟨rest, get_bound bound⟩)

/-- A full queue stays as it is. -/
theorem items_put (queue : BoundedQueue capacity α) (item : α) :
    ((queue.put item).getD queue).items =
      queue.items ++ if queue.items.length = capacity then [] else [item] := by
  rw [put]
  split
  next room => rw [if_neg (Nat.ne_of_lt room), Option.getD_some]
  next full =>
    have all : queue.items.length = capacity := Nat.le_antisymm queue.bound (Nat.not_lt.mp full)
    rw [if_pos all, List.append_nil, Option.getD_none]

theorem items_of_get {queue rest : BoundedQueue capacity α} {item : α}
    (taken : queue.get = some (item, rest)) : queue.items = item :: rest.items := by
  obtain ⟨items, bound⟩ := queue
  cases items with
  | nil => cases taken
  | cons first later =>
      cases taken
      rfl

end BoundedQueue

end Uc1Integration.Interaction
