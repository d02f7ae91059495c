import Uc1Integration.Memory.Packed

/-!
# Places in packed memory

A view is what some memory stands for. A place in it is a part that can be read
and written in the memory itself.
-/

set_option autoImplicit false

namespace Uc1Integration.Memory

variable {α β σ τ : Type}

structure Place (view : Bytes → σ) (codec : Codec α) where
  offset : Nat
  get : σ → α
  set : α → σ → σ
  get_view : ∀ memory, get (view memory) = codec.decode (memory.behind offset)
  view_copy : ∀ memory value, codec.Valid value →
    view (memory.copy offset codec.width (codec.encode value)) = set value (view memory)

namespace Place

section ReadWrite

variable {view : Bytes → σ} {codec : Codec α}

def read (place : Place view codec) (memory : Bytes) : α :=
  codec.decode (memory.behind place.offset)

def write (place : Place view codec) (value : α) (memory : Bytes) : Bytes :=
  memory.copy place.offset codec.width (codec.encode value)

theorem read_eq (place : Place view codec) (memory : Bytes) :
    place.read memory = place.get (view memory) :=
  (place.get_view memory).symm

theorem view_write (place : Place view codec) {value : α} (valid : codec.Valid value)
    (memory : Bytes) : view (place.write value memory) = place.set value (view memory) :=
  place.view_copy memory value valid

end ReadWrite

/-- A value, and what a further view sees behind it. -/
def both (first : Codec α) (rest : Bytes → σ) (memory : Bytes) : α × σ :=
  (first.decode memory, rest (memory.behind first.width))

/-- Memory that is copied behind the first value is copied in the further view. -/
theorem both_copy (first : Codec α) (rest : Bytes → σ) (memory source : Bytes)
    (start size : Nat) :
    both first rest (memory.copy (first.width + start) size source) =
      (first.decode memory, rest ((memory.behind first.width).copy start size source)) := by
  rw [both, Bytes.behind_copy]
  rw [first.decode_congr _ memory fun k inside => Bytes.copy_of_lt (by omega)]

def whole (codec : Codec α) : Place codec.decode codec where
  offset := 0
  get := id
  set := fun value _ => value
  get_view := fun memory => congrArg codec.decode memory.behind_zero.symm
  view_copy := by
    intro memory value valid
    refine (codec.decode_congr _ (codec.encode value) ?_).trans (codec.decode_encode value valid)
    intro k inside
    have copied : memory.copy 0 codec.width (codec.encode value) (0 + k) = _ :=
      Bytes.copy_add inside
    rwa [Nat.zero_add] at copied

def first (codec : Codec α) (rest : Bytes → σ) : Place (both codec rest) codec where
  offset := 0
  get := Prod.fst
  set := fun value pair => (value, pair.2)
  get_view := (whole codec).get_view
  view_copy := by
    intro memory value valid
    have front := (whole codec).view_copy memory value valid
    have behind : (memory.copy 0 codec.width (codec.encode value)).behind codec.width =
        memory.behind codec.width := Bytes.behind_copy_of_le (by omega)
    exact Prod.ext front (congrArg rest behind)

def second (codec : Codec α) {rest : Bytes → σ} {part : Codec β} (place : Place rest part) :
    Place (both codec rest) part where
  offset := codec.width + place.offset
  get := fun pair => place.get pair.2
  set := fun value pair => (pair.1, place.set value pair.2)
  get_view := by
    intro memory
    rw [both, place.get_view, Bytes.behind_behind]
  view_copy := by
    intro memory value valid
    rw [both_copy, place.view_copy _ value valid]
    rfl

/-- What is written and what lies behind it are seen again. -/
theorem both_andThen (codec : Codec α) (rest : Bytes → σ) {value : α}
    (valid : codec.Valid value) (memory : Bytes) :
    both codec rest ((codec.encode value).andThen codec.width memory) = (value, rest memory) := by
  rw [both, Bytes.behind_andThen]
  rw [codec.decode_congr _ _ fun _ inside => Bytes.andThen_of_lt inside,
    codec.decode_encode value valid]

theorem andThen_both (codec : Codec α) (memory : Bytes) :
    (codec.encode (codec.decode memory)).andThen codec.width (memory.behind codec.width) =
      memory :=
  Bytes.andThen_behind (codec.encode_decode memory)

def item (count : Nat) (codec : Codec α) (i : Fin count) :
    Place (Codec.array count codec).decode codec where
  offset := i * codec.width
  get := fun values => values i
  set := fun value values => Function.update values i value
  get_view := fun _ => rfl
  view_copy := by
    intro memory value valid
    funext j
    by_cases same : j = i
    · subst same
      rw [Function.update_self]
      refine Eq.trans ?_ ((whole codec).view_copy (memory.behind (j * codec.width)) value valid)
      exact congrArg codec.decode (Bytes.behind_copy memory _ (j * codec.width) 0 codec.width)
    · rw [Function.update_of_ne same]
      apply codec.decode_congr
      intro k inside
      -- slots of equal size lie one behind the other
      obtain before | after := Nat.lt_or_gt_of_ne (Fin.val_ne_of_ne same)
      · have room := Nat.mul_le_mul_right codec.width (Nat.succ_le_of_lt before)
        rw [Nat.succ_mul] at room
        exact Bytes.copy_of_lt (by omega)
      · have room := Nat.mul_le_mul_right codec.width (Nat.succ_le_of_lt after)
        rw [Nat.succ_mul] at room
        exact Bytes.copy_of_le (by omega)

/-- The same place when the view is put into another form. -/
def through {view : Bytes → σ} {codec : Codec α} (place : Place view codec) (form : σ → τ)
    (raw : τ → σ) (raw_form : ∀ value, raw (form value) = value) :
    Place (fun memory => form (view memory)) codec where
  offset := place.offset
  get := fun value => place.get (raw value)
  set := fun part value => form (place.set part (raw value))
  get_view := by
    intro memory
    rw [raw_form, place.get_view]
  view_copy := by
    intro memory value valid
    rw [raw_form, place.view_copy memory value valid]

/-- A part of a part. -/
def within {view : Bytes → σ} {region : Codec α} {part : Codec β} (outer : Place view region)
    (inner : Place region.decode part) (fits : inner.offset + part.width ≤ region.width) :
    Place view part where
  offset := outer.offset + inner.offset
  get := fun value => inner.get (outer.get value)
  set := fun value whole => outer.set (inner.set value (outer.get whole)) whole
  get_view := by
    intro memory
    rw [outer.get_view, inner.get_view, Bytes.behind_behind]
  view_copy := by
    intro memory value valid
    have changed := inner.view_copy (memory.behind outer.offset) value valid
    rw [← outer.get_view] at changed
    rw [← changed, ← outer.view_copy memory _ (region.valid_decode _)]
    congr 1
    exact Bytes.copy_within fits (region.encode_decode _)

end Place

end Uc1Integration.Memory
