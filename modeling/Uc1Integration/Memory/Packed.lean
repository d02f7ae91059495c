import Mathlib.Data.Nat.Digits.Defs

/-!
# Packed memory

Values laid out in memory byte after byte, without padding. A codec is a
bijection between the valid values of a type and the contents of some number of
bytes; a place is where a part of a larger value lies.
-/

set_option autoImplicit false

namespace Uc1Integration.Memory

variable {α β γ σ τ : Type}

/-- Memory, from some address on. -/
abbrev Bytes := Nat → UInt8

namespace Bytes

def behind (memory : Bytes) (offset : Nat) : Bytes :=
  fun k => memory (offset + k)

/-- The first `width` bytes of `source`, copied to `offset`. -/
def copy (memory : Bytes) (offset width : Nat) (source : Bytes) : Bytes :=
  fun index =>
    if offset ≤ index ∧ index < offset + width then source (index - offset) else memory index

variable {memory source source' : Bytes} {offset width : Nat}

theorem copy_of_lt {index : Nat} (before : index < offset) :
    memory.copy offset width source index = memory index := by
  rw [copy, if_neg]
  omega

theorem copy_of_le {index : Nat} (after : offset + width ≤ index) :
    memory.copy offset width source index = memory index := by
  rw [copy, if_neg]
  omega

theorem copy_add {k : Nat} (inside : k < width) :
    memory.copy offset width source (offset + k) = source k := by
  rw [copy, if_pos ⟨by omega, by omega⟩, Nat.add_sub_cancel_left]

theorem copy_congr (same : ∀ k < width, source k = source' k) :
    memory.copy offset width source = memory.copy offset width source' := by
  funext index
  unfold copy
  split
  next inside => exact same _ (by omega)
  next => rfl

theorem behind_behind (memory : Bytes) (first second : Nat) :
    (memory.behind first).behind second = memory.behind (first + second) := by
  funext k
  exact congrArg memory (Nat.add_assoc first second k).symm

@[simp] theorem behind_zero (memory : Bytes) : memory.behind 0 = memory := by
  funext k
  exact congrArg memory (Nat.zero_add k)

/-- What is copied beyond an address is copied to the memory from there on. -/
theorem behind_copy (memory source : Bytes) (start offset width : Nat) :
    (memory.copy (start + offset) width source).behind start =
      (memory.behind start).copy offset width source := by
  funext k
  unfold behind copy
  by_cases inside : offset ≤ k ∧ k < offset + width
  · rw [if_pos inside, if_pos (by omega)]
    exact congrArg source (by omega)
  · rw [if_neg inside, if_neg (by omega)]

/-- What is copied before an address leaves the memory from there on alone. -/
theorem behind_copy_of_le {start : Nat} (before : offset + width ≤ start) :
    (memory.copy offset width source).behind start = memory.behind start := by
  funext k
  exact copy_of_le (by omega)

/-- A part of a region, copied on its own or with the region around it. -/
theorem copy_within {start size : Nat} (fits : offset + width ≤ size) {region : Bytes}
    (same : ∀ k < size, region k = (memory.behind start).copy offset width source k) :
    memory.copy (start + offset) width source = memory.copy start size region := by
  funext index
  by_cases before : index < start
  · rw [copy_of_lt (by omega), copy_of_lt before]
  · by_cases after : start + size ≤ index
    · rw [copy_of_le (by omega), copy_of_le after]
    · obtain ⟨k, rfl⟩ := Nat.exists_eq_add_of_le (Nat.le_of_not_lt before)
      have inside : k < size := by omega
      rw [copy_add inside, same k inside, ← behind_copy]
      rfl

/-- `rest` after the first `width` bytes of `front`. -/
def andThen (front : Bytes) (width : Nat) (rest : Bytes) : Bytes :=
  fun k => if k < width then front k else rest (k - width)

variable {front rest : Bytes}

theorem andThen_of_lt {k : Nat} (inside : k < width) : front.andThen width rest k = front k :=
  if_pos inside

theorem andThen_add (k : Nat) : front.andThen width rest (width + k) = rest k := by
  rw [andThen, if_neg (by omega), Nat.add_sub_cancel_left]

theorem behind_andThen : (front.andThen width rest).behind width = rest :=
  funext andThen_add

theorem andThen_behind (same : ∀ k < width, front k = memory k) :
    front.andThen width (memory.behind width) = memory := by
  funext k
  by_cases inside : k < width
  · rw [andThen_of_lt inside, same k inside]
  · obtain ⟨further, rfl⟩ := Nat.exists_eq_add_of_le (Nat.le_of_not_lt inside)
    exact andThen_add further

end Bytes

structure Codec (α : Type) where
  width : Nat
  encode : α → Bytes
  decode : Bytes → α
  Valid : α → Prop
  valid_decode : ∀ memory, Valid (decode memory)
  decode_encode : ∀ value, Valid value → decode (encode value) = value
  encode_decode : ∀ memory, ∀ k < width, encode (decode memory) k = memory k
  decode_congr : ∀ memory memory' : Bytes, (∀ k < width, memory k = memory' k) →
    decode memory = decode memory'

namespace Codec

/-- The first `width` bytes as a number, the least significant byte first. -/
def littleEndian (width : Nat) (memory : Bytes) : Nat :=
  Nat.ofDigits 256 ((List.range width).map fun k => (memory k).toNat)

def byteOf (number k : Nat) : UInt8 :=
  (number / 256 ^ k).toUInt8

theorem littleEndian_succ (width : Nat) (memory : Bytes) :
    littleEndian (width + 1) memory =
      (memory 0).toNat + 256 * littleEndian width (memory.behind 1) := by
  rw [littleEndian, List.range_succ_eq_map, List.map_cons, Nat.ofDigits_cons, List.map_map]
  congr 3
  rw [List.map_inj_left]
  intro k _
  exact congrArg (fun index => (memory index).toNat) (Nat.add_comm k 1)

theorem littleEndian_lt (width : Nat) (memory : Bytes) :
    littleEndian width memory < 256 ^ width := by
  have bounded : ∀ digit ∈ (List.range width).map (fun k => (memory k).toNat), digit < 256 := by
    intro digit member
    obtain ⟨k, _, rfl⟩ := List.mem_map.mp member
    exact UInt8.toNat_lt (memory k)
  have below := Nat.ofDigits_lt_base_pow_length (by decide : 1 < 256) bounded
  rwa [List.length_map, List.length_range] at below

theorem littleEndian_congr {width : Nat} {memory memory' : Bytes}
    (same : ∀ k < width, memory k = memory' k) :
    littleEndian width memory = littleEndian width memory' := by
  unfold littleEndian
  congr 1
  rw [List.map_inj_left]
  intro k member
  rw [same k (List.mem_range.mp member)]

theorem toNat_byteOf (number k : Nat) : (byteOf number k).toNat = number / 256 ^ k % 256 :=
  UInt8.toNat_ofNat'

theorem behind_byteOf (number : Nat) :
    Bytes.behind (byteOf number) 1 = byteOf (number / 256) := by
  funext k
  unfold Bytes.behind byteOf
  rw [Nat.add_comm, Nat.pow_succ', Nat.div_div_eq_div_mul]

theorem littleEndian_byteOf {width number : Nat} (small : number < 256 ^ width) :
    littleEndian width (byteOf number) = number := by
  induction width generalizing number with
  | zero =>
      rw [Nat.pow_zero, Nat.lt_one_iff] at small
      rw [small]
      rfl
  | succ width ih =>
      have smaller : number / 256 < 256 ^ width := by
        rw [Nat.div_lt_iff_lt_mul (by decide), ← Nat.pow_succ]
        exact small
      rw [littleEndian_succ, behind_byteOf, ih smaller, toNat_byteOf, Nat.pow_zero, Nat.div_one]
      exact Nat.mod_add_div number 256

theorem byteOf_littleEndian {width : Nat} (memory : Bytes) {k : Nat} (inside : k < width) :
    byteOf (littleEndian width memory) k = memory k := by
  apply UInt8.toNat_inj.mp
  rw [toNat_byteOf]
  induction width generalizing memory k with
  | zero => omega
  | succ width ih =>
      rw [littleEndian_succ]
      have byte := UInt8.toNat_lt (memory 0)
      cases k with
      | zero => omega
      | succ k =>
          have rest : ((memory 0).toNat + 256 * littleEndian width (memory.behind 1)) / 256 =
              littleEndian width (memory.behind 1) := by omega
          rw [Nat.pow_succ', ← Nat.div_div_eq_div_mul, rest, ih _ (by omega)]
          exact congrArg (fun index => (memory index).toNat) (Nat.add_comm 1 k)

def unsigned (width : Nat) : Codec Nat where
  width
  encode := byteOf
  decode := littleEndian width
  Valid := (· < 256 ^ width)
  valid_decode := littleEndian_lt width
  decode_encode := fun _ small => littleEndian_byteOf small
  encode_decode := fun memory _ inside => byteOf_littleEndian memory inside
  decode_congr := fun _ _ same => littleEndian_congr same

/-- The same bytes read as values of another type. -/
def via (codec : Codec α) (read : α → β) (raw : β → α) (Valid : β → Prop)
    (read_raw : ∀ value, Valid value → codec.Valid (raw value) ∧ read (raw value) = value)
    (raw_read : ∀ value, codec.Valid value → Valid (read value) ∧ raw (read value) = value) :
    Codec β where
  width := codec.width
  encode := fun value => codec.encode (raw value)
  decode := fun memory => read (codec.decode memory)
  Valid
  valid_decode := fun memory => (raw_read _ (codec.valid_decode memory)).1
  decode_encode := by
    intro value valid
    obtain ⟨inner, same⟩ := read_raw value valid
    rw [codec.decode_encode _ inner, same]
  encode_decode := by
    intro memory k inside
    rw [(raw_read _ (codec.valid_decode memory)).2]
    exact codec.encode_decode memory k inside
  decode_congr := fun memory memory' same => congrArg read (codec.decode_congr memory memory' same)

/-- An array of bytes. -/
def byteArray (size : Nat) : Codec (List UInt8) where
  width := size
  encode := fun bytes k => bytes.getD k 0
  decode := fun memory => (List.range size).map memory
  Valid := fun bytes => bytes.length = size
  valid_decode := by
    intro memory
    rw [List.length_map, List.length_range]
  decode_encode := by
    intro bytes length
    apply List.ext_getElem
    · rw [List.length_map, List.length_range, length]
    · intro k _ inside
      rw [List.getElem_map, List.getElem_range, List.getD_eq_getElem?_getD,
        List.getElem?_eq_getElem inside, Option.getD_some]
  encode_decode := by
    intro memory k inside
    have there : k < ((List.range size).map memory).length := by
      rwa [List.length_map, List.length_range]
    rw [List.getD_eq_getElem?_getD, List.getElem?_eq_getElem there, Option.getD_some,
      List.getElem_map, List.getElem_range]
  decode_congr := by
    intro memory memory' same
    rw [List.map_inj_left]
    intro k member
    exact same k (List.mem_range.mp member)

def uint32 : Codec UInt32 :=
  (unsigned 4).via Nat.toUInt32 UInt32.toNat (fun _ => True)
    (fun value _ => ⟨value.toNat_lt, UInt32.ofNat_toNat⟩)
    (fun _ small => ⟨trivial, UInt32.toNat_ofNat_of_lt' small⟩)

def uint64 : Codec UInt64 :=
  (unsigned 8).via Nat.toUInt64 UInt64.toNat (fun _ => True)
    (fun value _ => ⟨value.toNat_lt, UInt64.ofNat_toNat⟩)
    (fun _ small => ⟨trivial, UInt64.toNat_ofNat_of_lt' small⟩)

/-- One value after another. -/
def prod (first : Codec α) (second : Codec β) : Codec (α × β) where
  width := first.width + second.width
  encode := fun both => (first.encode both.1).andThen first.width (second.encode both.2)
  decode := fun memory => (first.decode memory, second.decode (memory.behind first.width))
  Valid := fun both => first.Valid both.1 ∧ second.Valid both.2
  valid_decode := fun _ => ⟨first.valid_decode _, second.valid_decode _⟩
  decode_encode := by
    intro both valid
    rw [Bytes.behind_andThen, second.decode_encode both.2 valid.2]
    rw [first.decode_congr _ _ fun _ inside => Bytes.andThen_of_lt inside,
      first.decode_encode both.1 valid.1]
  encode_decode := by
    intro memory k inside
    by_cases front : k < first.width
    · rw [Bytes.andThen_of_lt front, first.encode_decode memory k front]
    · obtain ⟨rest, rfl⟩ := Nat.exists_eq_add_of_le (Nat.le_of_not_lt front)
      rw [Bytes.andThen_add, second.encode_decode _ rest (by omega)]
      rfl
  decode_congr := by
    intro memory memory' same
    rw [first.decode_congr memory memory' fun k inside => same k (by omega),
      second.decode_congr (memory.behind first.width) (memory'.behind first.width)
        fun k inside => same (first.width + k) (by omega)]

/-- An array of `count` values. -/
def array (count : Nat) (item : Codec α) : Codec (Fin count → α) where
  width := count * item.width
  encode := fun values k =>
    if inside : k / item.width < count then
      item.encode (values ⟨k / item.width, inside⟩) (k % item.width)
    else 0
  decode := fun memory i => item.decode (memory.behind (i * item.width))
  Valid := fun values => ∀ i, item.Valid (values i)
  valid_decode := fun _ _ => item.valid_decode _
  decode_encode := by
    intro values valid
    funext i
    refine (item.decode_congr _ (item.encode (values i)) ?_).trans
      (item.decode_encode _ (valid i))
    intro k inside
    have quotient : (i * item.width + k) / item.width = i := by
      rw [Nat.mul_comm, Nat.mul_add_div (by omega), Nat.div_eq_of_lt inside, Nat.add_zero]
    have remainder : (i * item.width + k) % item.width = k := by
      rw [Nat.mul_comm, Nat.mul_add_mod, Nat.mod_eq_of_lt inside]
    simp only [Bytes.behind, quotient, remainder, i.isLt, ↓reduceDIte]
  encode_decode := by
    intro memory k inside
    have positive : 0 < item.width := Nat.pos_of_mul_pos_left (by omega : 0 < count * item.width)
    have there : k / item.width < count := (Nat.div_lt_iff_lt_mul positive).mpr inside
    rw [dif_pos there, item.encode_decode _ _ (Nat.mod_lt k positive)]
    exact congrArg memory (Nat.div_add_mod' k item.width)
  decode_congr := by
    intro memory memory' same
    funext i
    apply item.decode_congr
    intro k inside
    apply same
    calc
      i * item.width + k < (i + 1) * item.width := by rw [Nat.succ_mul]; omega
      _ ≤ count * item.width := Nat.mul_le_mul_right _ i.isLt

end Codec

end Uc1Integration.Memory
