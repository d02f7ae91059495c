import Mathlib.Algebra.GroupWithZero.Nat
import Mathlib.Data.Fin.VecNotation
import Mathlib.Data.List.FinRange
import Mathlib.Logic.Function.Basic

/-!
# The shared message

The GlobalPlatform message in the memory a client VM shares with the TEE VM, as
laid out in `crosscon_hv_config.h`. The payload is indexed by any natural
number: what lies behind its end is memory too.
-/

set_option autoImplicit false

namespace Uc1Integration.Tee

abbrev vmsMaxParams : Nat := 4

instance : NeZero vmsMaxParams := ⟨Nat.succ_ne_zero 3⟩

def vmsIpcFullSize : Nat := 0x1000

def sizeofOpenSessionArgs : Nat := 16 + 16 + 6 * 4

def sizeofInvokeArgs : Nat := 6 * 4

def sizeofParam : Nat := 4 * 8

def vmsHeaderSize (sizeofCallType : Nat) : Nat :=
  sizeofCallType + sizeofOpenSessionArgs + sizeofInvokeArgs + vmsMaxParams * sizeofParam

/-- The space left for the payload, rounded down to a multiple of four. -/
def payloadSpace (sizeofCallType : Nat) : Nat :=
  (vmsIpcFullSize - vmsHeaderSize sizeofCallType) / 4 * 4

def vmsUsablePayloadSize : Nat := 3884

/-- The size of the enumeration, one byte or four, makes no difference. -/
theorem payloadSpace_eq : payloadSpace 1 = vmsUsablePayloadSize ∧
    payloadSpace 4 = vmsUsablePayloadSize := by
  decide

def vmsMemrefSlotSize : Nat := vmsUsablePayloadSize / vmsMaxParams

def vmsMemrefOffset (i : Fin vmsMaxParams) : Nat := i * vmsMemrefSlotSize

def teeCallTypeInvokeFunc : UInt32 := 0

def teeCallTypeOpenSession : UInt32 := 1

def teeCallTypeCloseSession : UInt32 := 2

def teeParamAttrTypeNone : UInt64 := 0

def teeParamAttrTypeValueOutput : UInt64 := 2

def teeParamAttrTypeValueInout : UInt64 := 3

def teeParamAttrTypeMemrefInput : UInt64 := 5

def teeParamAttrTypeMemrefOutput : UInt64 := 6

def teeParamAttrTypeMemrefInout : UInt64 := 7

def teeParamAttrTypeMask : UInt64 := 0xFF

def teeSuccess : UInt32 := 0

def teeIoctlLoginUser : UInt32 := 1

def teeUuidLen : Nat := 16

abbrev Uuid := List UInt8

structure InvokeArgs where
  func : UInt32
  session : UInt32
  cancelId : UInt32
  ret : UInt32
  retOrigin : UInt32
  paramTypes : UInt32
  deriving DecidableEq, Inhabited, Repr

structure Param where
  attr : UInt64
  a : UInt64
  b : UInt64
  c : UInt64
  deriving DecidableEq, Inhabited, Repr

structure OpenSessionArgs where
  uuid : Uuid
  clntUuid : Uuid
  clntLogin : UInt32
  cancelId : UInt32
  session : UInt32
  ret : UInt32
  retOrigin : UInt32
  paramTypes : UInt32
  deriving DecidableEq, Inhabited

/-- `GP_SharedMessage`. -/
structure SharedMessage where
  callType : UInt32
  sessionArgs : OpenSessionArgs
  invokeArgs : InvokeArgs
  params : Fin vmsMaxParams → Param
  payload : Nat → UInt8
  deriving Inhabited

/-- `attr & TEE_PARAM_ATTR_TYPE_MASK`, as a `uint32_t`. -/
def Param.type (param : Param) : UInt32 :=
  (param.attr &&& teeParamAttrTypeMask).toUInt32

/-- The TEE may read what a client puts into the slot. -/
def Param.IsInput (param : Param) : Prop :=
  param.type = teeParamAttrTypeMemrefInput.toUInt32 ∨
    param.type = teeParamAttrTypeMemrefInout.toUInt32

instance (param : Param) : Decidable param.IsInput :=
  inferInstanceAs (Decidable (_ ∨ _))

/-- The TEE may write its results into the slot. -/
def Param.IsOutput (param : Param) : Prop :=
  param.type = teeParamAttrTypeMemrefOutput.toUInt32 ∨
    param.type = teeParamAttrTypeMemrefInout.toUInt32

instance (param : Param) : Decidable param.IsOutput :=
  inferInstanceAs (Decidable (_ ∨ _))

def crossconParamTypes (t0 t1 t2 t3 : UInt32) : UInt32 :=
  let nibble : UInt32 → UInt32 := fun t => t &&& 0xF
  nibble t0 ||| nibble t1 <<< 4 ||| nibble t2 <<< 8 ||| nibble t3 <<< 12

/-- A payload after `size` bytes of `source` have been copied to `start`. -/
def fill (payload : Nat → UInt8) (start size : Nat) (source : Nat → UInt8) : Nat → UInt8 :=
  fun index =>
    if start ≤ index ∧ index < start + size then source (index - start) else payload index

def slice (payload : Nat → UInt8) (start size : Nat) : List UInt8 :=
  (List.range size).map fun k => payload (start + k)

/-- `[a, a + b)` as natural numbers. -/
def Param.slot (param : Param) (payload : Nat → UInt8) : List UInt8 :=
  slice payload param.a.toNat param.b.toNat

/-- Four updates, one for each parameter, leave nothing of what was there. -/
theorem update_params {α : Type} (entries params : Fin vmsMaxParams → α) :
    Function.update (Function.update (Function.update (Function.update entries 0 (params 0))
      1 (params 1)) 2 (params 2)) 3 (params 3) = params := by
  funext i
  match i with
  | 0 => rfl
  | 1 => rfl
  | 2 => rfl
  | 3 => rfl

theorem fill_of_lt {payload source : Nat → UInt8} {start size index : Nat}
    (before : index < start) : fill payload start size source index = payload index := by
  rw [fill, if_neg]
  omega

theorem fill_of_le {payload source : Nat → UInt8} {start size index : Nat}
    (behind : start + size ≤ index) : fill payload start size source index = payload index := by
  rw [fill, if_neg]
  omega

theorem fill_add {payload source : Nat → UInt8} {start size k : Nat} (inside : k < size) :
    fill payload start size source (start + k) = source k := by
  rw [fill, if_pos ⟨by omega, by omega⟩, Nat.add_sub_cancel_left]

/-- A payload after several of its slots have been filled. -/
def fillSlots {ι : Type} (start size : ι → Nat) (source : ι → Nat → UInt8) (slots : List ι)
    (payload : Nat → UInt8) : Nat → UInt8 :=
  slots.foldl (fun payload i => fill payload (start i) (size i) (source i)) payload

/-- Slots that do not overlap. -/
def Apart {ι : Type} (start size : ι → Nat) : Prop :=
  ∀ i j, i ≠ j → start i + size i ≤ start j ∨ start j + size j ≤ start i

theorem fillSlots_add {ι : Type} [DecidableEq ι] {start size : ι → Nat}
    (apart : Apart start size) (source : ι → Nat → UInt8) (slots : List ι)
    (payload : Nat → UInt8) (i : ι) {k : Nat} (inside : k < size i) :
    fillSlots start size source slots payload (start i + k) =
      if i ∈ slots then source i k else payload (start i + k) := by
  induction slots generalizing payload with
  | nil => simp [fillSlots]
  | cons first rest ih =>
      have next := ih (fill payload (start first) (size first) (source first))
      rw [fillSlots, List.foldl_cons]
      refine next.trans ?_
      by_cases later : i ∈ rest
      · simp [later]
      · rw [if_neg later]
        by_cases here : i = first
        · subst here
          rw [fill_add inside, if_pos List.mem_cons_self]
        · rw [if_neg (by simp [here, later])]
          obtain before | behind := apart i first here
          · exact fill_of_lt (by omega)
          · exact fill_of_le (by omega)

@[simp] theorem length_slice (payload : Nat → UInt8) (start size : Nat) :
    (slice payload start size).length = size := by
  simp [slice]

theorem slice_eq_iff {payload payload' : Nat → UInt8} {start start' size : Nat} :
    slice payload start size = slice payload' start' size ↔
      ∀ k < size, payload (start + k) = payload' (start' + k) := by
  rw [slice, slice, List.map_inj_left]
  constructor
  · intro same k inside
    exact same k (List.mem_range.mpr inside)
  · intro same k member
    exact same k (List.mem_range.mp member)

end Uc1Integration.Tee
