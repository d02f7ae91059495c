import Uc1Integration.Tee.Boot

/-!
# Stale data in the payload

What the TEE finds in the slots of a request: a call clears at most the first
1024 bytes of the payload, the last two slots lie behind them.
-/

set_option autoImplicit false

namespace Uc1Integration.Tee

open Interaction Transport Client

theorem isInput_layout_iff (zephyr : Zephyr) (call : CallName) (i : Fin vmsMaxParams) :
    (layout zephyr call i).IsInput ↔ i ∈ fills call := by
  change ((attrOf call i &&& teeParamAttrTypeMask).toUInt32 =
      teeParamAttrTypeMemrefInput.toUInt32 ∨
    (attrOf call i &&& teeParamAttrTypeMask).toUInt32 =
      teeParamAttrTypeMemrefInout.toUInt32) ↔ i ∈ fills call
  revert i
  cases call <;> decide

theorem a_layout (zephyr : Zephyr) (call : CallName) (i : Fin vmsMaxParams) :
    (layout zephyr call i).a.toNat = vmsMemrefOffset i := by
  change (vmsMemrefOffset i).toUInt64.toNat = vmsMemrefOffset i
  revert i
  decide

theorem apart_sizeOf (call : CallName) :
    Apart vmsMemrefOffset fun i => (sizeOf call i).toNat := by
  unfold Apart
  cases call <;> decide

theorem unfilled_behind {call : CallName} (clears : call ≠ .init) {i : Fin vmsMaxParams}
    (unfilled : i ∉ fills call) : 1024 ≤ vmsMemrefOffset i := by
  revert i
  cases call with
  | init => exact absurd rfl clears
  | commitment => decide
  | proofs => decide

theorem cleared_unfilled {call : CallName} (payload : Nat → UInt8) {i : Fin vmsMaxParams}
    (unfilled : i ∉ fills call) (k : Nat) :
    cleared call payload (vmsMemrefOffset i + k) = payload (vmsMemrefOffset i + k) := by
  by_cases init : call = .init
  · subst init
    rfl
  · have behind := unfilled_behind init unfilled
    have past : 0 + 1024 ≤ vmsMemrefOffset i + k := by omega
    cases call with
    | init => exact absurd rfl init
    | commitment =>
        change fill payload 0 1024 (fun _ => 0) _ = _
        exact fill_of_le past
    | proofs =>
        change fill payload 0 1024 (fun _ => 0) _ = _
        exact fill_of_le past

/-- A slot of a request holds the call's own bytes, or what was there before. -/
theorem prepared_add (call : CallName) (record : FuncCall) (payload : Nat → UInt8)
    (i : Fin vmsMaxParams) {k : Nat} (inside : k < (sizeOf call i).toNat) :
    prepared call record payload (vmsMemrefOffset i + k) =
      if i ∈ fills call then (record.dataP i).byteAt k else payload (vmsMemrefOffset i + k) := by
  rw [prepared, fillSlots_add (apart_sizeOf call) _ _ _ _ inside]
  by_cases filled : i ∈ fills call
  · rw [if_pos filled, if_pos filled]
  · rw [if_neg filled, if_neg filled, cleared_unfilled payload filled]

def Shared.withPayload (shared : Shared) (payload : Nat → UInt8) : Shared :=
  { shared with msg := { shared.msg with payload } }

/-- Two requests show the same bytes in every slot: the inputs of the call, and
zeros elsewhere. -/
structure Fresh (record : FuncCall) (request request' : SharedMessage) : Prop where
  same : ∀ i, (request.params i).slot request.payload =
    (request'.params i).slot request'.payload
  own : ∀ i, ∀ k < (request.params i).b.toNat,
    request.payload ((request.params i).a.toNat + k) =
      if (request.params i).IsInput then (record.dataP i).byteAt k else 0

theorem request?_callPufTa {zephyr : Zephyr} (dispatches : zephyr.Dispatches) (call : CallName)
    (own : Own) (shared : Shared) :
    request? mailbox (callPufTa zephyr call) own shared =
      some (request zephyr call (own.record call) own.sessionId shared.msg) := by
  have settled := settle_callPufTa (fun _ => default) [] 0 own shared call
    (dispatches.accepts (.invokeFunc call))
  rw [List.append_nil] at settled
  rw [request?_eq mailbox (fun _ => default) _ 0, settled]
  rfl

/-- A call leaves no stale data exactly when the slots it does not fill were
zero in both shared memories. -/
theorem fresh_iff {zephyr : Zephyr} (dispatches : zephyr.Dispatches) (call : CallName)
    (own : Own) (shared : Shared) (payload payload' : Nat → UInt8) :
    (∃ request request',
      request? mailbox (callPufTa zephyr call) own (shared.withPayload payload) = some request ∧
      request? mailbox (callPufTa zephyr call) own (shared.withPayload payload') =
        some request' ∧
      Fresh (own.record call) request request') ↔
    ∀ i ∉ fills call, ∀ k < (sizeOf call i).toNat,
      payload (vmsMemrefOffset i + k) = 0 ∧ payload' (vmsMemrefOffset i + k) = 0 := by
  simp only [request?_callPufTa dispatches, Option.some.injEq]
  constructor
  · intro holds i unfilled k inside
    obtain ⟨_, _, rfl, rfl, fresh⟩ := holds
    have noInput : ¬ (layout zephyr call i).IsInput := by
      rw [isInput_layout_iff]
      exact unfilled
    have zero : prepared call (own.record call) payload ((layout zephyr call i).a.toNat + k) =
        if (layout zephyr call i).IsInput then ((own.record call).dataP i).byteAt k else 0 :=
      fresh.own i k inside
    have equal : prepared call (own.record call) payload ((layout zephyr call i).a.toNat + k) =
        prepared call (own.record call) payload' ((layout zephyr call i).a.toNat + k) :=
      slice_eq_iff.mp (fresh.same i) k inside
    rw [a_layout, prepared_add call _ _ i inside, if_neg unfilled] at zero equal
    rw [if_neg noInput] at zero
    rw [prepared_add call _ _ i inside, if_neg unfilled] at equal
    exact ⟨zero, equal.symm.trans zero⟩
  · intro zero
    refine ⟨_, _, rfl, rfl, ?_⟩
    constructor
    · intro i
      refine slice_eq_iff.mpr fun k inside => ?_
      change prepared call (own.record call) payload ((layout zephyr call i).a.toNat + k) =
        prepared call (own.record call) payload' ((layout zephyr call i).a.toNat + k)
      rw [a_layout, prepared_add call _ _ i inside, prepared_add call _ _ i inside]
      by_cases filled : i ∈ fills call
      · rw [if_pos filled, if_pos filled]
      · obtain ⟨here, there⟩ := zero i filled k inside
        rw [if_neg filled, if_neg filled]
        exact here.trans there.symm
    · intro i k inside
      change prepared call (own.record call) payload ((layout zephyr call i).a.toNat + k) =
        if (layout zephyr call i).IsInput then ((own.record call).dataP i).byteAt k else 0
      rw [a_layout, prepared_add call _ _ i inside]
      by_cases filled : i ∈ fills call
      · rw [if_pos filled, if_pos ((isInput_layout_iff zephyr call i).mpr filled)]
      · rw [if_neg filled, if_neg fun input => filled ((isInput_layout_iff zephyr call i).mp input)]
        exact (zero i filled k inside).1

/-- What stays of an earlier payload behind a call that fills its slots below `1024`. -/
def leftBelow (left : UInt8) (i : Nat) : UInt8 :=
  if i < 1024 then left else 0

/-- A commitment shows nothing of two payloads that differ in what they leave below
`1024`. -/
theorem fresh_iff_boot :
    leftBelow 1 ≠ leftBelow 2 ∧
    ∃ request request',
      request? mailbox (callPufTa zephyrOfImage .commitment) bootOwn
        ((bootShared default).withPayload (leftBelow 1)) = some request ∧
      request? mailbox (callPufTa zephyrOfImage .commitment) bootOwn
        ((bootShared default).withPayload (leftBelow 2)) = some request' ∧
      Fresh (bootOwn.record .commitment) request request' := by
  have differ : leftBelow 1 ≠ leftBelow 2 :=
    fun same => absurd (congrFun same 0) (by decide)
  refine ⟨differ, (fresh_iff zephyrOfImage_dispatches .commitment bootOwn (bootShared default)
    (leftBelow 1) (leftBelow 2)).mpr ?_⟩
  intro i unfilled k _
  have behind : ¬ vmsMemrefOffset i + k < 1024 := by
    have clears : CallName.commitment ≠ .init := nofun
    have start := unfilled_behind clears unfilled
    omega
  exact ⟨if_neg behind, if_neg behind⟩

/-- The third slot still shows a byte of an earlier payload. -/
theorem not_fresh_ones :
    ¬ ∃ request request',
      request? mailbox (callPufTa zephyrOfImage .commitment) bootOwn
        ((bootShared default).withPayload fun _ => 1) = some request ∧
      request? mailbox (callPufTa zephyrOfImage .commitment) bootOwn
        ((bootShared default).withPayload fun _ => 0) = some request' ∧
      Fresh (bootOwn.record .commitment) request request' := by
  intro holds
  obtain ⟨request, _, asked, _, fresh⟩ := holds
  rw [request?_callPufTa zephyrOfImage_dispatches] at asked
  cases asked
  have byte := fresh.own 2 0 (by decide)
  exact absurd byte (by decide +kernel)

end Uc1Integration.Tee
