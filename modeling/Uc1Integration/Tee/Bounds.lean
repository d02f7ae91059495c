import Uc1Integration.Tee.Boot

/-!
# Accesses to the payload

Where the handler and the copy-out that follows it read the payload. They take
offsets and sizes from the other VM as they are.
-/

set_option autoImplicit false

namespace Uc1Integration.Tee

open Interaction Transport Client

/-- The range of the payload a log entry dumps. -/
def LogEntry.dump : LogEntry → Option (Nat × Nat)
  | .hexdump a b _ => some (a.toNat, b.toNat)
  | _ => none

def Shared.dumps (shared : Shared) : List (Nat × Nat) :=
  shared.log.filterMap LogEntry.dump

/-- The ranges read by the handler and then by `cpy_last_result`, each with its size. -/
def accesses (call : CallName) (own : Own) (shared : Shared) : List (Nat × Nat) :=
  let handled := ipcIrqClientHandler { shared with log := [] }
  handled.dumps ++
    (settle mailbox (fun _ => handled.msg) (cpyLastResult call) 0 { own with copies := [] }
      handled).own.copies

def Inside (range : Nat × Nat) : Prop :=
  ∀ k < range.2, range.1 + k < vmsUsablePayloadSize

/-- Every access lies in the payload, and no portion is longer than the size
reported for its parameter. -/
structure Confined (call : CallName) (own : Own) (shared : Shared) : Prop where
  inside : ∀ range ∈ accesses call own shared, Inside range
  reported : ∀ i, ((own.record call).dataP i).len.toNat ≤
    ((ipcIrqClientHandler shared).param i).b.toNat

theorem dumps_handleParam (shared : Shared) (i : Fin vmsMaxParams) :
    (handleParam shared i).dumps =
      shared.dumps ++
        if (shared.msg.params i).IsOutput then
          [((shared.msg.params i).a.toNat, (shared.msg.params i).b.toNat)]
        else [] := by
  unfold handleParam
  dsimp only
  by_cases output : (shared.msg.params i).IsOutput
  · have typed : (shared.msg.params i).type = teeParamAttrTypeMemrefOutput.toUInt32 ∨
        (shared.msg.params i).type = teeParamAttrTypeMemrefInout.toUInt32 := output
    rw [if_pos output, if_pos typed]
    simp only [Shared.dumps, Shared.logs, Function.update_self, List.append_assoc,
      List.filterMap_append, List.append_cancel_left_eq]
    rfl
  · have typed : ¬ ((shared.msg.params i).type = teeParamAttrTypeMemrefOutput.toUInt32 ∨
        (shared.msg.params i).type = teeParamAttrTypeMemrefInout.toUInt32) := output
    rw [if_neg output, if_neg typed]
    split <;> simp [Shared.dumps, Shared.logs, LogEntry.dump]

theorem dumps_foldl_handleParam (shared : Shared) (indices : List (Fin vmsMaxParams)) :
    (indices.foldl handleParam shared).dumps =
      shared.dumps ++ (indices.filter fun i => (shared.msg.params i).IsOutput).map fun i =>
        ((shared.msg.params i).a.toNat, (shared.msg.params i).b.toNat) := by
  induction indices generalizing shared with
  | nil => simp
  | cons first rest ih =>
      rw [List.foldl_cons, ih, dumps_handleParam, msg_handleParam]
      by_cases output : (shared.msg.params first).IsOutput
      · simp [output]
      · simp [output]

/-- The parameters the copy-out uses: those of the reply only for an invocation. -/
def usedParam (shared : Shared) : Fin vmsMaxParams → Param :=
  if shared.msg.callType = teeCallTypeInvokeFunc then shared.msg.params else shared.param

theorem param_handler (shared : Shared) :
    (ipcIrqClientHandler shared).param = usedParam shared := by
  funext i
  unfold usedParam
  by_cases invoked : shared.msg.callType = teeCallTypeInvokeFunc
  · rw [if_pos invoked]
    exact congrFun (param_answered_invoke shared invoked) i
  · simp only [ipcIrqClientHandler, Shared.logs, if_neg invoked]
    split <;> rfl

theorem dumps_handler (shared : Shared) (silent : shared.log = []) :
    (ipcIrqClientHandler shared).dumps =
      if shared.msg.callType = teeCallTypeInvokeFunc then
        ((List.finRange vmsMaxParams).filter fun i => (shared.msg.params i).IsOutput).map
          fun i => ((shared.msg.params i).a.toNat, (shared.msg.params i).b.toNat)
      else [] := by
  have handled : ∀ shared : Shared, (shared.logs .handled).dumps = shared.dumps := by
    intro shared
    simp [Shared.dumps, Shared.logs, LogEntry.dump]
  by_cases invoked : shared.msg.callType = teeCallTypeInvokeFunc
  · simp only [ipcIrqClientHandler, if_pos invoked, handled, dumps_foldl_handleParam]
    simp [Shared.dumps, Shared.logs, LogEntry.dump, silent]
  · simp only [ipcIrqClientHandler, if_neg invoked, handled]
    split <;> simp [Shared.dumps, silent]

theorem accesses_eq (call : CallName) (own : Own) (shared : Shared) :
    accesses call own shared =
      (if shared.msg.callType = teeCallTypeInvokeFunc then
        ((List.finRange vmsMaxParams).filter fun i => (shared.msg.params i).IsOutput).map
          fun i => ((shared.msg.params i).a.toNat, (shared.msg.params i).b.toNat)
      else []) ++
      (List.finRange dataPortions).map fun i =>
        ((usedParam shared i).a.toNat, ((own.record call).dataP i).len.toNat) := by
  have script : cpyLastResult call = cpyLastResult call ++ [] := (List.append_nil _).symm
  have ranges : copiedRange (ipcIrqClientHandler { shared with log := [] }) (own.record call) =
      fun i => ((usedParam shared i).a.toNat, ((own.record call).dataP i).len.toNat) := by
    funext i
    rw [copiedRange, param_handler]
    rfl
  rw [accesses, dumps_handler _ rfl, script, settle_cpyLastResult, ranges]
  rfl

theorem inside_iff (range : Nat × Nat) :
    Inside range ↔ range.2 = 0 ∨ range.1 + range.2 ≤ vmsUsablePayloadSize := by
  unfold Inside
  constructor
  · intro inside
    by_cases empty : range.2 = 0
    · exact .inl empty
    · have last := inside (range.2 - 1) (by omega)
      omega
  · intro fits k before
    omega

/-- The accesses are confined exactly when the parameters fit the payload and
the record. -/
theorem confined_iff (call : CallName) {own : Own}
    (shaped : ∀ i, ((own.record call).dataP i).len = call.pattern i) (shared : Shared) :
    Confined call own shared ↔
      (shared.msg.callType = teeCallTypeInvokeFunc → ∀ i, (shared.msg.params i).IsOutput →
        (shared.msg.params i).b = 0 ∨
          (shared.msg.params i).a.toNat + (shared.msg.params i).b.toNat ≤
            vmsUsablePayloadSize) ∧
      ∀ i, (usedParam shared i).a.toNat + (call.pattern i).toNat ≤ vmsUsablePayloadSize ∧
        (call.pattern i).toNat ≤ (usedParam shared i).b.toNat := by
  have positive : ∀ i, 0 < (call.pattern i).toNat := by
    cases call <;> decide
  constructor
  · intro confined
    obtain ⟨inside, reported⟩ := confined
    rw [accesses_eq] at inside
    constructor
    · intro invoked i output
      have dumped := (inside_iff _).mp (inside ((shared.msg.params i).a.toNat,
        (shared.msg.params i).b.toNat) (by
          rw [if_pos invoked]
          refine List.mem_append_left _ (List.mem_map_of_mem ?_)
          simpa using output))
      refine dumped.imp (fun empty => ?_) id
      exact UInt64.toNat_inj.mp empty
    · intro i
      have copied := (inside_iff _).mp (inside ((usedParam shared i).a.toNat,
        ((own.record call).dataP i).len.toNat) (List.mem_append_right _
          (List.mem_map_of_mem (List.mem_finRange i))))
      have enough := reported i
      rw [param_handler] at enough
      rw [shaped i] at copied enough
      refine ⟨copied.resolve_left ?_, enough⟩
      exact Nat.ne_of_gt (positive i)
  · intro fits
    obtain ⟨dumps, copies⟩ := fits
    constructor
    · intro range member
      rw [accesses_eq] at member
      rw [inside_iff]
      cases List.mem_append.mp member with
      | inl dumped =>
          by_cases invoked : shared.msg.callType = teeCallTypeInvokeFunc
          · rw [if_pos invoked] at dumped
            obtain ⟨i, output, rfl⟩ := List.mem_map.mp dumped
            refine (dumps invoked i (by simpa using output)).imp (fun empty => ?_) id
            exact congrArg UInt64.toNat empty
          · rw [if_neg invoked] at dumped
            cases dumped
      | inr copied =>
          obtain ⟨i, _, rfl⟩ := List.mem_map.mp copied
          rw [shaped i]
          exact .inr (copies i).1
    · intro i
      rw [param_handler, shaped i]
      exact (copies i).2

def layoutReply (call : CallName) : SharedMessage :=
  { (default : SharedMessage) with
    callType := teeCallTypeInvokeFunc
    params := layout zephyrOfImage call }

theorem confined_iff_layout : Confined .init bootOwn (bootShared (layoutReply .init)) := by
  refine (confined_iff .init (fun _ => rfl) (bootShared (layoutReply .init))).mpr ⟨?_, ?_⟩
  · intro _ i _
    revert i
    decide
  · decide

def strayReply : SharedMessage :=
  { (default : SharedMessage) with
    callType := teeCallTypeInvokeFunc
    params := fun _ => ⟨teeParamAttrTypeMemrefOutput, 5000, 32, 0⟩ }

theorem not_confined_stray :
    ¬ Confined .init bootOwn (bootShared strayReply) := by
  intro confined
  have copied := confined.inside (5000, 32) (by
    rw [accesses_eq]
    exact List.mem_append_right _ (List.mem_map.mpr ⟨0, List.mem_finRange 0, rfl⟩))
  exact absurd (copied 0 (by decide)) (by decide)

end Uc1Integration.Tee
