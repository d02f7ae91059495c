import Uc1Integration.Tee.DriverProperties
import Uc1Integration.Tee.PufCaller

/-! The requests of `challenge_puf` and what it makes of timely replies. -/

set_option autoImplicit false

namespace Uc1Integration.Tee

open Interaction Transport Client

def callPufTa (zephyr : Zephyr) : CallName → List ClientStmt
  | .init => callPufTaInit zephyr .init
  | .commitment => callPufTaGetCommitment zephyr .commitment
  | .proofs => callPufTaGetZkProofs zephyr .proofs

def attrOf : CallName → Fin vmsMaxParams → UInt64
  | .init => ![teeParamAttrTypeMemrefOutput, teeParamAttrTypeMemrefOutput,
      teeParamAttrTypeMemrefOutput, teeParamAttrTypeMemrefOutput]
  | .commitment => ![teeParamAttrTypeMemrefInput, teeParamAttrTypeMemrefInput,
      teeParamAttrTypeMemrefOutput, teeParamAttrTypeMemrefOutput]
  | .proofs => ![teeParamAttrTypeMemrefInout, teeParamAttrTypeMemrefInout,
      teeParamAttrTypeMemrefInout, teeParamAttrTypeMemrefOutput]

def sizeOf : CallName → Fin vmsMaxParams → UInt64
  | .init => ![32, 32, 32, 32]
  | .commitment => ![32, 32, 32, 32]
  | .proofs => ![32, 32, 64, 64]

def layout (zephyr : Zephyr) (call : CallName) (i : Fin vmsMaxParams) : Param :=
  ⟨attrOf call i, (vmsMemrefOffset i).toUInt64, sizeOf call i, zephyr.ipcShm⟩

/-- The slots a call fills before its request. -/
def fills : CallName → List (Fin vmsMaxParams)
  | .init => []
  | .commitment => [0, 1]
  | .proofs => [0, 1, 2]

def cleared (call : CallName) (payload : Nat → UInt8) : Nat → UInt8 :=
  match call with
  | .init => payload
  | _ => fill payload 0 1024 fun _ => 0

def prepared (call : CallName) (record : FuncCall) (payload : Nat → UInt8) : Nat → UInt8 :=
  fillSlots vmsMemrefOffset (fun i => (sizeOf call i).toNat) (fun i => (record.dataP i).byteAt)
    (fills call) (cleared call payload)

/-- The request of a call for a session. -/
def request (zephyr : Zephyr) (call : CallName) (record : FuncCall) (session : UInt32)
    (msg : SharedMessage) : SharedMessage :=
  { msg with
    callType := teeCallTypeInvokeFunc
    invokeArgs := ⟨record.func, session, 0, 0, 0, paramTypes vmsMaxParams (layout zephyr call)⟩
    params := layout zephyr call
    payload := prepared call record msg.payload }

/-- The shared memory when the reply to a call has been handled. -/
def replied (zephyr : Zephyr) (call : CallName) (record : FuncCall) (session : UInt32)
    (shared : Shared) (reply : SharedMessage) : Shared :=
  ({ shared with
      param := layout zephyr call
      invokeFuncArg := ⟨record.func, session, 0, 0, 0⟩ } : Shared).answered reply

section Settling

variable (replies : Nat → SharedMessage) (rest : List ClientStmt) (position : Nat) (own : Own)
  (shared : Shared)

theorem settle_setParam (zephyr : Zephyr) (i : Fin vmsMaxParams) (attr b : UInt64) :
    settle mailbox replies (setParam zephyr i attr b ++ rest) position own shared =
      settle mailbox replies rest position own
        { shared with
          param := Function.update shared.param i
            ⟨attr, (vmsMemrefOffset i).toUInt64, b, zephyr.ipcShm⟩ } := by
  simp only [setParam, assign, List.cons_append, List.nil_append, settle, Function.update_self,
    Function.update_idem]

theorem settle_setInvokeFuncArg (call : CallName) :
    settle mailbox replies (setInvokeFuncArg call ++ rest) position own shared =
      settle mailbox replies rest position own
        { shared with
          invokeFuncArg := ⟨(own.record call).func, own.sessionId, 0, 0, 0⟩ } := rfl

theorem settle_invokeFunc {zephyr : Zephyr} (call : CallName)
    (accepts : zephyr.rejects (.invokeFunc call) = none) :
    settle mailbox replies (invokeFunc zephyr call ++ rest) position own shared =
      let request : SharedMessage :=
        { shared.msg with
          callType := teeCallTypeInvokeFunc
          invokeArgs :=
            ⟨shared.invokeFuncArg.func, shared.invokeFuncArg.session,
              shared.invokeFuncArg.cancelId, 0, 0, paramTypes vmsMaxParams shared.param⟩
          params := shared.param }
      (settle mailbox replies rest (position + 1) { own with res := 0 }
        (shared.answered (replies position))).after [request] := by
  rw [invokeFunc, Zephyr.call, accepts]
  exact settle_crossconHvTeeInvokeFunc replies rest position own shared Shared.invokeFuncArg
    Shared.param (fun _ => rfl) (fun _ => rfl)

theorem settle_setParams (zephyr : Zephyr) (call : CallName) :
    settle mailbox replies
        (setParam zephyr 0 (attrOf call 0) (sizeOf call 0) ++
          (setParam zephyr 1 (attrOf call 1) (sizeOf call 1) ++
            (setParam zephyr 2 (attrOf call 2) (sizeOf call 2) ++
              (setParam zephyr 3 (attrOf call 3) (sizeOf call 3) ++ rest)))) position own shared =
      settle mailbox replies rest position own { shared with param := layout zephyr call } := by
  simp only [settle_setParam]
  exact congrArg (fun param => settle mailbox replies rest position own { shared with param })
    (update_params shared.param (layout zephyr call))

theorem settle_copyToShm (call : CallName) (i : Fin vmsMaxParams) (zephyr : Zephyr)
    (set : shared.param = layout zephyr call) :
    settle mailbox replies (copyToShm call i :: rest) position own shared =
      settle mailbox replies rest position own
        { shared with
          msg :=
            { shared.msg with
              payload := fill shared.msg.payload (vmsMemrefOffset i) (sizeOf call i).toNat
                ((own.record call).dataP i).byteAt } } := by
  have offset : (vmsMemrefOffset i).toUInt64.toNat = vmsMemrefOffset i := by
    revert i
    decide
  simp only [copyToShm, assignMsg, settle, set, layout, offset]

theorem settle_callPufTa {zephyr : Zephyr} (call : CallName)
    (accepts : zephyr.rejects (.invokeFunc call) = none) :
    settle mailbox replies (callPufTa zephyr call ++ rest) position own shared =
      (settle mailbox replies rest (position + 1) { own with res := 0 }
        (replied zephyr call (own.record call) own.sessionId shared (replies position))).after
          [request zephyr call (own.record call) own.sessionId shared.msg] := by
  cases call with
  | init =>
      rw [callPufTa, callPufTaInit]
      simp only [List.append_assoc]
      refine (settle_setParams replies _ position own shared zephyr .init).trans ?_
      rw [settle_setInvokeFuncArg, settle_invokeFunc _ _ _ _ _ _ accepts]
      simp only [request, replied, prepared, fills, cleared, fillSlots, List.foldl_nil,
        Shared.answered_eq]
  | commitment =>
      rw [callPufTa, callPufTaGetCommitment]
      simp only [List.append_assoc]
      refine (settle_setParams replies _ position own shared zephyr .commitment).trans ?_
      rw [settle_setInvokeFuncArg]
      simp only [List.cons_append, List.nil_append]
      rw [clearShm, assignMsg, settle, settle_copyToShm _ _ _ _ _ _ _ zephyr rfl,
        settle_copyToShm _ _ _ _ _ _ _ zephyr rfl, settle_invokeFunc _ _ _ _ _ _ accepts]
      simp only [request, replied, prepared, fills, cleared, fillSlots, List.foldl_cons,
        List.foldl_nil, Shared.answered_eq]
  | proofs =>
      rw [callPufTa, callPufTaGetZkProofs]
      simp only [List.append_assoc]
      refine (settle_setParams replies _ position own shared zephyr .proofs).trans ?_
      rw [settle_setInvokeFuncArg]
      simp only [List.cons_append, List.nil_append]
      rw [clearShm, assignMsg, settle, settle_copyToShm _ _ _ _ _ _ _ zephyr rfl,
        settle_copyToShm _ _ _ _ _ _ _ zephyr rfl, settle_copyToShm _ _ _ _ _ _ _ zephyr rfl,
        settle_invokeFunc _ _ _ _ _ _ accepts]
      simp only [request, replied, prepared, fills, cleared, fillSlots, List.foldl_cons,
        List.foldl_nil, Shared.answered_eq]

def copiedPortion (shared : Shared) (record : FuncCall) (i : Fin dataPortions) : DataPortion :=
  (record.dataP i).copyFrom
    (slice shared.msg.payload (shared.param i).a.toNat (record.dataP i).len.toNat)

def copied (shared : Shared) (record : FuncCall) : FuncCall :=
  { record with dataP := copiedPortion shared record }

/-- The range of the payload a portion's result is read from. -/
def copiedRange (shared : Shared) (record : FuncCall) (i : Fin dataPortions) : Nat × Nat :=
  ((shared.param i).a.toNat, (record.dataP i).len.toNat)

private theorem settle_copyResults (call : CallName) {indices : List (Fin dataPortions)}
    (distinct : indices.Nodup) :
    settle mailbox replies (indices.map (copyResult call) ++ rest) position own shared =
      settle mailbox replies rest position
        { own with
          record := Function.update own.record call
            { own.record call with
              dataP := fun i =>
                if i ∈ indices then copiedPortion shared (own.record call) i
                else (own.record call).dataP i }
          copies := own.copies ++ indices.map (copiedRange shared (own.record call)) } shared := by
  induction indices generalizing own with
  | nil => simp
  | cons first indices ih =>
      obtain ⟨fresh, distinct⟩ := List.nodup_cons.mp distinct
      have others : ∀ i ∈ indices, i ≠ first := fun i member same => fresh (same ▸ member)
      rw [List.map_cons, List.cons_append, copyResult, settle, ih _ distinct]
      have portions : ∀ i, (if i ∈ indices then
            copiedPortion shared ((own.record call).setData first
              (slice shared.msg.payload (shared.param first).a.toNat
                ((own.record call).dataP first).len.toNat)) i
          else ((own.record call).setData first
              (slice shared.msg.payload (shared.param first).a.toNat
                ((own.record call).dataP first).len.toNat)).dataP i) =
          if i ∈ first :: indices then copiedPortion shared (own.record call) i
          else (own.record call).dataP i := by
        intro i
        by_cases here : i = first
        · subst here
          simp [fresh, FuncCall.setData, copiedPortion]
        · simp [here, FuncCall.setData, copiedPortion]
      have ranges : indices.map (copiedRange shared ((own.record call).setData first
            (slice shared.msg.payload (shared.param first).a.toNat
              ((own.record call).dataP first).len.toNat))) =
          indices.map (copiedRange shared (own.record call)) := by
        rw [List.map_inj_left]
        intro i member
        simp [copiedRange, FuncCall.setData, others i member]
      simp only [Function.update_self, Function.update_idem, portions, ranges, List.map_cons,
        List.append_assoc, List.cons_append, List.nil_append]
      rfl

theorem settle_cpyLastResult (call : CallName) :
    settle mailbox replies (cpyLastResult call ++ rest) position own shared =
      settle mailbox replies rest position
        { own with
          record := Function.update own.record call (copied shared (own.record call))
          copies := own.copies ++
            (List.finRange dataPortions).map (copiedRange shared (own.record call)) } shared := by
  rw [cpyLastResult, settle_copyResults _ _ _ _ _ _ (List.nodup_finRange dataPortions)]
  simp only [List.mem_finRange, if_true]
  rfl

theorem settle_callAndCopy {zephyr : Zephyr} (call : CallName)
    {caller : CallName → List ClientStmt} (calls : caller call = callPufTa zephyr call)
    (accepts : zephyr.rejects (.invokeFunc call) = none) :
    settle mailbox replies (callAndCopy call caller ++ rest) position own shared =
      let after := replied zephyr call (own.record call) shared.sessionId shared
        (replies position)
      (settle mailbox replies rest (position + 1)
        { own with
          res := 0
          sessionId := shared.sessionId
          record := Function.update own.record call (copied after (own.record call))
          copies := own.copies ++
            (List.finRange dataPortions).map (copiedRange after (own.record call)) } after).after
          [request zephyr call (own.record call) shared.sessionId shared.msg] := by
  simp only [callAndCopy, List.append_assoc, List.cons_append, List.nil_append, passSessionId,
    settle, calls]
  rw [settle_callPufTa _ _ _ _ _ _ accepts]
  simp only [failed, settle, ne_eq, not_true_eq_false, decide_false, Bool.false_eq_true, if_false]
  rw [settle_cpyLastResult]

theorem settle_openSession {zephyr : Zephyr} (accepts : zephyr.rejects .openSession = none) :
    settle mailbox replies
        (zephyr.call .openSession
          (crossconHvTeeOpenSession Own.sessionArg 0 fun _ _ => ⟨0, 0, 0, 0⟩) ++ rest)
        position own shared =
      let request : SharedMessage :=
        { shared.msg with
          callType := teeCallTypeOpenSession
          sessionArgs :=
            ⟨own.sessionArg.uuid, own.sessionArg.clntUuid, own.sessionArg.clntLogin, 0, 0, 0, 0,
              0⟩ }
      (settle mailbox replies rest (position + 1) { own with res := 0 }
        (shared.answered (replies position))).after [request] := by
  rw [Zephyr.call, accepts]
  simp only [crossconHvTeeOpenSession, fillParams_zero, List.nil_append, List.cons_append,
    assignMsg, assignSessionArgs, returnCode, settle, paramTypes_zero,
    Shared.answered_eq]
  rfl

theorem settle_closeSession {zephyr : Zephyr} (accepts : zephyr.rejects .closeSession = none) :
    settle mailbox replies (zephyr.call .closeSession crossconHvTeeCloseSession)
        position own shared =
      ⟨{ own with res := 0 }, 0,
        [{ shared.msg with
            callType := teeCallTypeCloseSession
            sessionArgs :=
              ⟨List.replicate teeUuidLen 0, List.replicate teeUuidLen 0, 0, 0, own.sessionId, 0,
                0, 0⟩ }]⟩ := by
  rw [Zephyr.call, accepts]
  rfl

end Settling

section Outcomes

variable (zephyr : Zephyr) (replies : Nat → SharedMessage) (own : Own) (shared : Shared)

def afterOpen : Shared :=
  shared.answered (replies 0)

def afterInit : Shared :=
  replied zephyr .init (own.record .init) (afterOpen replies shared).sessionId
    (afterOpen replies shared) (replies 1)

def afterCommitment : Shared :=
  replied zephyr .commitment (own.record .commitment)
    (afterInit zephyr replies own shared).sessionId (afterInit zephyr replies own shared)
    (replies 2)

def afterProofs : Shared :=
  replied zephyr .proofs (own.record .proofs)
    (afterCommitment zephyr replies own shared).sessionId
    (afterCommitment zephyr replies own shared) (replies 3)

/-- The shared memory a call starts from. -/
def beforeCall : CallName → Shared
  | .init => afterOpen replies shared
  | .commitment => afterInit zephyr replies own shared
  | .proofs => afterCommitment zephyr replies own shared

/-- The shared memory a call's results are copied from. -/
def afterCall : CallName → Shared
  | .init => afterInit zephyr replies own shared
  | .commitment => afterCommitment zephyr replies own shared
  | .proofs => afterProofs zephyr replies own shared

def requestOf (call : CallName) : SharedMessage :=
  request zephyr call (own.record call) (beforeCall zephyr replies own shared call).sessionId
    (beforeCall zephyr replies own shared call).msg

def openRequest : SharedMessage :=
  { shared.msg with
    callType := teeCallTypeOpenSession
    sessionArgs := ⟨pufTaUuid, clientUuid, teeIoctlLoginUser, 0, 0, 0, 0, 0⟩ }

def closeRequest (shared : Shared) : SharedMessage :=
  { shared.msg with
    callType := teeCallTypeCloseSession
    sessionArgs :=
      ⟨List.replicate teeUuidLen 0, List.replicate teeUuidLen 0, 0, 0, shared.sessionId, 0, 0, 0⟩ }

/-- With timely replies `challenge_puf` goes through all its calls and returns 0. -/
theorem settle_challengePuf (dispatches : zephyr.Dispatches) (noError : own.sessionArg.ret = 0) :
    ∃ own',
      settle mailbox replies (challengePuf zephyr) 0 own shared =
        ⟨own', 0,
          [openRequest shared, requestOf zephyr replies own shared .init,
            requestOf zephyr replies own shared .commitment,
            requestOf zephyr replies own shared .proofs,
            closeRequest (afterProofs zephyr replies own shared)]⟩ ∧
        ∀ call, own'.record call =
          copied (afterCall zephyr replies own shared call) (own.record call) := by
  have invokes : ∀ call, zephyr.rejects (.invokeFunc call) = none := fun call =>
    dispatches.accepts _
  simp only [challengePuf, List.append_assoc, List.cons_append, List.nil_append, setSessionArg,
    settle, dispatches.bound, Bool.not_true, Bool.false_eq_true, if_false]
  rw [settle_openSession _ _ _ _ _ (dispatches.accepts _)]
  simp only [settle, noError, ne_eq, not_true_eq_false, or_self, decide_false, Bool.false_eq_true,
    if_false]
  have init : callPufTaInit zephyr .init = callPufTa zephyr .init := rfl
  have commitment :
      callPufTaGetCommitment zephyr .commitment = callPufTa zephyr .commitment := rfl
  have proofs : callPufTaGetZkProofs zephyr .proofs = callPufTa zephyr .proofs := rfl
  rw [settle_callAndCopy _ _ _ _ _ .init init (invokes _)]
  dsimp only
  rw [settle_callAndCopy _ _ _ _ _ .commitment commitment (invokes _)]
  dsimp only
  rw [settle_callAndCopy _ _ _ _ _ .proofs proofs (invokes _)]
  simp only [passSessionId, settle]
  rw [settle_closeSession _ _ _ _ (dispatches.accepts _)]
  simp only [Function.update_of_ne, ne_eq, reduceCtorEq, not_false_eq_true]
  refine ⟨_, rfl, fun call => ?_⟩
  cases call with
  | init => rfl
  | commitment => rfl
  | proofs => rfl

end Outcomes

end Uc1Integration.Tee
