import Uc1Integration.Interaction.MailboxTimely
import Uc1Integration.Tee.Driver

/-! What the handler and the driver's functions do as a whole. -/

set_option autoImplicit false

namespace Uc1Integration.Tee

open Interaction Transport Client

/-- The shared memory once a reply has been written and handled. -/
def Shared.answered (shared : Shared) (reply : SharedMessage) : Shared :=
  mailbox.handle (mailbox.put reply shared)

theorem Shared.answered_eq (shared : Shared) (reply : SharedMessage) :
    shared.answered reply = ipcIrqClientHandler { shared with msg := reply } := rfl

@[simp] theorem msg_handleParam (shared : Shared) (i : Fin vmsMaxParams) :
    (handleParam shared i).msg = shared.msg := by
  unfold handleParam
  dsimp only
  split
  · rfl
  · split <;> rfl

@[simp] theorem sessionId_handleParam (shared : Shared) (i : Fin vmsMaxParams) :
    (handleParam shared i).sessionId = shared.sessionId := by
  unfold handleParam
  dsimp only
  split
  · rfl
  · split <;> rfl

@[simp] theorem param_handleParam (shared : Shared) (i : Fin vmsMaxParams) :
    (handleParam shared i).param =
      Function.update shared.param i (shared.msg.params i) := by
  unfold handleParam
  dsimp only
  split
  · rfl
  · split <;> rfl

theorem invokeFuncArg_handleParam (shared : Shared) (i : Fin vmsMaxParams) :
    (handleParam shared i).invokeFuncArg = shared.invokeFuncArg := by
  unfold handleParam
  dsimp only
  split
  · rfl
  · split <;> rfl

theorem invokeFuncArg_foldl_handleParam (shared : Shared) (indices : List (Fin vmsMaxParams)) :
    (indices.foldl handleParam shared).invokeFuncArg = shared.invokeFuncArg := by
  induction indices generalizing shared with
  | nil => rfl
  | cons first rest ih => exact (ih _).trans (invokeFuncArg_handleParam _ _)

theorem func_handle (shared : Shared) :
    (mailbox.handle shared).invokeFuncArg.func = shared.invokeFuncArg.func := by
  simp only [mailbox, ipcIrqClientHandler, Shared.logs]
  split
  · rw [invokeFuncArg_foldl_handleParam]
  · split <;> rfl

theorem foldl_handleParam (shared : Shared) (indices : List (Fin vmsMaxParams)) :
    (indices.foldl handleParam shared).msg = shared.msg ∧
      (indices.foldl handleParam shared).sessionId = shared.sessionId ∧
      ∀ i, (indices.foldl handleParam shared).param i =
        if i ∈ indices then shared.msg.params i else shared.param i := by
  induction indices generalizing shared with
  | nil => simp
  | cons first rest ih =>
      obtain ⟨msg, sessionId, param⟩ := ih (handleParam shared first)
      rw [msg_handleParam] at msg param
      rw [sessionId_handleParam] at sessionId
      refine ⟨msg, sessionId, fun i => ?_⟩
      rw [List.foldl_cons, param, param_handleParam]
      by_cases here : i = first
      · subst here
        simp
      · simp [here]

@[simp] theorem msg_answered (shared : Shared) (reply : SharedMessage) :
    (shared.answered reply).msg = reply := by
  simp only [Shared.answered, mailbox, ipcIrqClientHandler, Shared.logs]
  split
  · exact (foldl_handleParam _ _).1
  · split <;> rfl

theorem param_answered_invoke (shared : Shared) {reply : SharedMessage}
    (invoked : reply.callType = teeCallTypeInvokeFunc) :
    (shared.answered reply).param = reply.params := by
  funext i
  simp only [Shared.answered, mailbox, ipcIrqClientHandler, Shared.logs, if_pos invoked]
  rw [(foldl_handleParam _ _).2.2 i, if_pos (List.mem_finRange i)]

theorem sessionId_answered_invoke (shared : Shared) {reply : SharedMessage}
    (invoked : reply.callType = teeCallTypeInvokeFunc) :
    (shared.answered reply).sessionId = shared.sessionId := by
  simp only [Shared.answered, mailbox, ipcIrqClientHandler, Shared.logs, if_pos invoked]
  rw [(foldl_handleParam _ _).2.1]

theorem sessionId_answered_open (shared : Shared) {reply : SharedMessage}
    (opened : reply.callType = teeCallTypeOpenSession) :
    (shared.answered reply).sessionId = reply.sessionArgs.session := by
  have other : ¬ reply.callType = teeCallTypeInvokeFunc := by
    rw [opened]
    decide
  simp only [Shared.answered, mailbox, ipcIrqClientHandler, Shared.logs, if_neg other,
    if_pos opened]

theorem paramTypes_zero (param : Fin vmsMaxParams → Param) : paramTypes 0 param = 0 := by
  have none : ∀ i, paramType 0 param i = 0 := by
    intro i
    rw [paramType, if_neg (Nat.not_lt_zero _)]
    rfl
  simp only [paramTypes, none]
  decide

theorem fillParams_zero (param : Shared → Fin vmsMaxParams → Param) : fillParams 0 param = [] := by
  simp [fillParams]

section Settling

variable (replies : Nat → SharedMessage) (rest : List ClientStmt) (position : Nat) (own : Own)
  (shared : Shared)

theorem settle_fillParams (param : Shared → Fin vmsMaxParams → Param)
    (unmoved : ∀ params,
      param { shared with msg := { shared.msg with params } } = param shared) :
    settle mailbox replies (fillParams vmsMaxParams param ++ rest) position own shared =
      settle mailbox replies rest position own
        { shared with msg := { shared.msg with params := param shared } } := by
  have four : (List.finRange vmsMaxParams).filter (fun i => decide (i.val < vmsMaxParams)) =
      [0, 1, 2, 3] := by decide
  simp only [fillParams, four, List.flatMap_cons, List.flatMap_nil, List.cons_append,
    List.nil_append, assign, settle, unmoved, Function.update_self, Function.update_idem]
  exact congrArg (fun params => settle mailbox replies rest position own
    { shared with msg := { shared.msg with params } }) (update_params _ (param shared))

theorem settle_crossconHvTeeInvokeFunc (arg : Shared → InvokeFuncArg)
    (param : Shared → Fin vmsMaxParams → Param)
    (fixedArg : ∀ msg, arg { shared with msg } = arg shared)
    (fixedParam : ∀ msg, param { shared with msg } = param shared) :
    settle mailbox replies (crossconHvTeeInvokeFunc arg vmsMaxParams param ++ rest) position
        own shared =
      let request : SharedMessage :=
        { shared.msg with
          callType := teeCallTypeInvokeFunc
          invokeArgs :=
            ⟨(arg shared).func, (arg shared).session, (arg shared).cancelId, 0, 0,
              paramTypes vmsMaxParams (param shared)⟩
          params := param shared }
      (settle mailbox replies rest (position + 1) { own with res := 0 }
        (({ shared with msg := request } : Shared).answered (replies position))).after
          [request] := by
  simp only [crossconHvTeeInvokeFunc, List.append_assoc, List.cons_append, List.nil_append,
    assignInvokeArgs, assignMsg, settle, fixedArg, fixedParam]
  rw [settle_fillParams _ _ _ _ _ _ fun params => by simp only [fixedParam]]
  simp only [returnCode, settle, fixedParam]
  rfl

end Settling

end Uc1Integration.Tee
