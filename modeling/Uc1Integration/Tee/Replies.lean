import Uc1Integration.Tee.Boot

/-!
# The replies a run uses

`challenge_puf` sleeps after each request and takes it that the reply has come. In a
timely run its session id and its results are what the shared memory holds when the
replies to its own requests are handled.
-/

set_option autoImplicit false

namespace Uc1Integration.Tee

open Interaction Transport Client

abbrev PufClient := Client Own Shared SharedMessage

def CallName.position : CallName → Nat
  | .init => 1
  | .commitment => 2
  | .proofs => 3

section Timely

variable {zephyr : Zephyr} {replies : Nat → SharedMessage} {own : Own} {shared : Shared}

theorem msg_afterCall (call : CallName) :
    (afterCall zephyr replies own shared call).msg = replies call.position := by
  cases call <;> exact msg_answered _ _

theorem param_afterCall {call : CallName}
    (invoked : (replies call.position).callType = teeCallTypeInvokeFunc) :
    (afterCall zephyr replies own shared call).param = (replies call.position).params := by
  cases call <;> exact param_answered_invoke _ invoked

theorem sessionId_replied (call : CallName) (record : FuncCall) (session : UInt32)
    (shared : Shared) {reply : SharedMessage}
    (invoked : reply.callType = teeCallTypeInvokeFunc) :
    (replied zephyr call record session shared reply).sessionId = shared.sessionId :=
  sessionId_answered_invoke _ invoked

theorem sessionId_afterCall (opened : (replies 0).callType = teeCallTypeOpenSession)
    (invoked : ∀ call : CallName, (replies call.position).callType = teeCallTypeInvokeFunc)
    (call : CallName) :
    (afterCall zephyr replies own shared call).sessionId =
      (replies 0).sessionArgs.session := by
  have first : (afterInit zephyr replies own shared).sessionId =
      (replies 0).sessionArgs.session :=
    (sessionId_replied _ _ _ _ (invoked .init)).trans (sessionId_answered_open _ opened)
  have second : (afterCommitment zephyr replies own shared).sessionId =
      (replies 0).sessionArgs.session :=
    (sessionId_replied _ _ _ _ (invoked .commitment)).trans first
  cases call with
  | init => exact first
  | commitment => exact second
  | proofs => exact (sessionId_replied _ _ _ _ (invoked .proofs)).trans second

theorem sessionId_beforeCall (opened : (replies 0).callType = teeCallTypeOpenSession)
    (invoked : ∀ call : CallName, (replies call.position).callType = teeCallTypeInvokeFunc)
    (call : CallName) :
    (beforeCall zephyr replies own shared call).sessionId =
      (replies 0).sessionArgs.session := by
  cases call with
  | init => exact sessionId_answered_open _ opened
  | commitment => exact sessionId_afterCall opened invoked .init
  | proofs => exact sessionId_afterCall opened invoked .commitment

/-- An error of `tee_open_session` left in `session_arg` ends the run. -/
theorem noError_of_settle (dispatches : zephyr.Dispatches)
    (success : (settle mailbox replies (challengePuf zephyr) 0 own shared).result = 0) :
    own.sessionArg.ret = 0 := by
  by_contra error
  revert success
  simp only [challengePuf, List.append_assoc, List.cons_append, List.nil_append, setSessionArg,
    settle, dispatches.bound, Bool.not_true, Bool.false_eq_true, if_false]
  rw [settle_openSession _ _ _ _ _ (dispatches.accepts _)]
  simp [settle, error, Outcome.after]

theorem requests_of_timely (dispatches : zephyr.Dispatches)
    {accepts : Nat → SharedMessage → SharedMessage → Prop} {client : PufClient}
    (reaches : Reaches mailbox (.timely accepts) (start own shared (challengePuf zephyr)) client)
    (agrees : Agrees replies client) (success : client.result = some 0) :
    client.requests =
        [openRequest shared, requestOf zephyr replies own shared .init,
          requestOf zephyr replies own shared .commitment,
          requestOf zephyr replies own shared .proofs,
          closeRequest (afterProofs zephyr replies own shared)] ∧
      ∀ call, client.own.record call =
        copied (afterCall zephyr replies own shared call) (own.record call) := by
  have outcome := outcome_of_timely reaches agrees success
  have noError : own.sessionArg.ret = 0 := by
    apply noError_of_settle dispatches
    rw [outcome]
  obtain ⟨own', settles, records⟩ :=
    settle_challengePuf zephyr replies own shared dispatches noError
  rw [settles] at outcome
  obtain ⟨sameOwn, _, sameRequests⟩ := Outcome.mk.inj outcome
  rw [← sameOwn, ← sameRequests]
  exact ⟨rfl, records⟩

/-- A timely run that returns has gone through all its calls. -/
theorem returns_zero (dispatches : zephyr.Dispatches) (noError : own.sessionArg.ret = 0)
    {accepts : Nat → SharedMessage → SharedMessage → Prop} {client : PufClient} {code : Int}
    (reaches : Reaches mailbox (.timely accepts) (start own shared (challengePuf zephyr)) client)
    (returned : client.result = some code) : code = 0 := by
  obtain ⟨replies, agrees⟩ := exists_agrees (Ordered.of_reaches reaches)
  obtain ⟨own', settles, _⟩ := settle_challengePuf zephyr replies own shared dispatches noError
  have outcome := outcome_of_timely reaches agrees returned
  rw [settles] at outcome
  exact (Outcome.mk.inj outcome).2.1.symm

theorem exists_returning (dispatches : zephyr.Dispatches) (noError : own.sessionArg.ret = 0)
    (accepts : Nat → SharedMessage → SharedMessage → Prop)
    (accepted : ∀ position request,
      [openRequest shared, requestOf zephyr replies own shared .init,
        requestOf zephyr replies own shared .commitment,
        requestOf zephyr replies own shared .proofs,
        closeRequest (afterProofs zephyr replies own shared)][position]? = some request →
      accepts position request (replies position)) :
    ∃ client : PufClient,
      Reaches mailbox (.timely accepts) (start own shared (challengePuf zephyr)) client ∧
        Agrees replies client ∧ client.result = some 0 := by
  obtain ⟨own', settles, _⟩ := settle_challengePuf zephyr replies own shared dispatches noError
  obtain ⟨client, reaches, agrees, outcome, returned⟩ :=
    exists_timely mailbox accepts replies own shared (challengePuf zephyr) (by
      rw [settles]
      exact accepted)
  refine ⟨client, reaches, agrees, ?_⟩
  obtain ⟨code, result⟩ := Option.isSome_iff_exists.mp returned
  rw [settles, result] at outcome
  obtain ⟨_, success, _⟩ := Outcome.mk.inj outcome
  rw [result]
  exact congrArg some success.symm

end Timely

/-- An invocation or a close carries the given session id. -/
structure SessionIs (session : UInt32) (request : SharedMessage) : Prop where
  invoke : request.callType = teeCallTypeInvokeFunc → request.invokeArgs.session = session
  close : request.callType = teeCallTypeCloseSession → request.sessionArgs.session = session

/-- A TEE that leaves the call type of the request in its reply. -/
def keepsCallType (_ : Nat) (request reply : SharedMessage) : Prop :=
  reply.callType = request.callType

/-- What a timely run that returned 0 knows of its replies. -/
structure Heard (zephyr : Zephyr) (accepts : Nat → SharedMessage → SharedMessage → Prop)
    (own : Own) (shared : Shared) (client : PufClient) (replies : Nat → SharedMessage) :
    Prop where
  requests : client.requests =
    [openRequest shared, requestOf zephyr replies own shared .init,
      requestOf zephyr replies own shared .commitment,
      requestOf zephyr replies own shared .proofs,
      closeRequest (afterProofs zephyr replies own shared)]
  records : ∀ call, client.own.record call =
    copied (afterCall zephyr replies own shared call) (own.record call)
  answered : ∀ position < 4, (position, replies position) ∈ client.replies
  opened : accepts 0 (openRequest shared) (replies 0)
  invoked : ∀ call : CallName,
    accepts call.position (requestOf zephyr replies own shared call) (replies call.position)

theorem heard_of_timely {zephyr : Zephyr} (dispatches : zephyr.Dispatches) {own : Own}
    {shared : Shared} {accepts : Nat → SharedMessage → SharedMessage → Prop}
    {client : PufClient}
    (reaches : Reaches mailbox (.timely accepts) (start own shared (challengePuf zephyr)) client)
    (success : client.result = some 0) :
    ∃ replies, Heard zephyr accepts own shared client replies := by
  have ordered := Ordered.of_reaches reaches
  obtain ⟨replies, agrees⟩ := exists_agrees ordered
  obtain ⟨requests, records⟩ := requests_of_timely dispatches reaches agrees success
  have answered : ∀ position < 4, (position, replies position) ∈ client.replies := by
    intro position inside
    obtain ⟨reply, there⟩ := ordered.answered position (by
      rw [requests]
      exact Nat.succ_lt_succ inside)
    have same : replies position = reply := agrees _ there
    exact same ▸ there
  have accepted : ∀ position < 4, ∀ request, client.requests[position]? = some request →
      accepts position request (replies position) := by
    intro position inside request there
    obtain ⟨asked, same, accepted⟩ := ordered.accepted _ (answered position inside)
    rw [there] at same
    cases same
    exact accepted
  refine ⟨replies, requests, records, answered, ?_, ?_⟩
  · exact accepted 0 (by decide) _ (by rw [requests]; rfl)
  · intro call
    cases call with
    | init => exact accepted 1 (by decide) _ (by rw [requests]; rfl)
    | commitment => exact accepted 2 (by decide) _ (by rw [requests]; rfl)
    | proofs => exact accepted 3 (by decide) _ (by rw [requests]; rfl)

theorem Heard.session {zephyr : Zephyr}
    {accepts : Nat → SharedMessage → SharedMessage → Prop} {own : Own} {shared : Shared}
    {client : PufClient} {replies : Nat → SharedMessage}
    (heard : Heard zephyr accepts own shared client replies)
    (opened : (replies 0).callType = teeCallTypeOpenSession)
    (invoked : ∀ call : CallName, (replies call.position).callType = teeCallTypeInvokeFunc) :
    ∀ request ∈ client.requests, SessionIs (replies 0).sessionArgs.session request := by
  intro request member
  have invocation : ∀ call, SessionIs (replies 0).sessionArgs.session
      (requestOf zephyr replies own shared call) := fun call =>
    ⟨fun _ => sessionId_beforeCall opened invoked call,
      fun closes : teeCallTypeInvokeFunc = teeCallTypeCloseSession =>
        absurd closes (by decide)⟩
  rw [heard.requests] at member
  simp only [List.mem_cons, List.not_mem_nil, or_false] at member
  obtain rfl | rfl | rfl | rfl | rfl := member
  · exact ⟨fun invokes : teeCallTypeOpenSession = teeCallTypeInvokeFunc =>
        absurd invokes (by decide),
      fun closes : teeCallTypeOpenSession = teeCallTypeCloseSession =>
        absurd closes (by decide)⟩
  · exact invocation .init
  · exact invocation .commitment
  · exact invocation .proofs
  · exact ⟨fun invokes : teeCallTypeCloseSession = teeCallTypeInvokeFunc =>
        absurd invokes (by decide),
      fun _ => sessionId_afterCall opened invoked .proofs⟩

theorem Heard.dataP {zephyr : Zephyr}
    {accepts : Nat → SharedMessage → SharedMessage → Prop} {own : Own} {shared : Shared}
    {client : PufClient} {replies : Nat → SharedMessage}
    (heard : Heard zephyr accepts own shared client replies) {call : CallName}
    (invoked : (replies call.position).callType = teeCallTypeInvokeFunc)
    (i : Fin dataPortions) :
    (client.own.record call).dataP i =
      ((own.record call).dataP i).copyFrom
        (slice (replies call.position).payload ((replies call.position).params i).a.toNat
          ((own.record call).dataP i).len.toNat) := by
  rw [heard.records call]
  simp only [copied, copiedPortion, msg_afterCall, param_afterCall invoked]

end Uc1Integration.Tee
