import Uc1Integration.Tee.Replies

/-!
# Return codes of the TEE

The TEE's verdict on each call comes back in its reply. `challenge_puf` looks at
the driver's return codes and at a field of `session_arg` nothing writes, so an
error in a reply changes nothing.
-/

set_option autoImplicit false

namespace Uc1Integration.Tee

open Interaction Transport Client

/-- The return code in the reply to a request: the open request is the first. -/
def returnCodeOf (replies : Nat → SharedMessage) (position : Nat) : UInt32 :=
  if position = 0 then (replies position).sessionArgs.ret
  else (replies position).invokeArgs.ret

/-- The TEE gives its replies in the order of the requests. -/
def gives (replies : Nat → SharedMessage) (position : Nat) (_ reply : SharedMessage) : Prop :=
  reply = replies position

/-- The client returns 0 only after four successes; after an error no later
invocation is issued, and the failed and the later calls keep their records. -/
structure StopsAtErrors (own : Own) (replies : Nat → SharedMessage) (client : PufClient) :
    Prop where
  success : client.result = some 0 → ∀ position < 4, returnCodeOf replies position = teeSuccess
  requests : ∀ position < 4, returnCodeOf replies position ≠ teeSuccess →
    ∀ later request, position < later → client.requests[later]? = some request →
      request.callType ≠ teeCallTypeInvokeFunc
  records : ∀ position < 4, returnCodeOf replies position ≠ teeSuccess →
    ∀ call : CallName, position ≤ call.position → client.own.record call = own.record call

theorem exists_returning_any {zephyr : Zephyr} (dispatches : zephyr.Dispatches) {own : Own}
    (noError : own.sessionArg.ret = 0) (shared : Shared) (replies : Nat → SharedMessage) :
    ∃ client : PufClient,
      Reaches mailbox (.timely (gives replies)) (start own shared (challengePuf zephyr)) client ∧
        client.result = some 0 := by
  obtain ⟨client, reaches, _, success⟩ :=
    exists_returning dispatches noError (gives replies) fun _ _ _ => rfl
  exact ⟨client, reaches, success⟩

theorem stopsAtErrors_iff {zephyr : Zephyr} (dispatches : zephyr.Dispatches) {own : Own}
    (callable : Callable zephyr own) (shared : Shared) (replies : Nat → SharedMessage) :
    (∀ client : PufClient,
      Reaches mailbox (.timely (gives replies)) (start own shared (challengePuf zephyr)) client →
      StopsAtErrors own replies client) ↔
    ∀ position < 4, returnCodeOf replies position = teeSuccess := by
  constructor
  · intro stops
    obtain ⟨client, reaches, success⟩ :=
      exists_returning_any dispatches callable.ret_eq shared replies
    exact (stops client reaches).success success
  · intro successes client _
    constructor
    · exact fun _ => successes
    · intro position inside error
      exact absurd (successes position inside) error
    · intro position inside error
      exact absurd (successes position inside) error

/-- A TEE that grants every request but the first invocation, which it answers with
`code`; its outputs are the bytes `0, 1, 2, …`. -/
def repliesWith (code : UInt32) (position : Nat) : SharedMessage :=
  { (default : SharedMessage) with
    callType := if position = 0 then teeCallTypeOpenSession else teeCallTypeInvokeFunc
    sessionArgs := { (default : SharedMessage).sessionArgs with session := 7 }
    invokeArgs := ⟨0, 7, 0, if position = 1 then code else teeSuccess, 0, 0⟩
    payload := fun i => i.toUInt8 }

theorem returnCodeOf_repliesWith (code : UInt32) :
    (∀ position < 4, returnCodeOf (repliesWith code) position = teeSuccess) ↔
      code = teeSuccess := by
  constructor
  · intro granted
    exact granted 1 (by decide)
  · intro success position _
    subst success
    unfold returnCodeOf repliesWith
    split
    · rfl
    · exact ite_self _

/-- A granted run stops at no error; one in which the first invocation fails with
`TEE_ERROR_GENERIC` does not stop. -/
theorem stopsAtErrors_iff_boot :
    (∀ client : PufClient,
      Reaches mailbox (.timely (gives (repliesWith teeSuccess)))
        (start bootOwn (bootShared default) (challengePuf zephyrOfImage)) client →
      StopsAtErrors bootOwn (repliesWith teeSuccess) client) ∧
    ¬ ∀ client : PufClient,
      Reaches mailbox (.timely (gives (repliesWith 0xFFFF0000)))
        (start bootOwn (bootShared default) (challengePuf zephyrOfImage)) client →
      StopsAtErrors bootOwn (repliesWith 0xFFFF0000) client := by
  have callable : Callable zephyrOfImage bootOwn := .boot rfl
  constructor
  · rw [stopsAtErrors_iff zephyrOfImage_dispatches callable, returnCodeOf_repliesWith]
  · rw [stopsAtErrors_iff zephyrOfImage_dispatches callable, returnCodeOf_repliesWith]
    decide

theorem not_stopsAtErrors_failing :
    ∃ client : PufClient,
      Reaches mailbox (.timely (gives (repliesWith 0xFFFF0000)))
        (start bootOwn (bootShared default) (challengePuf zephyrOfImage)) client ∧
        ¬ StopsAtErrors bootOwn (repliesWith 0xFFFF0000) client := by
  obtain ⟨client, reaches, success⟩ :=
    exists_returning_any zephyrOfImage_dispatches (show bootOwn.sessionArg.ret = 0 from rfl)
      (bootShared default) (repliesWith 0xFFFF0000)
  refine ⟨client, reaches, ?_⟩
  intro stops
  have code : returnCodeOf (repliesWith 0xFFFF0000) 1 = teeSuccess :=
    stops.success success 1 (by decide)
  exact absurd code (by decide)

end Uc1Integration.Tee
