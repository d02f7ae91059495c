import Uc1Integration.Tee.Refinement

/-! What a run of `challenge_puf` that has returned has made of its records, when
the TEE computes a function. -/

set_option autoImplicit false

namespace Uc1Integration.Tee

open Interaction Transport Client

/-- Every record has been replaced by the pure call of it, in one session. -/
def CalledPurely (function : TeeFunction) (session : UInt32) (before after : CallName → FuncCall) :
    Prop :=
  ∀ call, (after call).contents = pureCall function session call (before call).contents ∧
    ∀ i, ((after call).dataP i).len = ((before call).dataP i).len

theorem code_of_timely {zephyr : Zephyr} (dispatches : zephyr.Dispatches) {own : Own}
    (callable : Callable zephyr own) {shared : Shared}
    {accepts : Nat → SharedMessage → SharedMessage → Prop} {client : PufClient} {code : Int}
    (reaches : Reaches mailbox (.timely accepts) (start own shared (challengePuf zephyr)) client)
    (returned : client.result = some code) : code = 0 := by
  obtain ⟨replies, agrees⟩ := exists_agrees (Ordered.of_reaches reaches)
  obtain ⟨own', settles, _⟩ :=
    settle_challengePuf zephyr replies own shared dispatches callable.ret_eq
  have outcome := outcome_of_timely reaches agrees returned
  rw [settles] at outcome
  exact (Outcome.mk.inj outcome).2.1.symm

/-- The session is the one that was granted to the open request. -/
theorem calledPurely_of_returned {zephyr : Zephyr} (dispatches : zephyr.Dispatches) {own : Own}
    (callable : Callable zephyr own) (shaped : ∀ call, HasPattern call (own.record call))
    {shared : Shared} {function : TeeFunction}
    {accepts : Nat → SharedMessage → SharedMessage → Prop}
    (serves : ∀ position request reply, accepts position request reply →
      Serves function request reply)
    {client : PufClient} {code : Int}
    (reaches : Reaches mailbox (.timely accepts) (start own shared (challengePuf zephyr)) client)
    (returned : client.result = some code) :
    code = 0 ∧ ∃ reply, accepts 0 (openRequest shared) reply ∧
      (∀ request ∈ client.requests, SessionIs reply.sessionArgs.session request) ∧
      CalledPurely function reply.sessionArgs.session own.record client.own.record := by
  have zero := code_of_timely dispatches callable reaches returned
  subst zero
  obtain ⟨replies, heard⟩ := heard_of_timely dispatches reaches returned
  have opened : (replies 0).callType = teeCallTypeOpenSession :=
    (serves _ _ _ heard.opened).callType
  have invoked : ∀ call : CallName, (replies call.position).callType = teeCallTypeInvokeFunc :=
    fun call => (serves _ _ _ (heard.invoked call)).callType
  refine ⟨rfl, replies 0, heard.opened, heard.session opened invoked, fun call => ?_⟩
  have dataP := heard.dataP (invoked call)
  constructor
  · have served := serves _ _ _ (heard.invoked call)
    rw [requestOf, sessionId_beforeCall opened invoked call] at served
    refine contents_of_serves (shaped call) served ?_ dataP
    rw [heard.records call]
    rfl
  · intro i
    rw [dataP i, DataPortion.len_copyFrom]

end Uc1Integration.Tee
