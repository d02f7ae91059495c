import Uc1Integration.Tee.Replies
import Uc1Integration.Tee.StaleData
import Uc1Integration.Transport.Transfer

/-!
# The mailbox as three calls of a function

With a TEE that computes a function of the function id, the session id and its
input slots, `challenge_puf` is three pure calls of that function.
-/

set_option autoImplicit false

namespace Uc1Integration.Tee

open Interaction Transport Client

/-- What a trusted application computes: the bytes of each output slot. -/
abbrev TeeFunction :=
  UInt32 → UInt32 → (Fin vmsMaxParams → List UInt8) → Fin vmsMaxParams → Nat → UInt8

def CallName.reads : CallName → Fin dataPortions → Bool
  | .init => ![false, false, false, false]
  | .commitment => ![true, true, false, false]
  | .proofs => ![true, true, true, false]

def CallName.writes : CallName → Fin dataPortions → Bool
  | .init => ![true, true, true, true]
  | .commitment => ![false, false, true, true]
  | .proofs => ![true, true, true, true]

/-- A call as a function on what its record stands for. -/
def pureCall (function : TeeFunction) (session : UInt32) (call : CallName)
    (contents : Contents) : Contents :=
  let inputs := fun i => if call.reads i then contents.portion i else []
  { contents with
    portion := fun i =>
      if call.writes i then
        (List.range (contents.portion i).length).map (function contents.func session inputs i)
      else contents.portion i }

namespace SharedMessage

def inputs (request : SharedMessage) (i : Fin vmsMaxParams) : List UInt8 :=
  if (request.params i).IsInput then (request.params i).slot request.payload else []

def outputSlots (request : SharedMessage) : List (Fin vmsMaxParams) :=
  (List.finRange vmsMaxParams).filter fun i => (request.params i).IsOutput

/-- The payload with the function's results in the output slots. -/
def computed (function : TeeFunction) (request : SharedMessage) : Nat → UInt8 :=
  fillSlots (fun i => (request.params i).a.toNat) (fun i => (request.params i).b.toNat)
    (function request.invokeArgs.func request.invokeArgs.session request.inputs)
    request.outputSlots request.payload

end SharedMessage

/-- The TEE that computes `function`, keeps the header of the request and
succeeds; the session id it assigns is its own choice. -/
structure Serves (function : TeeFunction) (request reply : SharedMessage) : Prop where
  callType : reply.callType = request.callType
  params : reply.params = request.params
  opened : request.callType = teeCallTypeOpenSession → reply.sessionArgs.ret = teeSuccess
  invoked : request.callType = teeCallTypeInvokeFunc → reply.invokeArgs.ret = teeSuccess
  payload : request.callType = teeCallTypeInvokeFunc →
    reply.payload = request.computed function

theorem exists_serves (function : TeeFunction) (request : SharedMessage) :
    ∃ reply, Serves function request reply :=
  ⟨{ request with
      sessionArgs := { request.sessionArgs with ret := teeSuccess }
      invokeArgs := { request.invokeArgs with ret := teeSuccess }
      payload := request.computed function },
    rfl, rfl, fun _ => rfl, fun _ => rfl, fun _ => rfl⟩

theorem isOutput_layout_iff (zephyr : Zephyr) (call : CallName) (i : Fin vmsMaxParams) :
    (layout zephyr call i).IsOutput ↔ call.writes i = true := by
  change ((attrOf call i &&& teeParamAttrTypeMask).toUInt32 =
      teeParamAttrTypeMemrefOutput.toUInt32 ∨
    (attrOf call i &&& teeParamAttrTypeMask).toUInt32 =
      teeParamAttrTypeMemrefInout.toUInt32) ↔ call.writes i = true
  revert i
  cases call <;> decide

theorem reads_iff (call : CallName) (i : Fin dataPortions) :
    call.reads i = true ↔ i ∈ fills call := by
  revert i
  cases call <;> decide

/-- What a call does not write it has filled itself. -/
theorem mem_fills_of_not_writes {call : CallName} {i : Fin dataPortions}
    (unwritten : ¬ call.writes i = true) : i ∈ fills call := by
  revert i
  cases call <;> decide

theorem toNat_pattern (call : CallName) (i : Fin dataPortions) :
    (call.pattern i).toNat = (sizeOf call i).toNat := by
  revert i
  cases call <;> decide

theorem sizeOf_pos (call : CallName) (i : Fin dataPortions) : 0 < (sizeOf call i).toNat := by
  revert i
  cases call <;> decide

/-- A record has the portions its call was made for. -/
def HasPattern (call : CallName) (record : FuncCall) : Prop :=
  ∀ i, (record.dataP i).len = call.pattern i ∧ (record.dataP i).data.isSome = true

theorem content_eq_map_byteAt {portion : DataPortion} (some : portion.data.isSome = true) :
    portion.content = (List.range portion.len.toNat).map portion.byteAt := by
  obtain ⟨block, held⟩ := Option.isSome_iff_exists.mp some
  have fits := portion.fits block held
  simp only [DataPortion.content, held]
  apply List.ext_getElem
  · rw [List.length_take, List.length_map, List.length_range]
    omega
  · intro k inside _
    rw [List.length_take] at inside
    rw [List.getElem_take, List.getElem_map, List.getElem_range]
    have there : k < block.bytes.length := by omega
    simp only [DataPortion.byteAt, held]
    rw [List.getD_eq_getElem?_getD, List.getElem?_eq_getElem there, Option.getD_some]

section Call

variable {zephyr : Zephyr} {call : CallName} {record : FuncCall} {session : UInt32}
  {msg : SharedMessage}

theorem HasPattern.len (shaped : HasPattern call record) (i : Fin dataPortions) :
    (record.dataP i).len.toNat = (sizeOf call i).toNat := by
  rw [(shaped i).1, toNat_pattern]

theorem HasPattern.content (shaped : HasPattern call record) (i : Fin dataPortions) :
    (record.dataP i).content =
      (List.range (sizeOf call i).toNat).map (record.dataP i).byteAt := by
  rw [content_eq_map_byteAt (shaped i).2, shaped.len]

theorem apart_layout (zephyr : Zephyr) (call : CallName) :
    Apart (fun i => (layout zephyr call i).a.toNat) fun i => (layout zephyr call i).b.toNat := by
  simp only [a_layout]
  exact apart_sizeOf call

theorem slot_request (shaped : HasPattern call record) {i : Fin dataPortions}
    (filled : i ∈ fills call) :
    (layout zephyr call i).slot (prepared call record msg.payload) = (record.dataP i).content := by
  rw [Param.slot, a_layout, shaped.content, slice]
  change (List.range (sizeOf call i).toNat).map _ = _
  rw [List.map_inj_left]
  intro k member
  have inside : k < (sizeOf call i).toNat := List.mem_range.mp member
  rw [prepared_add call record msg.payload i inside, if_pos filled]

theorem inputs_request (shaped : HasPattern call record) :
    (request zephyr call record session msg).inputs =
      fun i => if call.reads i then record.contents.portion i else [] := by
  funext i
  change (if (layout zephyr call i).IsInput then
      (layout zephyr call i).slot (prepared call record msg.payload) else []) = _
  by_cases filled : i ∈ fills call
  · rw [if_pos ((isInput_layout_iff zephyr call i).mpr filled),
      if_pos ((reads_iff call i).mpr filled), slot_request shaped filled]
    rfl
  · rw [if_neg fun input => filled ((isInput_layout_iff zephyr call i).mp input),
      if_neg fun reads => filled ((reads_iff call i).mp reads)]

theorem mem_outputSlots_request (i : Fin dataPortions) :
    i ∈ (request zephyr call record session msg).outputSlots ↔ call.writes i = true := by
  rw [SharedMessage.outputSlots, List.mem_filter]
  change i ∈ List.finRange vmsMaxParams ∧ decide ((layout zephyr call i).IsOutput) = true ↔ _
  rw [decide_eq_true_iff, isOutput_layout_iff]
  exact ⟨fun both => both.2, fun writes => ⟨List.mem_finRange i, writes⟩⟩

theorem computed_add (function : TeeFunction) (i : Fin dataPortions) {k : Nat}
    (inside : k < (sizeOf call i).toNat) :
    (request zephyr call record session msg).computed function
        ((layout zephyr call i).a.toNat + k) =
      if call.writes i then
        function record.func session (request zephyr call record session msg).inputs i k
      else prepared call record msg.payload (vmsMemrefOffset i + k) := by
  have added := fillSlots_add (apart_layout zephyr call)
    (function record.func session (request zephyr call record session msg).inputs)
    (request zephyr call record session msg).outputSlots
    (prepared call record msg.payload) i inside
  refine added.trans ?_
  by_cases writes : call.writes i = true
  · rw [if_pos ((mem_outputSlots_request i).mpr writes), if_pos writes]
  · rw [if_neg fun member => writes ((mem_outputSlots_request i).mp member), if_neg writes,
      a_layout]

/-- What is copied back into a portion is what the pure call makes of it. -/
theorem slice_computed (function : TeeFunction) (shaped : HasPattern call record)
    (i : Fin dataPortions) :
    slice ((request zephyr call record session msg).computed function)
        (layout zephyr call i).a.toNat (record.dataP i).len.toNat =
      (pureCall function session call record.contents).portion i := by
  have length : (record.contents.portion i).length = (sizeOf call i).toNat := by
    change (record.dataP i).content.length = _
    rw [shaped.content, List.length_map, List.length_range]
  rw [slice, shaped.len, pureCall]
  dsimp only
  rw [length]
  by_cases writes : call.writes i = true
  · rw [if_pos writes, List.map_inj_left]
    intro k member
    rw [computed_add function i (List.mem_range.mp member), if_pos writes, inputs_request shaped]
    rfl
  · have filled := mem_fills_of_not_writes writes
    have content : record.contents.portion i =
        (List.range (sizeOf call i).toNat).map (record.dataP i).byteAt := shaped.content i
    rw [if_neg writes, content, List.map_inj_left]
    intro k member
    have inside : k < (sizeOf call i).toNat := List.mem_range.mp member
    rw [computed_add function i inside, if_neg writes, prepared_add call record _ i inside,
      if_pos filled]

end Call

theorem liveLen_of_hasPattern {call : CallName} {record : FuncCall}
    (shaped : HasPattern call record) (i : Fin dataPortions) :
    ∃ block, (record.dataP i).live = some block := by
  obtain ⟨block, held⟩ := Option.isSome_iff_exists.mp (shaped i).2
  have positive : 0 < (record.dataP i).len.toNat := by
    rw [shaped.len]
    exact sizeOf_pos call i
  exact ⟨block, by rw [DataPortion.live, if_pos positive, held]⟩

theorem contents_of_serves {function : TeeFunction} {zephyr : Zephyr} {call : CallName}
    {record record' : FuncCall} {session : UInt32} {msg reply : SharedMessage}
    (shaped : HasPattern call record)
    (serves : Serves function (request zephyr call record session msg) reply)
    (func : record'.func = record.func)
    (dataP : ∀ i, record'.dataP i = (record.dataP i).copyFrom
      (slice reply.payload (reply.params i).a.toNat (record.dataP i).len.toNat)) :
    record'.contents = pureCall function session call record.contents := by
  have portions : ∀ i, (record'.dataP i).content =
      (pureCall function session call record.contents).portion i := by
    intro i
    obtain ⟨block, alive⟩ := liveLen_of_hasPattern shaped i
    rw [dataP i, DataPortion.content_copyFrom alive (by rw [length_slice]), serves.params,
      serves.payload rfl]
    change List.take _ (slice _ (layout zephyr call i).a.toNat _) = _
    rw [slice_computed function shaped i, List.take_of_length_le]
    have sliced : slice ((request zephyr call record session msg).computed function)
        (layout zephyr call i).a.toNat (record.dataP i).len.toNat =
        (pureCall function session call record.contents).portion i :=
      slice_computed function shaped i
    rw [← sliced, length_slice]
  have both : record'.contents = ⟨record.func, fun i =>
      (pureCall function session call record.contents).portion i⟩ := by
    rw [FuncCall.contents, func]
    exact congrArg _ (funext portions)
  exact both

/-- Every timely run with the TEE that computes `function` ends, returns 0 and has
made three pure calls of it. -/
theorem challengePuf_refines {zephyr : Zephyr} (dispatches : zephyr.Dispatches) {own : Own}
    (callable : Callable zephyr own) (shaped : ∀ call, HasPattern call (own.record call))
    (shared : Shared) (function : TeeFunction) :
    Acc (fun later earlier : PufClient =>
        Step mailbox (.timely fun _ => Serves function) earlier later)
      (start own shared (challengePuf zephyr)) ∧
    ∀ client : PufClient,
      Reaches mailbox (.timely fun _ => Serves function)
        (start own shared (challengePuf zephyr)) client →
      (client.result = none →
        ∃ client', Step mailbox (.timely fun _ => Serves function) client client') ∧
      ∀ code, client.result = some code → code = 0 ∧ ∃ reply, (0, reply) ∈ client.replies ∧
        (∀ request ∈ client.requests, SessionIs reply.sessionArgs.session request) ∧
        ∀ call,
          (client.own.record call).contents =
            pureCall function reply.sessionArgs.session call (own.record call).contents ∧
          ∀ i, ((client.own.record call).dataP i).len = ((own.record call).dataP i).len := by
  refine ⟨acc _ _ _, fun client reaches => ⟨fun running => ?_, fun code returned => ?_⟩⟩
  · exact (Ordered.of_reaches reaches).progress (fun _ => exists_serves function) running
  · obtain rfl := returns_zero dispatches callable.ret_eq reaches returned
    obtain ⟨replies, heard⟩ := heard_of_timely dispatches reaches returned
    have opened : (replies 0).callType = teeCallTypeOpenSession := heard.opened.callType
    have invoked : ∀ call : CallName,
        (replies call.position).callType = teeCallTypeInvokeFunc := fun call =>
      (heard.invoked call).callType
    refine ⟨rfl, replies 0, heard.answered 0 (by decide), heard.session opened invoked, ?_⟩
    intro call
    have dataP := heard.dataP (invoked call)
    constructor
    · have serves := heard.invoked call
      rw [requestOf, sessionId_beforeCall opened invoked call] at serves
      refine contents_of_serves (shaped call) serves ?_ dataP
      rw [heard.records call]
      rfl
    · intro i
      rw [dataP i, DataPortion.len_copyFrom]

theorem zeroRecord_hasPattern (call : CallName) : HasPattern call (zeroRecord call) :=
  fun _ => ⟨rfl, rfl⟩

theorem challengePuf_refines_boot :
    ∃ client : PufClient, client.result = some 0 ∧ ∃ session,
      (client.own.record .proofs).contents =
        pureCall (fun _ _ inputs i _ => (inputs i).headD 7) session .proofs
          (zeroRecord .proofs).contents := by
  let function : TeeFunction := fun _ _ inputs i _ => (inputs i).headD 7
  have callable : Callable zephyrOfImage bootOwn := .boot rfl
  have refines := (challengePuf_refines zephyrOfImage_dispatches callable zeroRecord_hasPattern
    (bootShared default) function).2
  have started : Reaches mailbox (.timely fun _ => Serves function)
      (start bootOwn (bootShared default) (challengePuf zephyrOfImage))
      (start bootOwn (bootShared default) (challengePuf zephyrOfImage)) := .refl
  obtain ⟨client, reaches, returned⟩ := exists_returned (fun _ => exists_serves function) started
  obtain ⟨code, result⟩ := Option.isSome_iff_exists.mp returned
  obtain ⟨rfl, reply, _, _, records⟩ := (refines client reaches).2 code result
  exact ⟨client, result, _, (records .proofs).1⟩

end Uc1Integration.Tee
