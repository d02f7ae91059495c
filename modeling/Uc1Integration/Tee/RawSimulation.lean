import Uc1Integration.Tee.PufCallerProperties
import Uc1Integration.Tee.RawDriver

/-! Every run on the bytes of the shared page is a run on the records they hold. -/

set_option autoImplicit false

namespace Uc1Integration.Tee.Raw

open Interaction Transport Memory SharedMessage

variable {size : EnumSize}

theorem slice_memory (memory : Bytes) (start count : Nat) :
    slice memory (payloadOffset size + start) count =
      slice (SharedMessage.view size memory).payload start count := by
  rw [slice_eq_iff, payload_view]
  intro k _
  exact congrArg memory (Nat.add_assoc _ _ _)

section Handler

variable (raw : RawShared) (i : Fin vmsMaxParams)

theorem read_attr : (atAttr size i).read raw.memory = ((raw.view size).msg.params i).attr :=
  (atAttr size i).read_eq raw.memory

theorem read_a : (atA size i).read raw.memory = ((raw.view size).msg.params i).a :=
  (atA size i).read_eq raw.memory

theorem read_b : (atB size i).read raw.memory = ((raw.view size).msg.params i).b :=
  (atB size i).read_eq raw.memory

theorem read_c : (atC size i).read raw.memory = ((raw.view size).msg.params i).c :=
  (atC size i).read_eq raw.memory

theorem view_logs (entry : LogEntry) :
    (raw.logs entry).view size = (raw.view size).logs entry :=
  rfl

theorem view_handleParam :
    (handleParam size raw i).view size = Tee.handleParam (raw.view size) i := by
  unfold handleParam Tee.handleParam
  simp only [read_attr, read_a, read_b, read_c, slice_memory]
  rw [apply_ite (RawShared.view size), apply_ite (RawShared.view size)]
  rfl

theorem view_foldl_handleParam (indices : List (Fin vmsMaxParams)) :
    (indices.foldl (handleParam size) raw).view size =
      indices.foldl Tee.handleParam (raw.view size) := by
  induction indices generalizing raw with
  | nil => rfl
  | cons first rest ih =>
      rw [List.foldl_cons, ih, view_handleParam]
      rfl

theorem view_handler :
    (ipcIrqClientHandler size raw).view size = Tee.ipcIrqClientHandler (raw.view size) := by
  have callType : (atCallType size).read raw.memory = (raw.view size).msg.callType :=
    (atCallType size).read_eq raw.memory
  have ret : (atInvokeRet size).read raw.memory = (raw.view size).msg.invokeArgs.ret :=
    (atInvokeRet size).read_eq raw.memory
  have retOrigin : (atInvokeRetOrigin size).read raw.memory =
      (raw.view size).msg.invokeArgs.retOrigin := (atInvokeRetOrigin size).read_eq raw.memory
  have session : (atSession size).read raw.memory = (raw.view size).msg.sessionArgs.session :=
    (atSession size).read_eq raw.memory
  unfold ipcIrqClientHandler Tee.ipcIrqClientHandler
  simp only [callType, ret, retOrigin, session]
  rw [view_logs, apply_ite (RawShared.view size), apply_ite (RawShared.view size),
    view_foldl_handleParam]
  rfl

end Handler

theorem mailbox_mirrors : (mailbox size).Mirrors (RawShared.view size) (SharedMessage.view size)
    Tee.mailbox :=
  ⟨fun _ => rfl, fun _ _ => rfl, view_handler⟩

/-- The UUIDs of the caller are as long as a UUID. -/
structure UuidsSized (own : Own) : Prop where
  uuid : own.sessionArg.uuid.length = teeUuidLen
  clntUuid : own.sessionArg.clntUuid.length = teeUuidLen

/-- The same statement on the bytes and on the record. -/
abbrev Same (size : EnumSize) : RawStmt → ClientStmt → Prop :=
  Stmt.Mirrors (RawShared.view size) UuidsSized

abbrev SameScript (size : EnumSize) : List RawStmt → List ClientStmt → Prop :=
  List.Forall₂ (Same size)

theorem same_store {α : Type} {codec : Codec α}
    (place : Place (SharedMessage.view size) codec) {value : Own → RawShared → α}
    {f : Own → Shared → SharedMessage → SharedMessage}
    (valid : ∀ own raw, UuidsSized own → codec.Valid (value own raw))
    (same : ∀ own (raw : RawShared), f own (raw.view size) (raw.view size).msg =
      place.set (value own raw) (raw.view size).msg) :
    Same size (store size place value) (assignMsg f) := by
  refine .touch fun own raw sized => ⟨?_, sized⟩
  have stored := place.view_write (valid own raw sized) raw.memory
  refine Prod.ext rfl ?_
  dsimp only
  rw [same own raw]
  unfold RawShared.view
  rw [stored]

theorem same_uint32 (place : Place (SharedMessage.view size) .uint32)
    {value : Own → RawShared → UInt32} {f : Own → Shared → SharedMessage → SharedMessage}
    (same : ∀ own (raw : RawShared), f own (raw.view size) (raw.view size).msg =
      place.set (value own raw) (raw.view size).msg) :
    Same size (store size place value) (assignMsg f) :=
  same_store place (fun _ _ _ => trivial) same

theorem same_uint64 (place : Place (SharedMessage.view size) .uint64)
    {value : Own → RawShared → UInt64} {f : Own → Shared → SharedMessage → SharedMessage}
    (same : ∀ own (raw : RawShared), f own (raw.view size) (raw.view size).msg =
      place.set (value own raw) (raw.view size).msg) :
    Same size (store size place value) (assignMsg f) :=
  same_store place (fun _ _ _ => trivial) same

theorem same_callType {type : UInt32} (small : type.toNat < 256) :
    Same size (store size (atCallType size) fun _ _ => type)
      (assignMsg fun _ _ msg => { msg with callType := type }) := by
  refine same_store _ (fun _ _ _ => ?_) fun _ _ => rfl
  have bound : 256 ≤ 256 ^ size.bytes := by cases size <;> decide
  exact Nat.lt_of_lt_of_le small bound

/-- A copy into the payload, from where the header's offsets put it. -/
theorem same_copy (start : RawShared → Nat) {count : RawShared → Nat} {source : Own → Bytes}
    {f : Own → Shared → SharedMessage → SharedMessage}
    (same : ∀ own (raw : RawShared), f own (raw.view size) (raw.view size).msg =
      { (raw.view size).msg with
        payload := fill (raw.view size).msg.payload (start raw) (count raw) (source own) }) :
    Same size (copyTo (fun raw => vmsOffsetPayload size + start raw) count source)
      (assignMsg f) := by
  refine .touch fun own raw sized => ⟨Prod.ext rfl ?_, sized⟩
  have copied := view_copy_payload size raw.memory (source own) (start raw) (count raw)
  rw [← vmsOffsetPayload_eq] at copied
  dsimp only
  rw [same own raw]
  unfold RawShared.view
  rw [copied]

/-- A statement that has nothing to do with the message. -/
def LeavesMessage : ClientStmt → Prop
  | .touch f => ∀ own shared, (f own shared).2.msg = shared.msg
  | .own _ => True
  | .leaveIf _ _ => True
  | .notify => True

theorem same_onGlobals {statement : ClientStmt} (leaves : LeavesMessage statement)
    (keeps : statement.Keeps UuidsSized) : Same size (onGlobals size statement) statement := by
  cases statement with
  | touch f =>
      refine .touch fun own raw sized => ⟨Prod.ext rfl ?_, keeps own _ sized⟩
      have msg := leaves own (raw.view size)
      generalize f own (raw.view size) = after at msg
      obtain ⟨own', shared'⟩ := after
      obtain ⟨_, _, _, _, _⟩ := shared'
      cases msg
      rfl
  | own f => exact .own keeps
  | leaveIf condition code => exact .leaveIf
  | notify => exact .notify

theorem SameScript.append {raw raw' : List RawStmt} {script script' : List ClientStmt}
    (first : SameScript size raw script) (second : SameScript size raw' script') :
    SameScript size (raw ++ raw') (script ++ script') :=
  List.rel_append first second

theorem same_param (i : Fin vmsMaxParams) {field : Place Param.codec.decode .uint64}
    (fits : field.offset + Codec.uint64.width ≤ Param.codec.width) {value : Param → UInt64}
    {f : Param → Param → Param} {rawParam : RawShared → Fin vmsMaxParams → Param}
    {param : Shared → Fin vmsMaxParams → Param}
    (given : rawParam = fun raw => param (raw.view size))
    (same : ∀ entry param, f entry param = field.set (value param) entry) :
    Same size (store size (inParam size i field fits) fun _ raw => value (rawParam raw i))
      (assign fun shared =>
        { shared with
          msg :=
            { shared.msg with
              params := Function.update shared.msg.params i
                (f (shared.msg.params i) (param shared i)) } }) := by
  refine same_uint64 (f := fun _ shared msg =>
    { msg with
      params := Function.update msg.params i (f (msg.params i) (param shared i)) }) _ ?_
  intro own raw
  subst given
  rw [same]
  rfl

theorem same_fillParams (numParam : Nat) {rawParam : RawShared → Fin vmsMaxParams → Param}
    {param : Shared → Fin vmsMaxParams → Param}
    (given : rawParam = fun raw => param (raw.view size)) :
    SameScript size (fillParams size numParam rawParam) (Tee.fillParams numParam param) := by
  refine List.rel_flatMap (List.forall₂_same.mpr fun _ _ => rfl) ?_
  rintro i _ rfl
  refine .cons ?_ (.cons ?_ (.cons ?_ (.cons ?_ .nil)))
  all_goals exact same_param i _ given fun _ _ => rfl

theorem same_returnCode (code : Int) :
    Same size (onGlobals size (returnCode code)) (returnCode code) :=
  same_onGlobals trivial fun _ sized => ⟨sized.uuid, sized.clntUuid⟩

theorem same_openSession (numParam : Nat) {rawParam : RawShared → Fin vmsMaxParams → Param}
    {param : Shared → Fin vmsMaxParams → Param}
    (given : rawParam = fun raw => param (raw.view size)) :
    SameScript size (crossconHvTeeOpenSession size Own.sessionArg numParam rawParam)
      (Tee.crossconHvTeeOpenSession Own.sessionArg numParam param) := by
  refine .append (.append ?_ (same_fillParams numParam given))
    (.cons .notify (.cons (same_returnCode 0) .nil))
  refine .cons (same_callType (by decide)) ?_
  refine .cons (same_store _ (fun _ _ sized => sized.uuid) fun _ _ => rfl) ?_
  refine .cons (same_store _ (fun _ _ sized => sized.clntUuid) fun _ _ => rfl) ?_
  iterate 5 refine .cons (same_uint32 _ fun _ _ => rfl) ?_
  subst given
  exact .cons (same_uint32 _ fun _ _ => rfl) .nil

/-- Bytes of zero are an argument record of zeros. -/
theorem copyTo_zero :
    copyTo (fun _ => (atSessionArgs size).offset) (fun _ => sizeofOpenSessionArgs) (fun _ _ => 0) =
      store size (atSessionArgs size) fun _ _ =>
        ⟨List.replicate teeUuidLen 0, List.replicate teeUuidLen 0, 0, 0, 0, 0, 0, 0⟩ := by
  have zeros : OpenSessionArgs.codec.decode 0 =
      ⟨List.replicate teeUuidLen 0, List.replicate teeUuidLen 0, 0, 0, 0, 0, 0, 0⟩ := rfl
  unfold copyTo store
  congr 1
  funext own raw
  refine congrArg (fun memory => (own, { raw with memory })) (Bytes.copy_congr ?_)
  intro k inside
  rw [← zeros, OpenSessionArgs.codec.encode_decode 0 k inside]
  rfl

theorem same_closeSession :
    SameScript size (crossconHvTeeCloseSession size) Tee.crossconHvTeeCloseSession := by
  refine .cons (same_callType (by decide)) (.cons ?_ (.cons (same_uint32 _ fun _ _ => rfl)
    (.cons .notify (.cons (same_returnCode 0) .nil))))
  rw [copyTo_zero]
  refine same_store _ (fun _ _ _ => ?_) fun _ _ => rfl
  exact ⟨List.length_replicate, List.length_replicate⟩

theorem same_invokeFunc (numParam : Nat) {rawParam : RawShared → Fin vmsMaxParams → Param}
    {param : Shared → Fin vmsMaxParams → Param}
    (given : rawParam = fun raw => param (raw.view size)) :
    SameScript size (crossconHvTeeInvokeFunc size RawShared.invokeFuncArg numParam rawParam)
      (Tee.crossconHvTeeInvokeFunc Shared.invokeFuncArg numParam param) := by
  refine .append (.append ?_ (same_fillParams numParam given))
    (.cons .notify (.cons (same_returnCode 0) .nil))
  refine .cons (same_callType (by decide)) ?_
  iterate 5 refine .cons (same_uint32 _ fun _ _ => rfl) ?_
  subst given
  exact .cons (same_uint32 _ fun _ _ => rfl) .nil

theorem same_call (zephyr : Zephyr) (operation : TeeOperation) {raw : List RawStmt}
    {driver : List ClientStmt} (same : SameScript size raw driver) :
    SameScript size (call size zephyr operation raw) (zephyr.call operation driver) := by
  unfold call Zephyr.call
  cases zephyr.rejects operation with
  | none => exact same
  | some error => exact .cons (same_returnCode error.code) .nil

section Caller

variable (zephyr : Zephyr) (name : CallName)

theorem same_setParam (i : Fin vmsMaxParams) (attr b : UInt64) :
    SameScript size (setParam size zephyr i attr b) (Tee.setParam zephyr i attr b) := by
  iterate 4 refine .cons (same_onGlobals (fun _ _ => rfl) fun _ _ sized => sized) ?_
  exact .nil

theorem same_setInvokeFuncArg :
    SameScript size (setInvokeFuncArg size name) (Tee.setInvokeFuncArg name) := by
  iterate 5 refine .cons (same_onGlobals (fun _ _ => rfl) fun _ _ sized => sized) ?_
  exact .nil

theorem same_invoke : SameScript size (invokeFunc size zephyr name) (Tee.invokeFunc zephyr name) :=
  same_call zephyr _ (same_invokeFunc vmsMaxParams rfl)

theorem same_setParams (attr b : Fin vmsMaxParams → UInt64) :
    SameScript size
      (setParam size zephyr 0 (attr 0) (b 0) ++ setParam size zephyr 1 (attr 1) (b 1) ++
        setParam size zephyr 2 (attr 2) (b 2) ++ setParam size zephyr 3 (attr 3) (b 3) ++
        setInvokeFuncArg size name)
      (Tee.setParam zephyr 0 (attr 0) (b 0) ++ Tee.setParam zephyr 1 (attr 1) (b 1) ++
        Tee.setParam zephyr 2 (attr 2) (b 2) ++ Tee.setParam zephyr 3 (attr 3) (b 3) ++
        Tee.setInvokeFuncArg name) := by
  refine .append (.append (.append (.append ?_ ?_) ?_) ?_) (same_setInvokeFuncArg name)
  all_goals exact same_setParam zephyr _ _ _

theorem same_clearShm : Same size (clearShm size) Tee.clearShm :=
  same_copy (fun _ => 0) fun _ _ => rfl

theorem same_copyToShm (i : Fin vmsMaxParams) :
    Same size (copyToShm size name i) (Tee.copyToShm name i) :=
  same_copy (fun raw => (raw.param i).a.toNat) fun _ _ => rfl

theorem same_callPufTaInit :
    SameScript size (callPufTaInit size zephyr name) (Tee.callPufTaInit zephyr name) :=
  (same_setParams zephyr name (fun _ => teeParamAttrTypeMemrefOutput) fun _ => 32).append
    (same_invoke zephyr name)

theorem same_callPufTaGetCommitment :
    SameScript size (callPufTaGetCommitment size zephyr name)
      (Tee.callPufTaGetCommitment zephyr name) := by
  refine ((same_setParams zephyr name (attrOf .commitment) (sizeOf .commitment)).append ?_).append
    (same_invoke zephyr name)
  exact .cons same_clearShm
    (.cons (same_copyToShm name 0) (.cons (same_copyToShm name 1) .nil))

theorem same_callPufTaGetZkProofs :
    SameScript size (callPufTaGetZkProofs size zephyr name)
      (Tee.callPufTaGetZkProofs zephyr name) := by
  refine ((same_setParams zephyr name (attrOf .proofs) (sizeOf .proofs)).append ?_).append
    (same_invoke zephyr name)
  exact .cons same_clearShm (.cons (same_copyToShm name 0)
    (.cons (same_copyToShm name 1) (.cons (same_copyToShm name 2) .nil)))

theorem same_copyResult (i : Fin dataPortions) :
    Same size (copyResult size name i) (Tee.copyResult name i) := by
  refine .touch fun own raw sized => ⟨?_, sized.uuid, sized.clntUuid⟩
  dsimp only
  rw [slice_memory]
  rfl

theorem same_passSessionId : Same size (onGlobals size passSessionId) passSessionId :=
  same_onGlobals (fun _ _ => rfl) fun _ _ sized => ⟨sized.uuid, sized.clntUuid⟩

theorem same_callAndCopy {rawCaller : CallName → List RawStmt}
    {caller : CallName → List ClientStmt} (same : SameScript size (rawCaller name) (caller name)) :
    SameScript size (callAndCopy size name rawCaller) (Tee.callAndCopy name caller) := by
  refine .append (.append (.append (.cons same_passSessionId .nil) same) (.cons .leaveIf .nil)) ?_
  refine List.rel_map ?_ (List.forall₂_same.mpr fun _ _ => rfl)
  rintro i _ rfl
  exact same_copyResult name i

theorem same_setSessionArg :
    SameScript size (setSessionArg.map (onGlobals size)) setSessionArg := by
  refine .cons (.own fun _ sized => ⟨rfl, sized.clntUuid⟩) ?_
  refine .cons (.own fun _ sized => ⟨sized.uuid, rfl⟩) ?_
  iterate 2 refine .cons (.own fun _ sized => ⟨sized.uuid, sized.clntUuid⟩) ?_
  exact .nil

theorem same_challengePuf :
    SameScript size (challengePuf size zephyr) (Tee.challengePuf zephyr) := by
  refine .append (.append (.append (.append (.append (.append (.append (.append
    (.cons .leaveIf .nil) same_setSessionArg) ?_) (.cons .leaveIf .nil)) ?_) ?_) ?_)
    (.cons same_passSessionId .nil)) ?_
  · exact same_call zephyr _ (same_openSession 0 rfl)
  · exact same_callAndCopy .init (same_callPufTaInit zephyr .init)
  · exact same_callAndCopy .commitment (same_callPufTaGetCommitment zephyr .commitment)
  · exact same_callAndCopy .proofs (same_callPufTaGetZkProofs zephyr .proofs)
  · exact same_call zephyr _ same_closeSession

end Caller

end Uc1Integration.Tee.Raw
