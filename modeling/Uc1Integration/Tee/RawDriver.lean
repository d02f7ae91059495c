import Uc1Integration.Interaction.MailboxSimulation
import Uc1Integration.Tee.Layout
import Uc1Integration.Tee.PufCaller

/-!
# The TEE driver on the bytes of the shared page

The same functions once more, as the processor executes them: an assignment to
a member of the message stores bytes at the member's place, and reading one
loads them. `shm_ptr` is the payload as the header's offsets have it, and
`msg->payload` the payload as the structure has it.
-/

set_option autoImplicit false

namespace Uc1Integration.Tee.Raw

open Interaction Transport Memory SharedMessage

/-- `Shared`, with the memory from `VMS_IPC_BASE` on in place of the message. -/
structure RawShared where
  memory : Bytes
  param : Fin vmsMaxParams → Param
  invokeFuncArg : InvokeFuncArg
  sessionId : UInt32
  log : List LogEntry

abbrev RawStmt := Stmt Own RawShared

namespace RawShared

def view (size : EnumSize) (raw : RawShared) : Shared :=
  ⟨SharedMessage.view size raw.memory, raw.param, raw.invokeFuncArg, raw.sessionId, raw.log⟩

def withGlobals (raw : RawShared) (shared : Shared) : RawShared :=
  { raw with
    param := shared.param
    invokeFuncArg := shared.invokeFuncArg
    sessionId := shared.sessionId
    log := shared.log }

def logs (raw : RawShared) (entry : LogEntry) : RawShared :=
  { raw with log := raw.log ++ [entry] }

end RawShared

variable (size : EnumSize)

def store {α : Type} {codec : Codec α} (place : Place (SharedMessage.view size) codec)
    (value : Own → RawShared → α) : RawStmt :=
  .touch fun own raw => (own, { raw with memory := place.write (value own raw) raw.memory })

/-- `memset` and `memcpy`. -/
def copyTo (offset count : RawShared → Nat) (source : Own → Bytes) : RawStmt :=
  .touch fun own raw =>
    (own, { raw with memory := raw.memory.copy (offset raw) (count raw) (source own) })

/-- A statement that has nothing to do with the shared page. -/
def onGlobals : ClientStmt → RawStmt
  | .touch f => .touch fun own raw =>
      ((f own (raw.view size)).1, raw.withGlobals (f own (raw.view size)).2)
  | .own f => .own f
  | .leaveIf condition code => .leaveIf condition code
  | .notify => .notify

section Places

def atUuid : Place (SharedMessage.view size) (.byteArray teeUuidLen) :=
  (atSessionArgs size).within OpenSessionArgs.atUuid (by decide)

def atClntUuid : Place (SharedMessage.view size) (.byteArray teeUuidLen) :=
  (atSessionArgs size).within OpenSessionArgs.atClntUuid (by decide)

def inSessionArgs (field : Place OpenSessionArgs.codec.decode .uint32)
    (fits : field.offset + Codec.uint32.width ≤ OpenSessionArgs.codec.width) :
    Place (SharedMessage.view size) .uint32 :=
  (atSessionArgs size).within field fits

def inInvokeArgs (field : Place InvokeArgs.codec.decode .uint32)
    (fits : field.offset + Codec.uint32.width ≤ InvokeArgs.codec.width) :
    Place (SharedMessage.view size) .uint32 :=
  (atInvokeArgs size).within field fits

def inParam (i : Fin vmsMaxParams) (field : Place Param.codec.decode .uint64)
    (fits : field.offset + Codec.uint64.width ≤ Param.codec.width) :
    Place (SharedMessage.view size) .uint64 :=
  (atParam size i).within field fits

def atAttr (i : Fin vmsMaxParams) := inParam size i Param.atAttr (by decide)

def atA (i : Fin vmsMaxParams) := inParam size i Param.atA (by decide)

def atB (i : Fin vmsMaxParams) := inParam size i Param.atB (by decide)

def atC (i : Fin vmsMaxParams) := inParam size i Param.atC (by decide)

def atInvokeRet := inInvokeArgs size InvokeArgs.atRet (by decide)

def atInvokeRetOrigin := inInvokeArgs size InvokeArgs.atRetOrigin (by decide)

def atSession := inSessionArgs size OpenSessionArgs.atSession (by decide)

end Places

def handleParam (raw : RawShared) (i : Fin vmsMaxParams) : RawShared :=
  let type := ((atAttr size i).read raw.memory &&& teeParamAttrTypeMask).toUInt32
  let raw :=
    { raw with
      param := Function.update raw.param i
        ⟨(atAttr size i).read raw.memory, (atA size i).read raw.memory,
          (atB size i).read raw.memory, (atC size i).read raw.memory⟩ }
  let raw := raw.logs (.paramType i type)
  if type = teeParamAttrTypeMemrefOutput.toUInt32 ∨
      type = teeParamAttrTypeMemrefInout.toUInt32 then
    raw.logs (.hexdump (raw.param i).a (raw.param i).b
      (slice raw.memory (payloadOffset size + (raw.param i).a.toNat) (raw.param i).b.toNat))
  else if type = teeParamAttrTypeValueOutput.toUInt32 ∨
      type = teeParamAttrTypeValueInout.toUInt32 then
    raw.logs (.value (raw.param i).a (raw.param i).b)
  else raw

def ipcIrqClientHandler (raw : RawShared) : RawShared :=
  let callType := (atCallType size).read raw.memory
  let raw :=
    if callType = teeCallTypeInvokeFunc then
      let raw :=
        { raw with
          invokeFuncArg :=
            { raw.invokeFuncArg with
              ret := (atInvokeRet size).read raw.memory
              retOrigin := (atInvokeRetOrigin size).read raw.memory } }
      let raw := raw.logs (.returned raw.invokeFuncArg.ret raw.invokeFuncArg.retOrigin)
      (List.finRange vmsMaxParams).foldl (handleParam size) raw
    else if callType = teeCallTypeOpenSession then
      { raw with sessionId := (atSession size).read raw.memory }
    else raw
  raw.logs .handled

/-- The other VM may leave any bytes. -/
def mailbox : Mailbox RawShared Bytes where
  read := RawShared.memory
  put := fun memory raw => { raw with memory }
  handle := ipcIrqClientHandler size

def fillParams (numParam : Nat) (param : RawShared → Fin vmsMaxParams → Param) :
    List RawStmt :=
  ((List.finRange vmsMaxParams).filter fun i => i.val < numParam).flatMap fun i =>
    [store size (atAttr size i) fun _ raw => (param raw i).attr,
      store size (atA size i) fun _ raw => (param raw i).a,
      store size (atB size i) fun _ raw => (param raw i).b,
      store size (atC size i) fun _ raw => (param raw i).c]

def crossconHvTeeOpenSession (arg : Own → OpenSessionArg) (numParam : Nat)
    (param : RawShared → Fin vmsMaxParams → Param) : List RawStmt :=
  let sessionArgs (field : Place OpenSessionArgs.codec.decode .uint32)
      (fits : field.offset + Codec.uint32.width ≤ OpenSessionArgs.codec.width)
      (value : Own → RawShared → UInt32) : RawStmt :=
    store size (inSessionArgs size field fits) value
  [store size (atCallType size) fun _ _ => teeCallTypeOpenSession,
    store size (atUuid size) fun own _ => (arg own).uuid,
    store size (atClntUuid size) fun own _ => (arg own).clntUuid,
    sessionArgs OpenSessionArgs.atClntLogin (by decide) fun own _ => (arg own).clntLogin,
    sessionArgs OpenSessionArgs.atCancelId (by decide) fun _ _ => 0,
    sessionArgs OpenSessionArgs.atSession (by decide) fun _ _ => 0,
    sessionArgs OpenSessionArgs.atRet (by decide) fun _ _ => 0,
    sessionArgs OpenSessionArgs.atRetOrigin (by decide) fun _ _ => 0,
    sessionArgs OpenSessionArgs.atParamTypes (by decide) fun _ raw =>
      paramTypes numParam (param raw)] ++
  fillParams size numParam param ++ [.notify, onGlobals size (returnCode 0)]

def crossconHvTeeCloseSession : List RawStmt :=
  [store size (atCallType size) fun _ _ => teeCallTypeCloseSession,
    copyTo (fun _ => (atSessionArgs size).offset) (fun _ => sizeofOpenSessionArgs) fun _ _ => 0,
    store size (atSession size) fun own _ => own.sessionId,
    .notify, onGlobals size (returnCode 0)]

def crossconHvTeeInvokeFunc (arg : RawShared → InvokeFuncArg) (numParam : Nat)
    (param : RawShared → Fin vmsMaxParams → Param) : List RawStmt :=
  let invokeArgs (field : Place InvokeArgs.codec.decode .uint32)
      (fits : field.offset + Codec.uint32.width ≤ InvokeArgs.codec.width)
      (value : RawShared → UInt32) : RawStmt :=
    store size (inInvokeArgs size field fits) fun _ raw => value raw
  [store size (atCallType size) fun _ _ => teeCallTypeInvokeFunc,
    invokeArgs InvokeArgs.atFunc (by decide) fun raw => (arg raw).func,
    invokeArgs InvokeArgs.atSession (by decide) fun raw => (arg raw).session,
    invokeArgs InvokeArgs.atCancelId (by decide) fun raw => (arg raw).cancelId,
    invokeArgs InvokeArgs.atRet (by decide) fun _ => 0,
    invokeArgs InvokeArgs.atRetOrigin (by decide) fun _ => 0,
    invokeArgs InvokeArgs.atParamTypes (by decide) fun raw => paramTypes numParam (param raw)] ++
  fillParams size numParam param ++ [.notify, onGlobals size (returnCode 0)]

def call (zephyr : Zephyr) (operation : TeeOperation) (driver : List RawStmt) : List RawStmt :=
  match zephyr.rejects operation with
  | none => driver
  | some error => [onGlobals size (returnCode error.code)]

def setParam (zephyr : Zephyr) (i : Fin vmsMaxParams) (attr b : UInt64) : List RawStmt :=
  (Tee.setParam zephyr i attr b).map (onGlobals size)

def setInvokeFuncArg (name : CallName) : List RawStmt :=
  (Tee.setInvokeFuncArg name).map (onGlobals size)

/-- `memset(shm_ptr, 0, 1024)`, with `shm_ptr` the macro `VMS_PAYLOAD_PTR`. -/
def clearShm : RawStmt :=
  copyTo (fun _ => vmsOffsetPayload size) (fun _ => 1024) fun _ _ => 0

def copyToShm (name : CallName) (i : Fin vmsMaxParams) : RawStmt :=
  copyTo (fun raw => vmsOffsetPayload size + (raw.param i).a.toNat)
    (fun raw => (raw.param i).b.toNat) fun own => ((own.record name).dataP i).byteAt

def invokeFunc (zephyr : Zephyr) (name : CallName) : List RawStmt :=
  call size zephyr (.invokeFunc name)
    (crossconHvTeeInvokeFunc size RawShared.invokeFuncArg vmsMaxParams RawShared.param)

def callPufTaInit (zephyr : Zephyr) (name : CallName) : List RawStmt :=
  setParam size zephyr 0 teeParamAttrTypeMemrefOutput 32 ++
  setParam size zephyr 1 teeParamAttrTypeMemrefOutput 32 ++
  setParam size zephyr 2 teeParamAttrTypeMemrefOutput 32 ++
  setParam size zephyr 3 teeParamAttrTypeMemrefOutput 32 ++
  setInvokeFuncArg size name ++
  invokeFunc size zephyr name

def callPufTaGetCommitment (zephyr : Zephyr) (name : CallName) : List RawStmt :=
  setParam size zephyr 0 teeParamAttrTypeMemrefInput 32 ++
  setParam size zephyr 1 teeParamAttrTypeMemrefInput 32 ++
  setParam size zephyr 2 teeParamAttrTypeMemrefOutput 32 ++
  setParam size zephyr 3 teeParamAttrTypeMemrefOutput 32 ++
  setInvokeFuncArg size name ++
  [clearShm size, copyToShm size name 0, copyToShm size name 1] ++
  invokeFunc size zephyr name

def callPufTaGetZkProofs (zephyr : Zephyr) (name : CallName) : List RawStmt :=
  setParam size zephyr 0 teeParamAttrTypeMemrefInout 32 ++
  setParam size zephyr 1 teeParamAttrTypeMemrefInout 32 ++
  setParam size zephyr 2 teeParamAttrTypeMemrefInout 64 ++
  setParam size zephyr 3 teeParamAttrTypeMemrefOutput 64 ++
  setInvokeFuncArg size name ++
  [clearShm size, copyToShm size name 0, copyToShm size name 1, copyToShm size name 2] ++
  invokeFunc size zephyr name

/-- `memcpy` out of `msg->payload`. -/
def copyResult (name : CallName) (i : Fin dataPortions) : RawStmt :=
  .touch fun own raw =>
    let record := own.record name
    let start := (raw.param i).a.toNat
    let len := (record.dataP i).len.toNat
    ({ own with
        record := Function.update own.record name
          (record.setData i (slice raw.memory (payloadOffset size + start) len))
        copies := own.copies ++ [(start, len)] },
      raw)

def cpyLastResult (name : CallName) : List RawStmt :=
  (List.finRange dataPortions).map (copyResult size name)

def callAndCopy (name : CallName) (caller : CallName → List RawStmt) : List RawStmt :=
  [onGlobals size passSessionId] ++ caller name ++ [onGlobals size failed] ++
    cpyLastResult size name

def challengePuf (zephyr : Zephyr) : List RawStmt :=
  [.leaveIf (fun _ => !zephyr.bound) (-1)] ++
  setSessionArg.map (onGlobals size) ++
  call size zephyr .openSession
    (crossconHvTeeOpenSession size Own.sessionArg 0 fun _ _ => ⟨0, 0, 0, 0⟩) ++
  [.leaveIf (fun own => own.res ≠ 0 ∨ own.sessionArg.ret ≠ 0) (-1)] ++
  callAndCopy size .init (callPufTaInit size zephyr) ++
  callAndCopy size .commitment (callPufTaGetCommitment size zephyr) ++
  callAndCopy size .proofs (callPufTaGetZkProofs size zephyr) ++
  [onGlobals size passSessionId] ++
  call size zephyr .closeSession (crossconHvTeeCloseSession size)

end Uc1Integration.Tee.Raw
