import Uc1Integration.Tee.Driver

/-!
# The PUF caller

`pufcaller.c`: the three calls of the PUF trusted application, the copy of their
results, and `challenge_puf`, which waits for the TEE by sleeping. Sleeping and
logging do nothing here; replies may come between any two statements anyway.
-/

set_option autoImplicit false

namespace Uc1Integration.Tee

open Interaction Transport

def clientUuid : Uuid :=
  [0x10, 0x20, 0x30, 0x40, 0x50, 0x60, 0x70, 0x80, 0x90, 0xA0, 0xB0, 0xC0, 0xD0, 0xE0, 0xF0, 0x00]

def pufTaUuid : Uuid :=
  [0x00, 0x11, 0x22, 0x33, 0x44, 0x55, 0x66, 0x77, 0x88, 0x99, 0xAA, 0xBB, 0xCC, 0xDD, 0xEE, 0xFF]

inductive TeeOperation where
  | openSession
  | invokeFunc (call : CallName)
  | closeSession
  deriving DecidableEq, Repr

structure Errno where
  code : Int
  nonzero : code ≠ 0

/-- Zephyr around the driver. A wrapper of its TEE interface calls the driver's
function, or returns an error of its own instead; `ipcShm` is an address. -/
structure Zephyr where
  bound : Bool
  rejects : TeeOperation → Option Errno
  ipcShm : UInt64

/-- Zephyr finds the device and passes every call on to its driver. -/
structure Zephyr.Dispatches (zephyr : Zephyr) : Prop where
  bound : zephyr.bound = true
  accepts : ∀ operation, zephyr.rejects operation = none

def Zephyr.call (zephyr : Zephyr) (operation : TeeOperation) (driver : List ClientStmt) :
    List ClientStmt :=
  match zephyr.rejects operation with
  | none => driver
  | some error => [returnCode error.code]

def setParam (zephyr : Zephyr) (i : Fin vmsMaxParams) (attr : UInt64) (b : UInt64) :
    List ClientStmt :=
  let assignField (f : Param → Param) : ClientStmt :=
    assign fun shared =>
      { shared with param := Function.update shared.param i (f (shared.param i)) }
  [assignField fun param => { param with attr },
    assignField fun param => { param with a := (vmsMemrefOffset i).toUInt64 },
    assignField fun param => { param with b },
    assignField fun param => { param with c := zephyr.ipcShm }]

def setInvokeFuncArg (call : CallName) : List ClientStmt :=
  let assignField (f : Own → InvokeFuncArg → InvokeFuncArg) : ClientStmt :=
    .touch fun own shared =>
      (own, { shared with invokeFuncArg := f own shared.invokeFuncArg })
  [assignField fun own arg => { arg with func := (own.record call).func },
    assignField fun own arg => { arg with session := own.sessionId },
    assignField fun _ arg => { arg with cancelId := 0 },
    assignField fun _ arg => { arg with ret := 0 },
    assignField fun _ arg => { arg with retOrigin := 0 }]

/-- `memset(shm_ptr, 0, 1024)`. -/
def clearShm : ClientStmt :=
  assignMsg fun _ _ msg => { msg with payload := fill msg.payload 0 1024 fun _ => 0 }

/-- `memcpy(shm_ptr + param[i].a, call->data_p[i].data, param[i].b)`. -/
def copyToShm (call : CallName) (i : Fin vmsMaxParams) : ClientStmt :=
  assignMsg fun own shared msg =>
    { msg with
      payload := fill msg.payload (shared.param i).a.toNat (shared.param i).b.toNat
        ((own.record call).dataP i).byteAt }

def invokeFunc (zephyr : Zephyr) (call : CallName) : List ClientStmt :=
  zephyr.call (.invokeFunc call)
    (crossconHvTeeInvokeFunc Shared.invokeFuncArg vmsMaxParams Shared.param)

def callPufTaInit (zephyr : Zephyr) (call : CallName) : List ClientStmt :=
  setParam zephyr 0 teeParamAttrTypeMemrefOutput 32 ++
  setParam zephyr 1 teeParamAttrTypeMemrefOutput 32 ++
  setParam zephyr 2 teeParamAttrTypeMemrefOutput 32 ++
  setParam zephyr 3 teeParamAttrTypeMemrefOutput 32 ++
  setInvokeFuncArg call ++
  invokeFunc zephyr call

def callPufTaGetCommitment (zephyr : Zephyr) (call : CallName) : List ClientStmt :=
  setParam zephyr 0 teeParamAttrTypeMemrefInput 32 ++
  setParam zephyr 1 teeParamAttrTypeMemrefInput 32 ++
  setParam zephyr 2 teeParamAttrTypeMemrefOutput 32 ++
  setParam zephyr 3 teeParamAttrTypeMemrefOutput 32 ++
  setInvokeFuncArg call ++
  [clearShm, copyToShm call 0, copyToShm call 1] ++
  invokeFunc zephyr call

def callPufTaGetZkProofs (zephyr : Zephyr) (call : CallName) : List ClientStmt :=
  setParam zephyr 0 teeParamAttrTypeMemrefInout 32 ++
  setParam zephyr 1 teeParamAttrTypeMemrefInout 32 ++
  setParam zephyr 2 teeParamAttrTypeMemrefInout 64 ++
  setParam zephyr 3 teeParamAttrTypeMemrefOutput 64 ++
  setInvokeFuncArg call ++
  [clearShm, copyToShm call 0, copyToShm call 1, copyToShm call 2] ++
  invokeFunc zephyr call

/-- `memcpy(call->data_p[i].data, &msg->payload[param[i].a], call->data_p[i].len)`. -/
def copyResult (call : CallName) (i : Fin dataPortions) : ClientStmt :=
  .touch fun own shared =>
    let record := own.record call
    let start := (shared.param i).a.toNat
    let len := (record.dataP i).len.toNat
    ({ own with
        record := Function.update own.record call
          (record.setData i (slice shared.msg.payload start len))
        copies := own.copies ++ [(start, len)] },
      shared)

def cpyLastResult (call : CallName) : List ClientStmt :=
  (List.finRange dataPortions).map (copyResult call)

/-- `session_id` is passed by value. -/
def passSessionId : ClientStmt :=
  .touch fun own shared => ({ own with sessionId := shared.sessionId }, shared)

def setSessionArg : List ClientStmt :=
  let assignField (f : OpenSessionArg → OpenSessionArg) : ClientStmt :=
    .own fun own => { own with sessionArg := f own.sessionArg }
  [assignField fun arg => { arg with uuid := pufTaUuid },
    assignField fun arg => { arg with clntUuid := clientUuid },
    assignField fun arg => { arg with clntLogin := teeIoctlLoginUser },
    assignField fun arg => { arg with cancelId := 0 }]

def failed : ClientStmt :=
  .leaveIf (fun own => own.res ≠ 0) (-1)

/-- A call of the trusted application, the test of its return code, and the copy
of its results. -/
def callAndCopy (call : CallName) (caller : CallName → List ClientStmt) : List ClientStmt :=
  [passSessionId] ++ caller call ++ [failed] ++ cpyLastResult call

def challengePuf (zephyr : Zephyr) : List ClientStmt :=
  [.leaveIf (fun _ => !zephyr.bound) (-1)] ++
  setSessionArg ++
  zephyr.call .openSession
    (crossconHvTeeOpenSession Own.sessionArg 0 fun _ _ => ⟨0, 0, 0, 0⟩) ++
  [.leaveIf (fun own => own.res ≠ 0 ∨ own.sessionArg.ret ≠ 0) (-1)] ++
  callAndCopy .init (callPufTaInit zephyr) ++
  callAndCopy .commitment (callPufTaGetCommitment zephyr) ++
  callAndCopy .proofs (callPufTaGetZkProofs zephyr) ++
  [passSessionId] ++
  zephyr.call .closeSession crossconHvTeeCloseSession

end Uc1Integration.Tee
