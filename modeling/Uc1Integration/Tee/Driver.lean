import Uc1Integration.Interaction.Mailbox
import Uc1Integration.Tee.SharedMemory
import Uc1Integration.Transport.Challenge

/-!
# The TEE driver

The client VM's side of the mailbox: the interrupt handler of
`crosscon_hv_config.c` and the driver of `crosscon_hv_tee.c`, one statement for
each assignment. A hypercall notifies the TEE.
-/

set_option autoImplicit false

namespace Uc1Integration.Tee

open Interaction Transport

structure InvokeFuncArg where
  func : UInt32
  session : UInt32
  cancelId : UInt32
  ret : UInt32
  retOrigin : UInt32
  deriving DecidableEq, Repr

structure OpenSessionArg where
  uuid : Uuid
  clntUuid : Uuid
  clntLogin : UInt32
  cancelId : UInt32
  ret : UInt32

inductive LogEntry where
  | returned (ret retOrigin : UInt32)
  | paramType (i : Fin vmsMaxParams) (type : UInt32)
  | hexdump (a b : UInt64) (data : List UInt8)
  | value (a b : UInt64)
  | handled

/-- The shared message, and the globals the interrupt handler copies replies to. -/
structure Shared where
  msg : SharedMessage
  param : Fin vmsMaxParams → Param
  invokeFuncArg : InvokeFuncArg
  sessionId : UInt32
  log : List LogEntry

/-- The three calls `challenge_puf` makes, each with its own record. -/
inductive CallName where
  | init
  | commitment
  | proofs
  deriving DecidableEq, Repr

/-- What only the client's own statements use. `sessionId` is the argument of the
current call, and `copies` the payload ranges copied out so far. -/
structure Own where
  res : Int
  sessionArg : OpenSessionArg
  sessionId : UInt32
  record : CallName → FuncCall
  copies : List (Nat × Nat)

abbrev ClientStmt := Stmt Own Shared

def Shared.logs (shared : Shared) (entry : LogEntry) : Shared :=
  { shared with log := shared.log ++ [entry] }

/-- One round of the handler's loop over the parameters. -/
def handleParam (shared : Shared) (i : Fin vmsMaxParams) : Shared :=
  let type := (shared.msg.params i).type
  let shared := { shared with param := Function.update shared.param i (shared.msg.params i) }
  let shared := shared.logs (.paramType i type)
  if type = teeParamAttrTypeMemrefOutput.toUInt32 ∨
      type = teeParamAttrTypeMemrefInout.toUInt32 then
    shared.logs (.hexdump (shared.param i).a (shared.param i).b
      ((shared.param i).slot shared.msg.payload))
  else if type = teeParamAttrTypeValueOutput.toUInt32 ∨
      type = teeParamAttrTypeValueInout.toUInt32 then
    shared.logs (.value (shared.param i).a (shared.param i).b)
  else shared

def ipcIrqClientHandler (shared : Shared) : Shared :=
  let shared :=
    if shared.msg.callType = teeCallTypeInvokeFunc then
      let shared :=
        { shared with
          invokeFuncArg :=
            { shared.invokeFuncArg with
              ret := shared.msg.invokeArgs.ret
              retOrigin := shared.msg.invokeArgs.retOrigin } }
      let shared := shared.logs (.returned shared.invokeFuncArg.ret shared.invokeFuncArg.retOrigin)
      (List.finRange vmsMaxParams).foldl handleParam shared
    else if shared.msg.callType = teeCallTypeOpenSession then
      { shared with sessionId := shared.msg.sessionArgs.session }
    else shared
  shared.logs .handled

/-- The mailbox as the TEE VM sees it. -/
def mailbox : Mailbox Shared SharedMessage where
  read := Shared.msg
  put := fun message shared => { shared with msg := message }
  handle := ipcIrqClientHandler

/-- An assignment to the shared message or to a global the handler writes. -/
def assign (f : Shared → Shared) : ClientStmt :=
  .touch fun own shared => (own, f shared)

def assignMsg (f : Own → Shared → SharedMessage → SharedMessage) : ClientStmt :=
  .touch fun own shared => (own, { shared with msg := f own shared shared.msg })

def assignSessionArgs (f : Own → Shared → OpenSessionArgs → OpenSessionArgs) : ClientStmt :=
  assignMsg fun own shared msg => { msg with sessionArgs := f own shared msg.sessionArgs }

def assignInvokeArgs (f : Shared → InvokeArgs → InvokeArgs) : ClientStmt :=
  assignMsg fun _ shared msg => { msg with invokeArgs := f shared msg.invokeArgs }

def returnCode (code : Int) : ClientStmt :=
  .own fun own => { own with res := code }

/-- The type of parameter `i` of a call with `numParam` parameters. -/
def paramType (numParam : Nat) (param : Fin vmsMaxParams → Param) (i : Fin vmsMaxParams) :
    UInt32 :=
  if i < numParam then (param i).type else teeParamAttrTypeNone.toUInt32

def paramTypes (numParam : Nat) (param : Fin vmsMaxParams → Param) : UInt32 :=
  crossconParamTypes (paramType numParam param 0) (paramType numParam param 1)
    (paramType numParam param 2) (paramType numParam param 3)

/-- The loop that fills the parameters of the shared header from the caller's. -/
def fillParams (numParam : Nat) (param : Shared → Fin vmsMaxParams → Param) : List ClientStmt :=
  let assignField (i : Fin vmsMaxParams) (f : Param → Param → Param) : ClientStmt :=
    assign fun shared =>
      { shared with
        msg :=
          { shared.msg with
            params := Function.update shared.msg.params i
              (f (shared.msg.params i) (param shared i)) } }
  ((List.finRange vmsMaxParams).filter fun i => i.val < numParam).flatMap fun i =>
    [assignField i fun entry param => { entry with attr := param.attr },
      assignField i fun entry param => { entry with a := param.a },
      assignField i fun entry param => { entry with b := param.b },
      assignField i fun entry param => { entry with c := param.c }]

def crossconHvTeeOpenSession (arg : Own → OpenSessionArg) (numParam : Nat)
    (param : Shared → Fin vmsMaxParams → Param) : List ClientStmt :=
  [assignMsg fun _ _ msg => { msg with callType := teeCallTypeOpenSession },
    assignSessionArgs fun own _ args => { args with uuid := (arg own).uuid },
    assignSessionArgs fun own _ args => { args with clntUuid := (arg own).clntUuid },
    assignSessionArgs fun own _ args => { args with clntLogin := (arg own).clntLogin },
    assignSessionArgs fun _ _ args => { args with cancelId := 0 },
    assignSessionArgs fun _ _ args => { args with session := 0 },
    assignSessionArgs fun _ _ args => { args with ret := 0 },
    assignSessionArgs fun _ _ args => { args with retOrigin := 0 },
    assignSessionArgs fun _ shared args =>
      { args with paramTypes := paramTypes numParam (param shared) }] ++
  fillParams numParam param ++ [.notify, returnCode 0]

def crossconHvTeeCloseSession : List ClientStmt :=
  [assignMsg fun _ _ msg => { msg with callType := teeCallTypeCloseSession },
    assignSessionArgs fun _ _ _ =>
      ⟨List.replicate teeUuidLen 0, List.replicate teeUuidLen 0, 0, 0, 0, 0, 0, 0⟩,
    assignSessionArgs fun own _ args => { args with session := own.sessionId },
    .notify, returnCode 0]

def crossconHvTeeInvokeFunc (arg : Shared → InvokeFuncArg) (numParam : Nat)
    (param : Shared → Fin vmsMaxParams → Param) : List ClientStmt :=
  [assignMsg fun _ _ msg => { msg with callType := teeCallTypeInvokeFunc },
    assignInvokeArgs fun shared args => { args with func := (arg shared).func },
    assignInvokeArgs fun shared args => { args with session := (arg shared).session },
    assignInvokeArgs fun shared args => { args with cancelId := (arg shared).cancelId },
    assignInvokeArgs fun _ args => { args with ret := 0 },
    assignInvokeArgs fun _ args => { args with retOrigin := 0 },
    assignInvokeArgs fun shared args =>
      { args with paramTypes := paramTypes numParam (param shared) }] ++
  fillParams numParam param ++ [.notify, returnCode 0]

end Uc1Integration.Tee
