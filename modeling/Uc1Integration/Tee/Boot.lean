import Uc1Integration.Tee.PufCallerProperties

/-! The memory `challenge_puf` is called with, from boot through any number of
earlier runs. -/

set_option autoImplicit false

namespace Uc1Integration.Tee

open Interaction Transport Client

def zephyrOfImage : Zephyr :=
  ⟨true, fun _ => none, 0x10001000⟩

theorem zephyrOfImage_dispatches : zephyrOfImage.Dispatches :=
  ⟨rfl, fun _ => rfl⟩

/-- The function id a call's record is initialised with. -/
def CallName.func : CallName → UInt32
  | .init => pufTaInitFuncId
  | .commitment => pufTaGetCommitmentFuncId
  | .proofs => pufTaGetZkProofsFuncId

def CallName.pattern : CallName → Fin dataPortions → UInt8
  | .init => patternInitCommit
  | .commitment => patternInitCommit
  | .proofs => patternProofs

def zeroRecord (call : CallName) : FuncCall where
  func := call.func
  dataP := fun i =>
    { len := call.pattern i
      data := some ⟨i, List.replicate (call.pattern i).toNat 0⟩
      fits := by
        intro block member
        cases Option.mem_some_iff.mp member
        rw [List.length_replicate] }

def sessionArgZero : OpenSessionArg :=
  ⟨List.replicate teeUuidLen 0, List.replicate teeUuidLen 0, 0, 0, 0⟩

def bootOwn : Own :=
  ⟨0, sessionArgZero, 0, zeroRecord, []⟩

def bootShared (msg : SharedMessage) : Shared :=
  ⟨msg, fun _ => ⟨0, 0, 0, 0⟩, ⟨0, 0, 0, 0, 0⟩, 0, []⟩

/-- The client's own memory at a call of `challenge_puf`: at boot, or after any
run of it, whatever came of that run, with any records. -/
inductive Callable (zephyr : Zephyr) : Own → Prop where
  | boot {own : Own} : own.sessionArg = sessionArgZero → Callable zephyr own
  | again {own own' : Own} {shared : Shared} {client : Client Own Shared SharedMessage} :
      Callable zephyr own →
      Reaches mailbox .any (start own shared (challengePuf zephyr)) client →
      own'.sessionArg = client.own.sessionArg → Callable zephyr own'

/-- A property that no statement of `challenge_puf` can break: its assignments
are of these four kinds. -/
structure Kept (property : Own → Prop) : Prop where
  res : ∀ own code, property own → property { own with res := code }
  sessionId : ∀ own sessionId, property own → property { own with sessionId }
  sessionArg : ∀ own arg, arg.ret = own.sessionArg.ret → property own →
    property { own with sessionArg := arg }
  copy : ∀ own call i source copies, property own →
    property
      { own with
        record := Function.update own.record call ((own.record call).setData i source)
        copies }

def Keeps (property : Own → Prop) (script : List ClientStmt) : Prop :=
  ∀ statement ∈ script, statement.Keeps property

/-- The kinds of statements `challenge_puf` is made of, apart from the copies into the
payload. None of them writes to the byte behind the page. -/
inductive Plain : ClientStmt → Prop where
  | assign {f : Own → Shared → Shared} :
      (∀ own shared, (f own shared).msg.payload vmsIpcFullSize =
        shared.msg.payload vmsIpcFullSize) →
      Plain (.touch fun own shared => (own, f own shared))
  | sessionArg {arg : Own → OpenSessionArg} : (∀ own, (arg own).ret = own.sessionArg.ret) →
      Plain (.own fun own => { own with sessionArg := arg own })
  | returnCode (code : Int) : Plain (returnCode code)
  | leaveIf (condition : Own → Bool) : Plain (.leaveIf condition (-1))
  | notify : Plain .notify
  | passSessionId : Plain passSessionId
  | copyResult (call : CallName) (i : Fin dataPortions) : Plain (copyResult call i)

abbrev AllPlain (script : List ClientStmt) : Prop :=
  ∀ statement ∈ script, Plain statement

section Plain

theorem plain_call (zephyr : Zephyr) (operation : TeeOperation) {driver : List ClientStmt}
    (plain : AllPlain driver) : AllPlain (zephyr.call operation driver) := by
  unfold Zephyr.call
  split
  · exact plain
  · exact List.forall_mem_singleton.mpr (.returnCode _)

theorem plain_fillParams (numParam : Nat) (param : Shared → Fin vmsMaxParams → Param) :
    AllPlain (fillParams numParam param) := by
  intro statement member
  obtain ⟨i, _, here⟩ := List.mem_flatMap.mp member
  simp only [List.mem_cons, List.not_mem_nil, or_false] at here
  obtain rfl | rfl | rfl | rfl := here
  all_goals exact .assign fun _ _ => rfl

theorem plain_ends : AllPlain [.notify, returnCode 0] :=
  List.forall_mem_cons.mpr ⟨.notify, List.forall_mem_singleton.mpr (.returnCode 0)⟩

theorem plain_openSession (arg : Own → OpenSessionArg) (numParam : Nat)
    (param : Shared → Fin vmsMaxParams → Param) :
    AllPlain (crossconHvTeeOpenSession arg numParam param) := by
  refine List.forall_mem_append.mpr ⟨List.forall_mem_append.mpr
    ⟨?_, plain_fillParams numParam param⟩, plain_ends⟩
  iterate 9 refine List.forall_mem_cons.mpr ⟨.assign fun _ _ => rfl, ?_⟩
  exact nofun

theorem plain_closeSession : AllPlain crossconHvTeeCloseSession := by
  iterate 3 refine List.forall_mem_cons.mpr ⟨.assign fun _ _ => rfl, ?_⟩
  exact plain_ends

theorem plain_invokeFunc (zephyr : Zephyr) (call : CallName) :
    AllPlain (invokeFunc zephyr call) := by
  apply plain_call
  refine List.forall_mem_append.mpr ⟨List.forall_mem_append.mpr
    ⟨?_, plain_fillParams _ _⟩, plain_ends⟩
  iterate 7 refine List.forall_mem_cons.mpr ⟨.assign fun _ _ => rfl, ?_⟩
  exact nofun

theorem plain_setParam (zephyr : Zephyr) (i : Fin vmsMaxParams) (attr b : UInt64) :
    AllPlain (setParam zephyr i attr b) := by
  iterate 4 refine List.forall_mem_cons.mpr ⟨.assign fun _ _ => rfl, ?_⟩
  exact nofun

theorem plain_setInvokeFuncArg (call : CallName) : AllPlain (setInvokeFuncArg call) := by
  iterate 5 refine List.forall_mem_cons.mpr ⟨.assign fun _ _ => rfl, ?_⟩
  exact nofun

/-- The assignments a call begins with. -/
def settings (zephyr : Zephyr) (call : CallName) : List ClientStmt :=
  setParam zephyr 0 (attrOf call 0) (sizeOf call 0) ++
    setParam zephyr 1 (attrOf call 1) (sizeOf call 1) ++
    setParam zephyr 2 (attrOf call 2) (sizeOf call 2) ++
    setParam zephyr 3 (attrOf call 3) (sizeOf call 3) ++ setInvokeFuncArg call

theorem plain_settings (zephyr : Zephyr) (call : CallName) : AllPlain (settings zephyr call) := by
  iterate 4 refine List.forall_mem_append.mpr ⟨?_, ?_⟩
  any_goals exact plain_setParam zephyr _ _ _
  exact plain_setInvokeFuncArg call

theorem plain_clearShm : Plain clearShm := by
  refine .assign fun _ shared => ?_
  have behind : 0 + 1024 ≤ vmsIpcFullSize := by decide
  exact (fill_of_le behind : fill shared.msg.payload 0 1024 (fun _ => 0) vmsIpcFullSize = _)

theorem plain_cpyLastResult (call : CallName) : AllPlain (cpyLastResult call) := by
  intro statement member
  obtain ⟨i, _, rfl⟩ := List.mem_map.mp member
  exact .copyResult call i

/-- The copies into the payload, behind its clearing. -/
def fillings : CallName → List ClientStmt
  | .init => []
  | .commitment => clearShm :: (fills .commitment).map (copyToShm .commitment)
  | .proofs => clearShm :: (fills .proofs).map (copyToShm .proofs)

theorem callPufTa_eq (zephyr : Zephyr) (call : CallName) :
    callPufTa zephyr call = settings zephyr call ++ fillings call ++ invokeFunc zephyr call := by
  cases call with
  | init => exact congrArg (· ++ _) (List.append_nil _).symm
  | commitment => rfl
  | proofs => rfl

theorem mem_fillings {call : CallName} {statement : ClientStmt}
    (member : statement ∈ fillings call) :
    Plain statement ∨ ∃ i, statement = copyToShm call i := by
  have filled : ∀ statement ∈ clearShm :: (fills call).map (copyToShm call),
      Plain statement ∨ ∃ i, statement = copyToShm call i := by
    refine List.forall_mem_cons.mpr ⟨.inl plain_clearShm, fun later there => ?_⟩
    obtain ⟨i, _, rfl⟩ := List.mem_map.mp there
    exact .inr ⟨i, rfl⟩
  cases call with
  | init => cases member
  | commitment => exact filled _ member
  | proofs => exact filled _ member

theorem plain_setSessionArg : AllPlain setSessionArg := by
  iterate 4 refine List.forall_mem_cons.mpr ⟨.sessionArg fun _ => rfl, ?_⟩
  exact nofun

theorem forall_challengePuf (zephyr : Zephyr) :
    ∀ statement ∈ challengePuf zephyr,
      Plain statement ∨ ∃ call i, statement = copyToShm call i := by
  have plain : ∀ {script : List ClientStmt}, AllPlain script → ∀ statement ∈ script,
      Plain statement ∨ ∃ call i, statement = copyToShm call i :=
    fun all statement member => .inl (all statement member)
  have calls : ∀ call, ∀ statement ∈ callPufTa zephyr call,
      Plain statement ∨ ∃ call i, statement = copyToShm call i := by
    intro call
    rw [callPufTa_eq]
    refine List.forall_mem_append.mpr ⟨List.forall_mem_append.mpr
      ⟨plain (plain_settings zephyr call), ?_⟩, plain (plain_invokeFunc zephyr call)⟩
    exact fun statement member => (mem_fillings member).imp id fun filled => ⟨call, filled⟩
  have copied : ∀ {call caller}, caller call = callPufTa zephyr call →
      ∀ statement ∈ callAndCopy call caller,
        Plain statement ∨ ∃ call i, statement = copyToShm call i := by
    intro call caller same
    unfold callAndCopy
    rw [same]
    iterate 2 refine List.forall_mem_append.mpr ⟨?_, ?_⟩
    · refine List.forall_mem_append.mpr ⟨?_, calls call⟩
      exact plain (List.forall_mem_singleton.mpr .passSessionId)
    · exact plain (List.forall_mem_singleton.mpr (.leaveIf _))
    · exact plain (plain_cpyLastResult call)
  unfold challengePuf
  iterate 8 refine List.forall_mem_append.mpr ⟨?_, ?_⟩
  · exact plain (List.forall_mem_singleton.mpr (.leaveIf _))
  · exact plain plain_setSessionArg
  · exact plain (plain_call zephyr _ (plain_openSession _ _ _))
  · exact plain (List.forall_mem_singleton.mpr (.leaveIf _))
  · exact copied rfl
  · exact copied rfl
  · exact copied rfl
  · exact plain (List.forall_mem_singleton.mpr .passSessionId)
  · exact plain (plain_call zephyr _ plain_closeSession)

end Plain

section Keeps

variable {property : Own → Prop}

theorem Plain.keeps (kept : Kept property) {statement : ClientStmt} (plain : Plain statement) :
    statement.Keeps property := by
  cases plain with
  | assign => exact fun _ _ holds => holds
  | sessionArg same => exact fun own holds => kept.sessionArg own _ (same _) holds
  | returnCode code => exact fun own holds => kept.res own code holds
  | leaveIf condition => trivial
  | notify => trivial
  | passSessionId => exact fun own shared holds => kept.sessionId own shared.sessionId holds
  | copyResult call i => exact fun own _ holds => kept.copy own call i _ _ holds

theorem keeps_challengePuf (kept : Kept property) (zephyr : Zephyr) :
    Keeps property (challengePuf zephyr) := by
  intro statement member
  rcases forall_challengePuf zephyr statement member with plain | ⟨call, i, rfl⟩
  · exact plain.keeps kept
  · exact fun _ _ holds => holds

end Keeps

def NoError (own : Own) : Prop :=
  own.sessionArg.ret = 0

theorem kept_noError : Kept NoError where
  res := fun _ _ holds => holds
  sessionId := fun _ _ holds => holds
  sessionArg := fun _ _ same holds => same.trans holds
  copy := fun _ _ _ _ _ holds => holds

def HasFunc (call : CallName) (func : UInt32) (own : Own) : Prop :=
  (own.record call).func = func

theorem kept_hasFunc (call : CallName) (func : UInt32) : Kept (HasFunc call func) where
  res := fun _ _ holds => holds
  sessionId := fun _ _ holds => holds
  sessionArg := fun _ _ _ holds => holds
  copy := by
    intro own other i source copies holds
    unfold HasFunc
    dsimp only
    by_cases same : call = other
    · subst same
      rw [Function.update_self]
      exact holds
    · rw [Function.update_of_ne same]
      exact holds

theorem Callable.ret_eq {zephyr : Zephyr} {own : Own} (callable : Callable zephyr own) :
    own.sessionArg.ret = 0 := by
  induction callable with
  | boot zero =>
      rw [zero]
      rfl
  | again _ reaches same ih =>
      have noError : NoError _ := keeps_of_reaches ih (keeps_challengePuf kept_noError zephyr) reaches
      rw [same]
      exact noError

end Uc1Integration.Tee
