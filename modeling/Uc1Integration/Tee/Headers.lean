import Mathlib.Data.List.Induction
import Uc1Integration.Tee.Boot

/-!
# Request headers

The header each call of the driver leaves in the shared memory, over any
sequence of calls. Both operations encode the types twice: as nibbles of
`paramTypes`, for all four parameters, and as the attributes of the parameters
the call has.
-/

set_option autoImplicit false

namespace Uc1Integration.Tee

open Interaction Client

inductive DriverCall where
  | openSession (arg : OpenSessionArg) (numParam : Nat) (param : Fin vmsMaxParams → Param)
  | invokeFunc (arg : InvokeFuncArg) (numParam : Nat) (param : Fin vmsMaxParams → Param)
  | closeSession (sessionId : UInt32)

def DriverCall.script : DriverCall → List ClientStmt
  | .openSession arg numParam param =>
      crossconHvTeeOpenSession (fun _ => arg) numParam fun _ => param
  | .invokeFunc arg numParam param =>
      crossconHvTeeInvokeFunc (fun _ => arg) numParam fun _ => param
  | .closeSession sessionId =>
      (.own fun own => { own with sessionId }) :: crossconHvTeeCloseSession

/-- The parameters of a call, which a close does not have. -/
def DriverCall.params : DriverCall → Option (Nat × (Fin vmsMaxParams → Param))
  | .openSession _ numParam param => some (numParam, param)
  | .invokeFunc _ numParam param => some (numParam, param)
  | .closeSession _ => none

/-- Where the call puts its `paramTypes`. -/
def DriverCall.types : DriverCall → SharedMessage → UInt32
  | .invokeFunc .., msg => msg.invokeArgs.paramTypes
  | _, msg => msg.sessionArgs.paramTypes

/-- The parameter a call has at place `i`. -/
def DriverCall.given (call : DriverCall) (i : Fin vmsMaxParams) : Option Param :=
  match call.params with
  | some (numParam, param) => if i.val < numParam then some (param i) else none
  | none => none

/-- The shared memory when the call returns. -/
def DriverCall.run (own : Own) (shared : Shared) (call : DriverCall) : Shared :=
  (alone call.script own shared).2

def runCalls (own : Own) (shared : Shared) (calls : List DriverCall) : Shared :=
  calls.foldl (DriverCall.run own) shared

/-- The parameter that the last of the calls to have one left at place `i`. -/
def lastGiven (calls : List DriverCall) (i : Fin vmsMaxParams) : Option Param :=
  calls.foldl (fun last call => (call.given i).or last) none

def nibble (types : UInt32) (i : Fin vmsMaxParams) : UInt32 :=
  (types >>> (4 * i.val).toUInt32) &&& 0xF

/-- The header after a call agrees with itself and has nothing from other calls:
behind the call's own parameters it is what the call leaves when it is the first. -/
structure OwnHeader (own : Own) (initial : Shared) (call : DriverCall) (numParam : Nat)
    (param : Fin vmsMaxParams → Param) (after : Shared) : Prop where
  nibbles : ∀ i, nibble (call.types after.msg) i = ((after.msg.params i).attr &&& 0xF).toUInt32
  given : ∀ i, i.val < numParam → after.msg.params i = param i
  typeNone : ∀ i, numParam ≤ i.val → (after.msg.params i).type = teeParamAttrTypeNone.toUInt32
  fresh : ∀ i, numParam ≤ i.val → after.msg.params i = (call.run own initial).msg.params i

/-- After each open and each invoke the header is that call's own. -/
def OwnHeaders (own : Own) (initial : Shared) (calls : List DriverCall) : Prop :=
  ∀ earlier call later, calls = earlier ++ call :: later →
    ∀ numParam param, call.params = some (numParam, param) →
      OwnHeader own initial call numParam param
        (call.run own (runCalls own initial earlier))

theorem getLsbD_ones {width bits : Nat} (k : Nat) (fits : bits ≤ width) :
    (BitVec.ofNat width (2 ^ bits - 1)).getLsbD k = decide (k < bits) := by
  rw [BitVec.getLsbD_ofNat, Nat.testBit_two_pow_sub_one]
  by_cases low : k < bits
  · simp only [low, decide_true, Bool.and_true, decide_eq_true_eq]
    omega
  · simp [low]

theorem getLsbD_nibble (k : Nat) : (15#32).getLsbD k = decide (k < 4) :=
  getLsbD_ones k (show 4 ≤ 32 by decide)

theorem low_crossconParamTypes (t0 t1 t2 t3 : UInt32) :
    crossconParamTypes t0 t1 t2 t3 >>> 0 &&& 0xF = t0 &&& 0xF ∧
      crossconParamTypes t0 t1 t2 t3 >>> 4 &&& 0xF = t1 &&& 0xF ∧
      crossconParamTypes t0 t1 t2 t3 >>> 8 &&& 0xF = t2 &&& 0xF ∧
      crossconParamTypes t0 t1 t2 t3 >>> 12 &&& 0xF = t3 &&& 0xF := by
  refine ⟨?_, ?_, ?_, ?_⟩
  all_goals
    apply UInt32.eq_of_toBitVec_eq
    simp only [crossconParamTypes, UInt32.toBitVec_and, UInt32.toBitVec_or,
      UInt32.toBitVec_shiftLeft, UInt32.toBitVec_shiftRight]
    apply BitVec.eq_of_getLsbD_eq
    intro k inside
    simp [getLsbD_nibble]
    grind

theorem nibble_paramTypes (numParam : Nat) (param : Fin vmsMaxParams → Param)
    (i : Fin vmsMaxParams) :
    nibble (paramTypes numParam param) i = paramType numParam param i &&& 0xF := by
  obtain ⟨zero, one, two, three⟩ := low_crossconParamTypes (paramType numParam param 0)
    (paramType numParam param 1) (paramType numParam param 2) (paramType numParam param 3)
  obtain ⟨_ | _ | _ | _ | past, inside⟩ := i
  · exact zero
  · exact one
  · exact two
  · exact three
  · have four : vmsMaxParams = 4 := rfl
    omega

theorem low_type (param : Param) : param.type &&& 0xF = (param.attr &&& 0xF).toUInt32 := by
  have mask : ∀ k, (255#32).getLsbD k = decide (k < 8) :=
    fun k => getLsbD_ones k (show 8 ≤ 32 by decide)
  apply UInt32.eq_of_toBitVec_eq
  simp only [Param.type, teeParamAttrTypeMask, UInt32.toBitVec_and, UInt64.toBitVec_toUInt32,
    UInt64.toBitVec_and]
  apply BitVec.eq_of_getLsbD_eq
  intro k inside
  simp [getLsbD_nibble, mask]
  grind

/-- The entries once a call with these parameters has filled them in. -/
def filled (numParam : Nat) (param entries : Fin vmsMaxParams → Param) : Fin vmsMaxParams → Param :=
  fun i => if i.val < numParam then param i else entries i

theorem alone_fillParams (numParam : Nat) (param : Fin vmsMaxParams → Param)
    (rest : List ClientStmt) (own : Own) (shared : Shared) :
    alone (fillParams numParam (fun _ => param) ++ rest) own shared =
      alone rest own
        { shared with
          msg := { shared.msg with params := filled numParam param shared.msg.params } } := by
  have given : filled numParam param shared.msg.params = fun i =>
      if i ∈ (List.finRange vmsMaxParams).filter fun i => i.val < numParam then param i
      else shared.msg.params i := by
    funext i
    simp [filled]
  rw [given]
  unfold fillParams
  generalize (List.finRange vmsMaxParams).filter (fun i => decide (i.val < numParam)) = indices
  clear given
  induction indices generalizing shared with
  | nil => rfl
  | cons first later ih =>
      simp only [List.flatMap_cons, List.cons_append, List.nil_append, assign, alone,
        Function.update_self, Function.update_idem]
      refine (ih _).trans (congrArg (fun params => alone rest own
        { shared with msg := { shared.msg with params } }) ?_)
      funext i
      by_cases here : i = first
      · subst here
        simp
      · simp [here]

theorem run_openSession (own : Own) (shared : Shared) (arg : OpenSessionArg) (numParam : Nat)
    (param : Fin vmsMaxParams → Param) :
    (DriverCall.openSession arg numParam param).run own shared =
      { shared with
        msg :=
          { shared.msg with
            callType := teeCallTypeOpenSession
            sessionArgs :=
              ⟨arg.uuid, arg.clntUuid, arg.clntLogin, 0, 0, 0, 0, paramTypes numParam param⟩
            params := filled numParam param shared.msg.params } } := by
  simp only [DriverCall.run, DriverCall.script, crossconHvTeeOpenSession,
    List.cons_append, List.nil_append, assignSessionArgs, assignMsg, alone, alone_fillParams,
    returnCode]

theorem run_invokeFunc (own : Own) (shared : Shared) (arg : InvokeFuncArg) (numParam : Nat)
    (param : Fin vmsMaxParams → Param) :
    (DriverCall.invokeFunc arg numParam param).run own shared =
      { shared with
        msg :=
          { shared.msg with
            callType := teeCallTypeInvokeFunc
            invokeArgs := ⟨arg.func, arg.session, arg.cancelId, 0, 0, paramTypes numParam param⟩
            params := filled numParam param shared.msg.params } } := by
  simp only [DriverCall.run, DriverCall.script, crossconHvTeeInvokeFunc,
    List.cons_append, List.nil_append, assignInvokeArgs, assignMsg, alone, alone_fillParams,
    returnCode]

/-- What a call with parameters leaves of the header. -/
theorem run_params {call : DriverCall} {numParam : Nat} {param : Fin vmsMaxParams → Param}
    (has : call.params = some (numParam, param)) (own : Own) (shared : Shared) :
    (call.run own shared).msg.params = filled numParam param shared.msg.params ∧
      call.types (call.run own shared).msg = paramTypes numParam param := by
  cases call with
  | openSession arg =>
      cases has
      rw [run_openSession]
      exact ⟨rfl, rfl⟩
  | invokeFunc arg =>
      cases has
      rw [run_invokeFunc]
      exact ⟨rfl, rfl⟩
  | closeSession => cases has

theorem run_params_apply (own : Own) (shared : Shared) (call : DriverCall)
    (i : Fin vmsMaxParams) :
    (call.run own shared).msg.params i = (call.given i).getD (shared.msg.params i) := by
  cases has : call.params with
  | none =>
      cases call with
      | closeSession => rfl
      | openSession => cases has
      | invokeFunc => cases has
  | some both =>
      rw [(run_params has own shared).1, DriverCall.given, has]
      dsimp only [filled]
      split <;> rfl

theorem runCalls_params_apply (own : Own) (initial : Shared) (calls : List DriverCall)
    (i : Fin vmsMaxParams) :
    (runCalls own initial calls).msg.params i = (lastGiven calls i).getD (initial.msg.params i) := by
  induction calls using List.reverseRecOn with
  | nil => rfl
  | append_singleton calls call ih =>
      rw [runCalls, List.foldl_concat, run_params_apply]
      rw [lastGiven, List.foldl_concat]
      rw [runCalls] at ih
      rw [ih, lastGiven]
      cases call.given i <;> rfl

/-- The headers are the calls' own exactly when the entries behind a call's
parameters are those of the initial memory, whichever call left them, and of type
NONE. -/
theorem ownHeaders_iff (own : Own) (initial : Shared) (calls : List DriverCall) :
    OwnHeaders own initial calls ↔
      ∀ earlier call later, calls = earlier ++ call :: later →
        ∀ numParam param, call.params = some (numParam, param) →
          ∀ i : Fin vmsMaxParams, numParam ≤ i.val →
            (initial.msg.params i).type = teeParamAttrTypeNone.toUInt32 ∧
              ∀ entry ∈ lastGiven earlier i, entry = initial.msg.params i := by
  have held : ∀ earlier i, (runCalls own initial earlier).msg.params i = initial.msg.params i ↔
      ∀ entry ∈ lastGiven earlier i, entry = initial.msg.params i := by
    intro earlier i
    rw [runCalls_params_apply]
    cases lastGiven earlier i <;> simp
  constructor
  · intro headers earlier call later split numParam param has i behind
    have header := headers earlier call later split numParam param has
    have fresh : filled numParam param (runCalls own initial earlier).msg.params i =
        filled numParam param initial.msg.params i := by
      rw [← (run_params has own _).1, ← (run_params has own _).1]
      exact header.fresh i behind
    have typeNone := header.typeNone i behind
    rw [(run_params has own _).1, filled, if_neg (by omega)] at typeNone
    rw [filled, if_neg (by omega), filled, if_neg (by omega)] at fresh
    rw [fresh] at typeNone
    exact ⟨typeNone, (held earlier i).mp fresh⟩
  · intro same earlier call later split numParam param has
    obtain ⟨entries, types⟩ := run_params has own (runCalls own initial earlier)
    have behind : ∀ i : Fin vmsMaxParams, numParam ≤ i.val →
        (runCalls own initial earlier).msg.params i = initial.msg.params i ∧
          (initial.msg.params i).type = teeParamAttrTypeNone.toUInt32 := by
      intro i outside
      obtain ⟨typeNone, kept⟩ := same earlier call later split numParam param has i outside
      exact ⟨(held earlier i).mpr kept, typeNone⟩
    constructor
    · intro i
      rw [types, nibble_paramTypes, ← low_type, entries, paramType, filled]
      split
      next => rfl
      next outside =>
        obtain ⟨kept, typeNone⟩ := behind i (by omega)
        rw [kept, typeNone]
    · intro i inside
      rw [entries, filled, if_pos inside]
    · intro i outside
      obtain ⟨kept, typeNone⟩ := behind i outside
      rw [entries, filled, if_neg (by omega), kept, typeNone]
    · intro i outside
      rw [entries, (run_params has own initial).1, filled, if_neg (by omega), filled,
        if_neg (by omega)]
      exact (behind i outside).1

/-- A call with four outputs, then a new session, whose request has no parameters. -/
def reopening : List DriverCall :=
  [.invokeFunc ⟨0, 0, 0, 0, 0⟩ 4 fun _ => ⟨teeParamAttrTypeMemrefOutput, 0, 32, 0⟩,
    .openSession sessionArgZero 0 fun _ => default]

theorem not_ownHeaders_reopening : ¬ ∀ own initial calls, OwnHeaders own initial calls := by
  intro all
  have header := all bootOwn (bootShared default) reopening
    (reopening.take 1) (reopening.get ⟨1, by decide⟩) [] rfl 0 (fun _ => default) rfl
  exact absurd (header.typeNone 0 (Nat.zero_le _)) (by decide)

end Uc1Integration.Tee
