import Uc1Integration.Interaction.MailboxAssertions
import Uc1Integration.Interaction.MailboxThroughout
import Uc1Integration.Tee.Refinement

/-!
# The copies of `challenge_puf`

Every `memcpy` between a portion and the shared payload, with the size it is executed
with: for the copies into the payload that is `param[i].b`, which the interrupt handler
overwrites. In a timely run it is what the call has set.
-/

set_option autoImplicit false

namespace Uc1Integration.Tee

open Interaction Transport Client

/-- A `memcpy` into the payload, or one of `cpy_last_result`. -/
inductive Copy where
  | filling (call : CallName) (i : Fin vmsMaxParams)
  | result (call : CallName) (i : Fin dataPortions)

namespace Copy

def stmt : Copy → ClientStmt
  | filling call i => copyToShm call i
  | result call i => copyResult call i

def portion (own : Own) : Copy → DataPortion
  | filling call i => (own.record call).dataP i
  | result call i => (own.record call).dataP i

def size (own : Own) (shared : Shared) : Copy → Nat
  | filling _ i => (shared.param i).b.toNat
  | result call i => ((own.record call).dataP i).len.toNat

end Copy

/-- Replies with any contents. -/
def anything (_ : Nat) (_ _ : SharedMessage) : Prop :=
  True

/-- The copies that may come next are allowed with their portion and size. -/
def CopiesAllowed (allowed : DataPortion → Nat → Prop) (client : PufClient) : Prop :=
  client.result = none → client.Settled → ∀ copy rest, client.rest = Copy.stmt copy :: rest →
    allowed (copy.portion client.own) (copy.size client.own client.shared)

/-!
## Telling the statements apart
-/

/-- Only the portion of one call has a byte other than 0. -/
def probe (call : CallName) (i : Fin dataPortions) : Own :=
  { bootOwn with
    record := fun other =>
      { func := 0
        dataP := fun j =>
          { len := 1
            data := some ⟨0, [if other = call ∧ j = i then 1 else 0]⟩
            fits := by
              intro block member
              cases Option.mem_some_iff.mp member
              exact Nat.le_refl 1 } } }

/-- All copies into the payload would write to the byte behind the page. -/
def probeShared : Shared :=
  { bootShared default with param := fun _ => ⟨0, vmsIpcFullSize.toUInt64, 1, 0⟩ }

/-- What a statement makes of this byte. -/
def behind (statement : ClientStmt) (own : Own) : UInt8 :=
  match statement with
  | .touch f => (f own probeShared).2.msg.payload vmsIpcFullSize
  | _ => 0

theorem behind_copyToShm (call : CallName) (i : Fin vmsMaxParams) (own : Own) :
    behind (copyToShm call i) own = ((own.record call).dataP i).byteAt 0 := by
  have here : vmsIpcFullSize = vmsIpcFullSize.toUInt64.toNat + 0 := by decide
  have inside : 0 < (1 : UInt64).toNat := by decide
  have filled : fill probeShared.msg.payload vmsIpcFullSize.toUInt64.toNat (1 : UInt64).toNat
      ((own.record call).dataP i).byteAt (vmsIpcFullSize.toUInt64.toNat + 0) = _ :=
    fill_add inside
  rw [← here] at filled
  exact filled

theorem behind_probe (call other : CallName) (i j : Fin vmsMaxParams) :
    behind (copyToShm other j) (probe call i) = if other = call ∧ j = i then 1 else 0 :=
  behind_copyToShm other j (probe call i)

theorem Plain.behind {statement : ClientStmt} (plain : Plain statement) (own : Own) :
    behind statement own = 0 := by
  cases plain with
  | assign same => exact same own probeShared
  | _ => rfl

theorem Plain.ne_copyToShm {statement : ClientStmt} (plain : Plain statement) (call : CallName)
    (i : Fin vmsMaxParams) : statement ≠ copyToShm call i := by
  rintro rfl
  have zero := plain.behind (probe call i)
  rw [behind_probe, if_pos ⟨rfl, rfl⟩] at zero
  exact absurd zero (by decide)

theorem copyToShm_inj {call other : CallName} {i j : Fin vmsMaxParams}
    (same : copyToShm call i = copyToShm other j) : other = call ∧ j = i := by
  have one := behind_probe call call i i
  rw [if_pos ⟨rfl, rfl⟩, same, behind_probe] at one
  by_contra different
  rw [if_neg different] at one
  exact absurd one (by decide)

/-!
## What the copies find
-/

section Settings

variable (zephyr : Zephyr) (call : CallName)

theorem assigns_setParam (i : Fin vmsMaxParams) (attr b : UInt64) :
    ∀ statement ∈ setParam zephyr i attr b, statement.Assigns := by
  iterate 4 refine List.forall_mem_cons.mpr ⟨trivial, ?_⟩
  exact nofun

theorem assigns_settings : ∀ statement ∈ settings zephyr call, statement.Assigns := by
  iterate 4 refine List.forall_mem_append.mpr ⟨?_, ?_⟩
  any_goals exact assigns_setParam zephyr _ _ _
  iterate 5 refine List.forall_mem_cons.mpr ⟨trivial, ?_⟩
  exact nofun

theorem param_setParam (i : Fin vmsMaxParams) (attr b : UInt64) (own : Own) (shared : Shared) :
    (alone (setParam zephyr i attr b) own shared).2.param =
      Function.update shared.param i ⟨attr, (vmsMemrefOffset i).toUInt64, b, zephyr.ipcShm⟩ := by
  simp only [setParam, assign, alone, Function.update_self, Function.update_idem]

theorem param_settings (own : Own) (shared : Shared) :
    (alone (settings zephyr call) own shared).2.param = layout zephyr call := by
  have last : ∀ (own : Own) (shared : Shared),
      (alone (setInvokeFuncArg call) own shared).2.param = shared.param := fun _ _ => rfl
  unfold settings
  simp only [List.append_assoc]
  iterate 4 rw [alone_append (assigns_setParam zephyr _ _ _)]
  rw [last]
  simp only [param_setParam]
  exact update_params shared.param (layout zephyr call)

end Settings

section Allowed

variable {allowed : DataPortion → Nat → Prop}

/-- The portions have the lengths of their calls, and copies of these are allowed. -/
def Fit (allowed : DataPortion → Nat → Prop) (own : Own) : Prop :=
  ∀ call i, ((own.record call).dataP i).len = call.pattern i ∧
    allowed ((own.record call).dataP i) (call.pattern i).toNat

/-- A copy into a portion changes nothing about what is allowed with it. -/
def Persists (allowed : DataPortion → Nat → Prop) : Prop :=
  ∀ portion count source, allowed portion count → allowed (portion.copyFrom source) count

theorem kept_fit (persists : Persists allowed) : Kept (Fit allowed) where
  res := fun _ _ fit => fit
  sessionId := fun _ _ fit => fit
  sessionArg := fun _ _ _ fit => fit
  copy := by
    intro own call i source _ fit other j
    dsimp only
    by_cases here : other = call ∧ j = i
    · obtain ⟨rfl, rfl⟩ := here
      rw [Function.update_self, FuncCall.dataP_setData_self]
      exact ⟨(fit other j).1, persists _ _ source (fit other j).2⟩
    · have same : ((Function.update own.record call ((own.record call).setData i source))
          other).dataP j = (own.record other).dataP j := by
        by_cases calls : other = call
        · subst calls
          rw [Function.update_self, FuncCall.dataP_setData_of_ne fun same => here ⟨rfl, same⟩]
        · rw [Function.update_of_ne calls]
      rw [same]
      exact fit other j

/-- A statement that finds its copy, if it is one, allowed. -/
def check (allowed : DataPortion → Nat → Prop) (f : Own → Shared → Own × Shared) (own : Own)
    (shared : Shared) : Prop :=
  ∀ copy, Stmt.touch f = Copy.stmt copy → allowed (copy.portion own) (copy.size own shared)

theorem Fit.result {own : Own} (fit : Fit allowed own) (shared : Shared) (call : CallName)
    (i : Fin dataPortions) :
    allowed ((Copy.result call i).portion own) ((Copy.result call i).size own shared) := by
  obtain ⟨len, portion⟩ := fit call i
  rw [← len] at portion
  exact portion

theorem quiet_of_plain (persists : Persists allowed) {statement : ClientStmt}
    (plain : Plain statement) : Quiet (Fit allowed) (check allowed) statement where
  keeps := plain.keeps (kept_fit persists)
  fine := by
    rintro f rfl own shared fit copy same
    cases copy with
    | filling call i => exact absurd same (plain.ne_copyToShm call i)
    | result call i => exact fit.result shared call i

/-- Wherever the portions fit, the copies of the script are allowed. -/
abbrev Allows (allowed : DataPortion → Nat → Prop) (script : List ClientStmt) : Prop :=
  ∀ own shared, Fit allowed own → Finding mailbox anything (check allowed) script own shared

theorem Allows.prepend {script rest : List ClientStmt} (allows : Allows allowed rest)
    (persists : Persists allowed) (plain : AllPlain script) : Allows allowed (script ++ rest) :=
  fun _ _ fit =>
    finding_append (fun statement member => quiet_of_plain persists (plain statement member))
      allows fit

theorem check_copyToShm {zephyr : Zephyr} {call : CallName} {i : Fin vmsMaxParams} {own : Own} {shared : Shared}
    (fit : Fit allowed own) (set : shared.param = layout zephyr call)
    {f : Own → Shared → Own × Shared} (here : Stmt.touch f = copyToShm call i) :
    check allowed f own shared := by
  intro copy same
  cases copy with
  | result other j => exact fit.result shared other j
  | filling other j =>
      obtain ⟨rfl, rfl⟩ := copyToShm_inj (here.symm.trans same)
      have size : ((shared.param j).b).toNat = (CallName.pattern other j).toNat := by
        rw [set, toNat_pattern]
        rfl
      change allowed _ ((shared.param j).b).toNat
      rw [size]
      exact (fit other j).2

/-- No reply can come between the setting of the parameters and the copies into the
payload. -/
theorem Allows.fillings {rest : List ClientStmt} (allows : Allows allowed rest)
    (call : CallName) {zephyr : Zephyr} {own : Own} {shared : Shared} (fit : Fit allowed own)
    (set : shared.param = layout zephyr call) :
    Finding mailbox anything (check allowed) (fillings call ++ rest) own shared := by
  have copies : ∀ (indices : List (Fin vmsMaxParams)) (shared : Shared),
      shared.param = layout zephyr call →
      Finding mailbox anything (check allowed) (indices.map (copyToShm call) ++ rest) own
        shared := by
    intro indices
    induction indices with
    | nil => exact fun shared _ => allows own shared fit
    | cons i indices ih =>
        intro shared set
        exact ⟨check_copyToShm fit set rfl, ih _ set⟩
  have clears : ∀ copy, clearShm = Copy.stmt copy →
      allowed (copy.portion own) (copy.size own shared) := by
    intro copy same
    cases copy with
    | filling other i => exact absurd same (plain_clearShm.ne_copyToShm other i)
    | result other i => exact fit.result shared other i
  cases call with
  | init => exact allows own shared fit
  | commitment => exact ⟨clears, copies (fills .commitment) _ set⟩
  | proofs => exact ⟨clears, copies (fills .proofs) _ set⟩

theorem Allows.callPufTa {rest : List ClientStmt} (allows : Allows allowed rest)
    (persists : Persists allowed) (zephyr : Zephyr) (call : CallName) :
    Allows allowed (callPufTa zephyr call ++ rest) := by
  intro own shared fit
  have quiet : ∀ statement ∈ settings zephyr call, Quiet (Fit allowed) (check allowed) statement :=
    fun statement member => quiet_of_plain persists (plain_settings zephyr call statement member)
  rw [callPufTa_eq, List.append_assoc, List.append_assoc]
  refine finding_assigns (assigns_settings zephyr call) quiet fit fun still => ?_
  exact (allows.prepend persists (plain_invokeFunc zephyr call)).fillings call still
    (param_settings zephyr call own shared)

theorem Allows.callAndCopy {call : CallName} {caller : CallName → List ClientStmt}
    {rest : List ClientStmt} (allows : Allows allowed rest) (persists : Persists allowed)
    (zephyr : Zephyr) (calls : caller call = Tee.callPufTa zephyr call) :
    Allows allowed (callAndCopy call caller ++ rest) := by
  unfold Tee.callAndCopy
  rw [calls]
  simp only [List.append_assoc]
  have copying := allows.prepend persists (plain_cpyLastResult call)
  have testing := copying.prepend persists
    (List.forall_mem_singleton.mpr (show Plain failed from .leaveIf _))
  exact (testing.callPufTa persists zephyr call).prepend persists
    (List.forall_mem_singleton.mpr .passSessionId)

theorem allows_challengePuf (persists : Persists allowed) (zephyr : Zephyr) :
    Allows allowed (challengePuf zephyr) := by
  have closing : Allows allowed (zephyr.call .closeSession crossconHvTeeCloseSession ++ []) :=
    Allows.prepend (fun _ _ _ => trivial) persists (plain_call zephyr _ plain_closeSession)
  have passing := closing.prepend persists (List.forall_mem_singleton.mpr .passSessionId)
  have proofs : Allows allowed (callAndCopy .proofs (callPufTaGetZkProofs zephyr) ++ _) :=
    passing.callAndCopy persists zephyr rfl
  have commitment : Allows allowed (callAndCopy .commitment (callPufTaGetCommitment zephyr) ++ _) :=
    proofs.callAndCopy persists zephyr rfl
  have init : Allows allowed (callAndCopy .init (callPufTaInit zephyr) ++ _) :=
    commitment.callAndCopy persists zephyr rfl
  have tested := init.prepend persists (List.forall_mem_singleton.mpr
    (.leaveIf fun own => own.res ≠ 0 ∨ own.sessionArg.ret ≠ 0))
  have opened := tested.prepend persists (plain_call zephyr .openSession
    (plain_openSession Own.sessionArg 0 fun _ _ => ⟨0, 0, 0, 0⟩))
  have begun := (opened.prepend persists plain_setSessionArg).prepend persists
    (List.forall_mem_singleton.mpr (.leaveIf fun _ => !zephyr.bound))
  rw [List.append_nil] at begun
  unfold challengePuf
  simp only [List.append_assoc]
  exact begun

/-- In a timely run every copy is executed with the length of its portion. -/
theorem copiesAllowed_of_fit (persists : Persists allowed) {zephyr : Zephyr} {own : Own} {shared : Shared}
    {client : PufClient} (fit : Fit allowed own)
    (reaches : Reaches mailbox (.timely anything) (start own shared (challengePuf zephyr)) client) :
    CopiesAllowed allowed client := by
  intro running settled copy rest next
  have finding := allows_challengePuf persists zephyr own shared fit
  cases copy with
  | filling call i => exact finding.holds reaches running settled next (.filling call i) rfl
  | result call i => exact finding.holds reaches running settled next (.result call i) rfl

end Allowed

/-- With Zephyr passing the calls on, a timely run comes to each copy of its results. -/
theorem exists_at_copyResult {zephyr : Zephyr} (dispatches : zephyr.Dispatches) {own : Own}
    (noError : own.sessionArg.ret = 0) (shared : Shared) (call : CallName)
    (i : Fin dataPortions) :
    ∃ client rest,
      Reaches mailbox (.timely anything) (start own shared (challengePuf zephyr)) client ∧
      client.result = none ∧ client.Settled ∧ client.rest = copyResult call i :: rest := by
  have member : copyResult call i ∈ challengePuf zephyr := by
    have copies : copyResult call i ∈ cpyLastResult call :=
      List.mem_map_of_mem (List.mem_finRange i)
    cases call <;> simp [challengePuf, callAndCopy, copies]
  obtain ⟨before, after, script⟩ := List.append_of_mem member
  have stays : ∀ leaves, .leaveIf leaves 0 ∉ challengePuf zephyr := by
    intro leaves inside
    rcases forall_challengePuf zephyr _ inside with plain | ⟨other, j, same⟩
    · cases plain
    · cases same
  obtain ⟨client, reaches, returned⟩ := exists_returned
    (fun _ request => ⟨request, trivial⟩ : ∀ position request, ∃ message,
      anything position request message)
    (.refl : Reaches mailbox (.timely anything) (start own shared (challengePuf zephyr)) _)
  obtain ⟨code, result⟩ := Option.isSome_iff_exists.mp returned
  obtain rfl := returns_zero dispatches noError reaches result
  rw [script] at stays reaches ⊢
  obtain ⟨earlier, reached, running, here, settled⟩ := passes stays reaches result
  exact ⟨earlier, after, reached, running, settled, here⟩

end Uc1Integration.Tee
