import Uc1Integration.Interaction.MailboxThroughout
import Uc1Integration.Tee.RawRefinement

/-! No timely run of `challenge_puf` writes beyond the shared page. -/

set_option autoImplicit false

namespace Uc1Integration.Tee.Raw

open Interaction Transport Memory SharedMessage Client

variable {size : EnumSize} {initial : Bytes}

/-- The memory behind the shared page is what it was. -/
def SameBeyond (initial : Bytes) (raw : RawShared) : Prop :=
  ∀ index, vmsIpcFullSize ≤ index → raw.memory index = initial index

/-- The hypervisor lets the other VM write to the shared page only. -/
def confined : Nat → Bytes → Bytes → Prop :=
  fun _ request reply => ∀ index, vmsIpcFullSize ≤ index → reply index = request index

abbrev Harmless (size : EnumSize) (initial : Bytes) : RawStmt → Prop :=
  Preserves (mailbox size) confined (SameBeyond initial)

theorem memory_handleParam (raw : RawShared) (i : Fin vmsMaxParams) :
    (handleParam size raw i).memory = raw.memory := by
  unfold handleParam
  dsimp only
  split
  · rfl
  · split <;> rfl

theorem memory_foldl_handleParam (indices : List (Fin vmsMaxParams)) (raw : RawShared) :
    (indices.foldl (handleParam size) raw).memory = raw.memory := by
  induction indices generalizing raw with
  | nil => rfl
  | cons first rest ih => rw [List.foldl_cons, ih, memory_handleParam]

theorem memory_handler (raw : RawShared) :
    (ipcIrqClientHandler size raw).memory = raw.memory := by
  unfold ipcIrqClientHandler
  dsimp only [RawShared.logs]
  split
  · exact memory_foldl_handleParam _ _
  · split <;> rfl

theorem harmless_notify : Harmless size initial .notify := by
  intro raw same position reply confines
  have replied : ∀ index, vmsIpcFullSize ≤ index → reply index = initial index :=
    fun index beyond => (confines index beyond).trans (same index beyond)
  refine ⟨replied, ?_⟩
  intro index beyond
  have handled : (ipcIrqClientHandler size { raw with memory := reply }).memory = reply :=
    memory_handler _
  exact (congrFun handled index).trans (replied index beyond)

theorem harmless_onGlobals (statement : ClientStmt) :
    Harmless size initial (onGlobals size statement) := by
  cases statement with
  | touch f => exact fun _ _ same => same
  | own f => trivial
  | leaveIf condition code => trivial
  | notify => exact harmless_notify

theorem sameBeyond_copy {raw : RawShared} (same : SameBeyond initial raw) {offset count : Nat}
    {source : Bytes} (inside : offset + count ≤ vmsIpcFullSize) :
    SameBeyond initial { raw with memory := raw.memory.copy offset count source } :=
  fun index beyond => (Bytes.copy_of_le (by omega)).trans (same index beyond)

theorem harmless_store {α : Type} {codec : Codec α}
    (place : Place (SharedMessage.view size) codec) {value : Own → RawShared → α}
    (inside : place.offset + codec.width ≤ vmsIpcFullSize) :
    Harmless size initial (store size place value) :=
  fun _ _ same => sameBeyond_copy same inside

theorem harmless_param {value : Own → RawShared → UInt64} (i : Fin vmsMaxParams)
    {field : Place Param.codec.decode .uint64}
    (fits : field.offset + Codec.uint64.width ≤ Param.codec.width) :
    Harmless size initial (store size (inParam size i field fits) value) := by
  have inside : ∀ i, (atParam size i).offset + Param.codec.width ≤ vmsIpcFullSize := by
    cases size <;> decide
  exact harmless_store _ (by
    calc
      (atParam size i).offset + field.offset + Codec.uint64.width
        ≤ (atParam size i).offset + Param.codec.width := by omega
      _ ≤ vmsIpcFullSize := inside i)

theorem harmless_fillParams (numParam : Nat) (param : RawShared → Fin vmsMaxParams → Param) :
    ∀ statement ∈ fillParams size numParam param, Harmless size initial statement := by
  intro statement member
  obtain ⟨i, _, here⟩ := List.mem_flatMap.mp member
  simp only [List.mem_cons, List.not_mem_nil, or_false] at here
  obtain rfl | rfl | rfl | rfl := here
  all_goals exact harmless_param i _

theorem harmless_ends (code : Int) :
    ∀ statement ∈ [.notify, onGlobals size (returnCode code)], Harmless size initial statement :=
  List.forall_mem_cons.mpr
    ⟨harmless_notify, List.forall_mem_singleton.mpr (harmless_onGlobals _)⟩

theorem harmless_openSession (arg : Own → OpenSessionArg) (numParam : Nat)
    (param : RawShared → Fin vmsMaxParams → Param) :
    ∀ statement ∈ crossconHvTeeOpenSession size arg numParam param,
      Harmless size initial statement := by
  refine List.forall_mem_append.mpr ⟨List.forall_mem_append.mpr
    ⟨?_, harmless_fillParams numParam param⟩, harmless_ends 0⟩
  iterate 9 refine List.forall_mem_cons.mpr ⟨harmless_store _ (by cases size <;> decide), ?_⟩
  exact nofun

theorem harmless_closeSession :
    ∀ statement ∈ crossconHvTeeCloseSession size, Harmless size initial statement := by
  refine List.forall_mem_cons.mpr ⟨harmless_store _ (by cases size <;> decide), ?_⟩
  refine List.forall_mem_cons.mpr ⟨?_, ?_⟩
  · have inside : (atSessionArgs size).offset + sizeofOpenSessionArgs ≤ vmsIpcFullSize := by
      cases size <;> decide
    exact fun _ _ same => sameBeyond_copy same inside
  · refine List.forall_mem_cons.mpr ⟨harmless_store _ (by cases size <;> decide), ?_⟩
    exact harmless_ends 0

theorem harmless_invokeFunc (arg : RawShared → InvokeFuncArg) (numParam : Nat)
    (param : RawShared → Fin vmsMaxParams → Param) :
    ∀ statement ∈ crossconHvTeeInvokeFunc size arg numParam param,
      Harmless size initial statement := by
  refine List.forall_mem_append.mpr ⟨List.forall_mem_append.mpr
    ⟨?_, harmless_fillParams numParam param⟩, harmless_ends 0⟩
  iterate 7 refine List.forall_mem_cons.mpr ⟨harmless_store _ (by cases size <;> decide), ?_⟩
  exact nofun

theorem harmless_call (zephyr : Zephyr) (operation : TeeOperation) {driver : List RawStmt}
    (harmless : ∀ statement ∈ driver, Harmless size initial statement) :
    ∀ statement ∈ call size zephyr operation driver, Harmless size initial statement := by
  unfold call
  split
  · exact harmless
  · exact List.forall_mem_singleton.mpr (harmless_onGlobals _)

theorem harmless_map_onGlobals (script : List ClientStmt) :
    ∀ statement ∈ script.map (onGlobals size), Harmless size initial statement := by
  intro statement member
  obtain ⟨other, _, rfl⟩ := List.mem_map.mp member
  exact harmless_onGlobals other

theorem harmless_cpyLastResult (name : CallName) :
    ∀ statement ∈ cpyLastResult size name, Harmless size initial statement := by
  intro statement member
  obtain ⟨i, _, rfl⟩ := List.mem_map.mp member
  exact fun _ _ same => same

/-- The parameters a call sets before it fills the payload. -/
def settings (size : EnumSize) (zephyr : Zephyr) (name : CallName)
    (attr b : Fin vmsMaxParams → UInt64) : List RawStmt :=
  setParam size zephyr 0 (attr 0) (b 0) ++ setParam size zephyr 1 (attr 1) (b 1) ++
    setParam size zephyr 2 (attr 2) (b 2) ++ setParam size zephyr 3 (attr 3) (b 3) ++
    setInvokeFuncArg size name

section Filling

variable (zephyr : Zephyr) (name : CallName) (attr b : Fin vmsMaxParams → UInt64)

theorem harmless_settings :
    ∀ statement ∈ settings size zephyr name attr b, Harmless size initial statement := by
  unfold settings setParam setInvokeFuncArg
  iterate 4 rw [← List.map_append]
  exact harmless_map_onGlobals _

theorem assigns_setParam (i : Fin vmsMaxParams) (attr b : UInt64) :
    ∀ statement ∈ setParam size zephyr i attr b, statement.Assigns := by
  iterate 4 refine List.forall_mem_cons.mpr ⟨trivial, ?_⟩
  exact nofun

theorem assigns_settings : ∀ statement ∈ settings size zephyr name attr b, statement.Assigns := by
  iterate 4 refine List.forall_mem_append.mpr ⟨?_, ?_⟩
  any_goals exact assigns_setParam zephyr _ _ _
  iterate 5 refine List.forall_mem_cons.mpr ⟨trivial, ?_⟩
  exact nofun

theorem param_setParam (i : Fin vmsMaxParams) (attr b : UInt64) (own : Own) (raw : RawShared) :
    (alone (setParam size zephyr i attr b) own raw).2.param =
      Function.update raw.param i ⟨attr, (vmsMemrefOffset i).toUInt64, b, zephyr.ipcShm⟩ := by
  simp only [setParam, Tee.setParam, List.map_cons, List.map_nil, onGlobals, assign, alone,
    RawShared.withGlobals, RawShared.view, Function.update_self, Function.update_idem]

theorem param_setInvokeFuncArg (own : Own) (raw : RawShared) :
    (alone (setInvokeFuncArg size name) own raw).2.param = raw.param :=
  rfl

theorem param_settings (own : Own) (raw : RawShared) :
    (alone (settings size zephyr name attr b) own raw).2.param =
      fun i => ⟨attr i, (vmsMemrefOffset i).toUInt64, b i, zephyr.ipcShm⟩ := by
  unfold settings
  simp only [List.append_assoc]
  iterate 4 rw [alone_append (assigns_setParam zephyr _ _ _)]
  rw [param_setInvokeFuncArg]
  simp only [param_setParam]
  exact update_params raw.param fun i => ⟨attr i, (vmsMemrefOffset i).toUInt64, b i, zephyr.ipcShm⟩

abbrev Safe (size : EnumSize) (initial : Bytes) (script : List RawStmt) : Prop :=
  ∀ own raw, SameBeyond initial raw →
    Throughout (mailbox size) confined (SameBeyond initial) script own raw

theorem Safe.prepend {script rest : List RawStmt} (safe : Safe size initial rest)
    (harmless : ∀ statement ∈ script, Harmless size initial statement) :
    Safe size initial (script ++ rest) :=
  fun _ _ same => throughout_append harmless safe same

/-- A slot that lies in the payload. -/
def Fits (param : Param) : Prop :=
  param.a.toNat + param.b.toNat ≤ vmsUsablePayloadSize

theorem throughout_copies {rest : List RawStmt} (safe : Safe size initial rest)
    (indices : List (Fin vmsMaxParams)) {own : Own} {raw : RawShared}
    (fits : ∀ i, Fits (raw.param i)) (same : SameBeyond initial raw) :
    Throughout (mailbox size) confined (SameBeyond initial)
      (indices.map (copyToShm size name) ++ rest) own raw := by
  induction indices generalizing raw with
  | nil => exact safe own raw same
  | cons i indices ih =>
      have room : vmsOffsetPayload size + vmsUsablePayloadSize ≤ vmsIpcFullSize := by
        cases size <;> decide
      have slot : (raw.param i).a.toNat + (raw.param i).b.toNat ≤ vmsUsablePayloadSize := fits i
      have inside : vmsOffsetPayload size + (raw.param i).a.toNat + (raw.param i).b.toNat ≤
          vmsIpcFullSize := by omega
      exact ⟨same, ih fits (sameBeyond_copy same inside)⟩

/-- Between the setting of the parameters and the copies into the payload no reply
can come, so the copies go where the call has decided. -/
theorem Safe.fill {rest : List RawStmt} (safe : Safe size initial rest)
    (fits : ∀ i, Fits ⟨attr i, (vmsMemrefOffset i).toUInt64, b i, zephyr.ipcShm⟩)
    (indices : List (Fin vmsMaxParams)) :
    Safe size initial
      (settings size zephyr name attr b ++
        (clearShm size :: (indices.map (copyToShm size name) ++ rest))) := by
  intro own raw same
  refine throughout_assigns (assigns_settings zephyr name attr b)
    (harmless_settings zephyr name attr b) same fun stillSame => ?_
  have param : (alone (settings size zephyr name attr b) own raw).2.param = _ :=
    param_settings zephyr name attr b own raw
  generalize alone (settings size zephyr name attr b) own raw = after at stillSame param
  have inside : vmsOffsetPayload size + 1024 ≤ vmsIpcFullSize := by cases size <;> decide
  refine ⟨stillSame, throughout_copies name safe indices ?_ (sameBeyond_copy stillSame inside)⟩
  intro i
  rw [param]
  exact fits i

theorem fits_layout (call : CallName) (i : Fin vmsMaxParams) : Fits (layout zephyr call i) := by
  have slots : ∀ i : Fin vmsMaxParams, (vmsMemrefOffset i).toUInt64.toNat + (sizeOf call i).toNat ≤
      vmsUsablePayloadSize := by
    cases call <;> decide
  exact slots i

theorem harmless_invoke :
    ∀ statement ∈ invokeFunc size zephyr name, Harmless size initial statement :=
  harmless_call zephyr _ (harmless_invokeFunc _ _ _)

theorem Safe.callPufTaInit {rest : List RawStmt} (safe : Safe size initial rest) :
    Safe size initial (callPufTaInit size zephyr name ++ rest) :=
  safe.prepend (List.forall_mem_append.mpr
    ⟨harmless_settings zephyr name (attrOf .init) (sizeOf .init), harmless_invoke zephyr name⟩)

theorem Safe.callPufTaGetCommitment {rest : List RawStmt} (safe : Safe size initial rest) :
    Safe size initial (callPufTaGetCommitment size zephyr name ++ rest) := by
  have filled := (safe.prepend (harmless_invoke zephyr name)).fill zephyr name _ _
    (fits_layout zephyr .commitment) [0, 1]
  unfold Raw.callPufTaGetCommitment
  rw [List.append_assoc, List.append_assoc]
  exact filled

theorem Safe.callPufTaGetZkProofs {rest : List RawStmt} (safe : Safe size initial rest) :
    Safe size initial (callPufTaGetZkProofs size zephyr name ++ rest) := by
  have filled := (safe.prepend (harmless_invoke zephyr name)).fill zephyr name _ _
    (fits_layout zephyr .proofs) [0, 1, 2]
  unfold Raw.callPufTaGetZkProofs
  rw [List.append_assoc, List.append_assoc]
  exact filled

theorem safe_callAndCopy {caller : CallName → List RawStmt} {rest : List RawStmt}
    (safe : Safe size initial rest)
    (calls : ∀ {later}, Safe size initial later → Safe size initial (caller name ++ later)) :
    Safe size initial (callAndCopy size name caller ++ rest) := by
  unfold callAndCopy
  simp only [List.append_assoc]
  have copying := safe.prepend (harmless_cpyLastResult name)
  have testing := copying.prepend (List.forall_mem_singleton.mpr (harmless_onGlobals failed))
  exact (calls testing).prepend (List.forall_mem_singleton.mpr (harmless_onGlobals passSessionId))

theorem safe_challengePuf : Safe size initial (challengePuf size zephyr) := by
  have closing :
      Safe size initial (call size zephyr .closeSession (crossconHvTeeCloseSession size)) :=
    fun _ _ same => throughout_of_preserves (harmless_call zephyr _ harmless_closeSession) same
  have passing := closing.prepend (List.forall_mem_singleton.mpr (harmless_onGlobals passSessionId))
  have proofs := safe_callAndCopy .proofs passing (Safe.callPufTaGetZkProofs zephyr .proofs)
  have commitment := safe_callAndCopy .commitment proofs
    (Safe.callPufTaGetCommitment zephyr .commitment)
  have init := safe_callAndCopy .init commitment (Safe.callPufTaInit zephyr .init)
  unfold challengePuf
  simp only [List.append_assoc]
  have tested := init.prepend (List.forall_mem_singleton.mpr (harmless_onGlobals
    (.leaveIf (fun own => own.res ≠ 0 ∨ own.sessionArg.ret ≠ 0) (-1))))
  have opened := tested.prepend (harmless_call zephyr .openSession
    (harmless_openSession Own.sessionArg 0 fun _ _ => ⟨0, 0, 0, 0⟩))
  have set := opened.prepend (harmless_map_onGlobals setSessionArg)
  exact set.prepend (List.forall_mem_singleton.mpr
    (harmless_onGlobals (.leaveIf (fun _ => !zephyr.bound) (-1))))

end Filling

/-- Whatever the other VM answers, as long as it answers in time and writes to the
shared page only, no byte beyond the page ever changes. -/
theorem sameBeyond_challengePuf (zephyr : Zephyr) (own : Own) (raw : RawShared)
    {client : RawClient}
    (reaches : Reaches (mailbox size) (.timely confined)
      (start own raw (challengePuf size zephyr)) client) :
    ∀ index, vmsIpcFullSize ≤ index → client.shared.memory index = raw.memory index :=
  (safe_challengePuf zephyr own raw fun _ _ => rfl).holds reaches

theorem sameBeyond_challengePuf_boot :
    ∃ client : RawClient, client.result.isSome ∧
      ∀ index, vmsIpcFullSize ≤ index → client.shared.memory index = 0xA5 := by
  obtain ⟨client, reaches, returned⟩ :=
    exists_returned (fun _ (request : Bytes) => ⟨request, fun _ _ => rfl⟩)
      (.refl : Reaches (mailbox .short) (.timely confined) _ _)
  exact ⟨client, returned,
    sameBeyond_challengePuf zephyrOfImage bootOwn (bootRaw fun _ => 0xA5) reaches⟩

end Uc1Integration.Tee.Raw
