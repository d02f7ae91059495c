import Uc1Integration.Interaction.MailboxAssertions
import Uc1Integration.TlsClient.Server

/-!
# Function ids

The id a call is invoked with is the one its challenge carried: reception puts it
into the record in place of the one it was initialised with, and nothing on the
way to the shared message looks at it.
-/

set_option autoImplicit false

namespace Uc1Integration.TlsClient

open Interaction Transport Tee Program Interaction.Client

def FuncSet (name : CallName) (own : Own) (shared : Shared) : Prop :=
  shared.invokeFuncArg.func = (own.record name).func

theorem stable_funcSet (name : CallName) : Stable mailbox (FuncSet name) where
  put := fun _ _ _ set => set
  handle := fun _ shared set => (func_handle shared).trans set

/-- `invoke_func_arg.func = call->func`. -/
def setFunc (name : CallName) (own : Own) (shared : Shared) : Own × Shared :=
  (own, { shared with
    invokeFuncArg := { shared.invokeFuncArg with func := (own.record name).func } })

/-- The driver from its write of the id on. -/
def driverFromId : List ClientStmt :=
  (crossconHvTeeInvokeFunc Shared.invokeFuncArg vmsMaxParams Shared.param).tail

/-- What `challenge_puf` does after a call. -/
def afterCallAndCopy (zephyr : Zephyr) : CallName → List ClientStmt
  | .init =>
      callAndCopy .commitment (callPufTaGetCommitment zephyr) ++
      callAndCopy .proofs (callPufTaGetZkProofs zephyr) ++
      [passSessionId] ++ zephyr.call .closeSession crossconHvTeeCloseSession
  | .commitment =>
      callAndCopy .proofs (callPufTaGetZkProofs zephyr) ++
      [passSessionId] ++ zephyr.call .closeSession crossconHvTeeCloseSession
  | .proofs => [passSessionId] ++ zephyr.call .closeSession crossconHvTeeCloseSession

/-- The rest of `challenge_puf` when the driver writes the id of a call. -/
def writingId (zephyr : Zephyr) (name : CallName) : List ClientStmt :=
  driverFromId ++ ([failed] ++ cpyLastResult name ++ afterCallAndCopy zephyr name)

/-- What a call does between the two assignments of its id. -/
def betweenIds : CallName → List ClientStmt
  | .init =>
      (setInvokeFuncArg .init).tail ++
      [assignMsg fun _ _ msg => { msg with callType := teeCallTypeInvokeFunc }]
  | .commitment =>
      (setInvokeFuncArg .commitment).tail ++
      [clearShm, copyToShm .commitment 0, copyToShm .commitment 1,
        assignMsg fun _ _ msg => { msg with callType := teeCallTypeInvokeFunc }]
  | .proofs =>
      (setInvokeFuncArg .proofs).tail ++
      [clearShm, copyToShm .proofs 0, copyToShm .proofs 1, copyToShm .proofs 2,
        assignMsg fun _ _ msg => { msg with callType := teeCallTypeInvokeFunc }]

theorem betweenIds_keeps (name : CallName) :
    ∀ statement ∈ betweenIds name, statement.KeepsBoth (FuncSet name) := by
  cases name with
  | init =>
      iterate 5 refine List.forall_mem_cons.mpr ⟨fun _ _ set => set, ?_⟩
      exact nofun
  | commitment =>
      iterate 8 refine List.forall_mem_cons.mpr ⟨fun _ _ set => set, ?_⟩
      exact nofun
  | proofs =>
      iterate 9 refine List.forall_mem_cons.mpr ⟨fun _ _ set => set, ?_⟩
      exact nofun

theorem invokeFunc_eq {zephyr : Zephyr} {name : CallName}
    (accepts : zephyr.rejects (.invokeFunc name) = none) :
    invokeFunc zephyr name =
      assignMsg (fun _ _ msg => { msg with callType := teeCallTypeInvokeFunc }) ::
        driverFromId := by
  rw [invokeFunc, Zephyr.call, accepts]
  rfl

theorem callPufTa_shape {zephyr : Zephyr} {name : CallName}
    (accepts : zephyr.rejects (.invokeFunc name) = none) :
    ∃ params, callPufTa zephyr name =
      params ++ .touch (setFunc name) :: (betweenIds name ++ driverFromId) := by
  let params := setParam zephyr 0 (attrOf name 0) (sizeOf name 0) ++
    setParam zephyr 1 (attrOf name 1) (sizeOf name 1) ++
    setParam zephyr 2 (attrOf name 2) (sizeOf name 2) ++
    setParam zephyr 3 (attrOf name 3) (sizeOf name 3)
  refine ⟨params, ?_⟩
  cases name with
  | init =>
      rw [callPufTa, callPufTaInit, invokeFunc_eq accepts]
      rfl
  | commitment =>
      rw [callPufTa, callPufTaGetCommitment, invokeFunc_eq accepts]
      rfl
  | proofs =>
      rw [callPufTa, callPufTaGetZkProofs, invokeFunc_eq accepts]
      rfl

theorem challengePuf_shape {zephyr : Zephyr} (dispatches : zephyr.Dispatches) (name : CallName) :
    ∃ before, challengePuf zephyr =
      before ++ .touch (setFunc name) :: (betweenIds name ++ writingId zephyr name) := by
  have call : callPufTa zephyr name ++ ([failed] ++ cpyLastResult name ++
      afterCallAndCopy zephyr name) <:+ challengePuf zephyr := by
    cases name with
    | init =>
        simp only [challengePuf, callAndCopy, afterCallAndCopy, List.append_assoc]
        iterate 5 refine List.suffix_append_of_suffix ?_
        exact List.suffix_refl _
    | commitment =>
        simp only [challengePuf, callAndCopy, afterCallAndCopy, List.append_assoc]
        iterate 9 refine List.suffix_append_of_suffix ?_
        exact List.suffix_refl _
    | proofs =>
        simp only [challengePuf, callAndCopy, afterCallAndCopy, List.append_assoc]
        iterate 13 refine List.suffix_append_of_suffix ?_
        exact List.suffix_refl _
  obtain ⟨ahead, whole⟩ := call
  obtain ⟨params, shape⟩ := callPufTa_shape (dispatches.accepts (.invokeFunc name))
  refine ⟨ahead ++ params, ?_⟩
  rw [← whole, shape, writingId]
  simp only [List.append_assoc, List.cons_append]

/-- When the driver writes the id of a call, it is that of the call's record. -/
theorem written_func {zephyr : Zephyr} (dispatches : zephyr.Dispatches) {own : Own}
    {shared : Shared} {client : PufClient} {name : CallName}
    (reaches : Reaches mailbox .any (start own shared (challengePuf zephyr)) client)
    (running : client.result = none) (writes : client.rest = writingId zephyr name) :
    (advance mailbox client).shared.msg.invokeArgs.func = (own.record name).func := by
  obtain ⟨before, shape⟩ := challengePuf_shape dispatches name
  have set : FuncSet name client.own client.shared :=
    holds_at (stable_funcSet name) shape (fun _ _ => rfl) (betweenIds_keeps name) reaches running
      writes
  have starts : HasFunc name (own.record name).func own := rfl
  have kept : HasFunc name (own.record name).func client.own :=
    keeps_of_reaches starts (keeps_challengePuf (kept_hasFunc name _) zephyr) reaches
  have written : (advance mailbox client).shared.msg.invokeArgs.func =
      client.shared.invokeFuncArg.func := by
    unfold advance
    rw [running, writes]
    rfl
  rw [written, set, kept]

/-- The client has received its three challenges and is about to ask the TEE. -/
structure AboutToAsk (zephyr : Zephyr) (events : List ClientEvent) (asked : Records) : Prop where
  runs : ∃ records program resume, Runs (testSocketConnection records) events program ∧
    program.view = .call (.challengePuf asked) resume
  valid : ValidRun zephyr events
  received : ∀ name, .reception name ∉ failures events

/-- In the exchange with the TEE the driver is about to write the id of a call. -/
structure WritingId (zephyr : Zephyr) (asked : Records) (name : CallName) (client : PufClient) :
    Prop where
  reaches : ∃ own shared, own.record = asked ∧
    Reaches mailbox .any (start own shared (challengePuf zephyr)) client
  running : client.result = none
  rest : client.rest = writingId zephyr name

/-- The id the driver writes with the parameters of a call is the one the call's
challenge carried, whatever it is. -/
theorem writtenId_carried {zephyr : Zephyr} (dispatches : zephyr.Dispatches)
    {events : List ClientEvent} {asked : Records} (asks : AboutToAsk zephyr events asked)
    {name : CallName} {client : PufClient} (writing : WritingId zephyr asked name client) :
    CarriesId (advance mailbox client).shared.msg.invokeArgs.func
      (transfers (.receiving name) events) := by
  obtain ⟨⟨records, program, resume, runs, calls⟩, valid, received⟩ := asks
  obtain ⟨⟨own, shared, same, reaches⟩, running, rest⟩ := writing
  rw [written_func dispatches reaches running rest, same]
  obtain ⟨challenged, _⟩ := runs_asked (runs.append (.call (0, asked) calls (.stop _)))
  obtain ⟨record, accepts⟩ := challenged.reception name (received name)
  refine carriesId_of_recChallenge ?_ accepts
  exact fun transfer member => valid _ (over_of_mem_transfers member)

/-- A well-formed challenge under any id. -/
def challengeBytes (id : UInt32) (pattern : Fin dataPortions → UInt8) : List UInt8 :=
  frame (idBytes id) ++
    (List.finRange dataPortions).flatMap fun i => frame (List.replicate (pattern i).toNat 1)

/-- The first challenge carries the id of the third call. -/
def foreignRun : List ClientEvent × Client (Int × Records) :=
  serveFirst
    (challengeBytes pufTaGetZkProofsFuncId patternInitCommit ++
      challengeBytes pufTaGetCommitmentFuncId patternInitCommit ++
      challengeBytes pufTaGetZkProofsFuncId patternProofs) 130

/-- The records the TEE is about to be asked with. -/
def asked? (program : Client (Int × Records)) : Option Records :=
  match program.view with
  | .call (.challengePuf asked) _ => some asked
  | _ => none

theorem exists_view_of_asked? {program : Client (Int × Records)} {asked : Records}
    (asks : asked? program = some asked) :
    ∃ resume, program.view = .call (.challengePuf asked) resume := by
  unfold asked? at asks
  split at asks
  next head =>
    cases asks
    exact ⟨_, head⟩
  next => cases asks

def foreignAsked : Records :=
  (asked? foreignRun.2).getD bootRecords

theorem foreignRun_asks : AboutToAsk zephyrOfImage foreignRun.1 foreignAsked := by
  have some : (asked? foreignRun.2).isSome = true := by decide +kernel
  obtain ⟨resume, asks⟩ := exists_view_of_asked?
    (Option.getD_of_ne_none (Option.isSome_iff_ne_none.mp some) bootRecords).symm
  refine ⟨⟨bootRecords, _, resume, runs_serveFirst _ _, asks⟩, ?_, ?_⟩
  · exact valid_serveFirst zephyrOfImage (by decide +kernel)
  · have none : failures foreignRun.1 = [] := by decide +kernel
    intro name
    rw [none]
    exact List.not_mem_nil

def foreignOwn : Own :=
  { bootOwn with record := foreignAsked }

/-- The first call of the exchange, with no reply to the open request. -/
def foreignClient : PufClient :=
  runAlone mailbox 40 (start foreignOwn (bootShared default) (challengePuf zephyrOfImage))

theorem foreignClient_reaches :
    Reaches mailbox .any (start foreignOwn (bootShared default) (challengePuf zephyrOfImage))
      foreignClient :=
  reaches_runAlone _ _ _

theorem foreignClient_writing :
    WritingId zephyrOfImage foreignAsked .init foreignClient := by
  have record : foreignOwn.record = foreignAsked := by simp only [foreignOwn]
  have running : foreignClient.result = none := by decide +kernel
  have length : foreignClient.rest.length = (writingId zephyrOfImage .init).length := by
    decide +kernel
  obtain ⟨before, shape⟩ := challengePuf_shape zephyrOfImage_dispatches .init
  refine ⟨⟨foreignOwn, bootShared default, record, foreignClient_reaches⟩, running, ?_⟩
  refine rest_eq_of_length foreignClient_reaches running ?_ length
  rw [shape]
  exact ((List.suffix_append _ _).trans (List.suffix_cons _ _)).trans (List.suffix_append _ _)

theorem writtenId_carried_foreign :
    CarriesId (advance mailbox foreignClient).shared.msg.invokeArgs.func
      (transfers (.receiving .init) foreignRun.1) :=
  writtenId_carried zephyrOfImage_dispatches foreignRun_asks foreignClient_writing

/-- The TEE is asked for the proofs with the parameters of the initialisation. -/
theorem not_matchingId_foreign :
    ∃ events asked client, AboutToAsk zephyrOfImage events asked ∧
      WritingId zephyrOfImage asked .init client ∧
      (advance mailbox client).shared.msg.invokeArgs.func = pufTaGetZkProofsFuncId ∧
      CallName.func .init ≠ pufTaGetZkProofsFuncId :=
  ⟨_, _, _, foreignRun_asks, foreignClient_writing, by decide +kernel, by decide⟩

end Uc1Integration.TlsClient
