import Mathlib.Data.List.Infix
import Uc1Integration.Interaction.Ledger
import Uc1Integration.Tee.Replies

/-!
# Sessions at the TEE

Which sessions a run of `challenge_puf` opens and closes, when Zephyr's wrappers
may reject any of its calls, and what many runs leave open.
-/

set_option autoImplicit false

namespace Uc1Integration.Tee

open Interaction Transport Client

/-- The calls of `challenge_puf` in their order. -/
def operations : List TeeOperation :=
  [.openSession, .invokeFunc .init, .invokeFunc .commitment, .invokeFunc .proofs, .closeSession]

/-- The calls that get as far as the driver. -/
def Zephyr.passes (zephyr : Zephyr) : List TeeOperation :=
  if zephyr.bound then operations.takeWhile fun operation => (zephyr.rejects operation).isNone
  else []

def requestFor (zephyr : Zephyr) (replies : Nat → SharedMessage) (own : Own) (shared : Shared) :
    TeeOperation → SharedMessage
  | .openSession => openRequest shared
  | .invokeFunc call => requestOf zephyr replies own shared call
  | .closeSession => closeRequest (afterProofs zephyr replies own shared)

section Rejections

variable (replies : Nat → SharedMessage) (rest : List ClientStmt) (position : Nat) (own : Own)
  (shared : Shared)

/-- The statements of a call that come before the driver's. -/
theorem exists_preparation (zephyr : Zephyr) (call : CallName) :
    ∃ preparation, callPufTa zephyr call = preparation ++ invokeFunc zephyr call ∧
      ∀ statement ∈ preparation, statement.Assigns := by
  cases call with
  | init => exact ⟨_, rfl, by simp [setParam, setInvokeFuncArg, assign, Stmt.Assigns]⟩
  | commitment =>
      refine ⟨_, rfl, ?_⟩
      simp [setParam, setInvokeFuncArg, assign, clearShm, copyToShm, assignMsg, Stmt.Assigns]
  | proofs =>
      refine ⟨_, rfl, ?_⟩
      simp [setParam, setInvokeFuncArg, assign, clearShm, copyToShm, assignMsg, Stmt.Assigns]

theorem requests_rejected {zephyr : Zephyr} {call : CallName}
    {caller : CallName → List ClientStmt} (calls : caller call = callPufTa zephyr call)
    {error : Errno} (rejects : zephyr.rejects (.invokeFunc call) = some error) :
    (settle mailbox replies (callAndCopy call caller ++ rest) position own shared).requests =
      [] := by
  obtain ⟨preparation, whole, assigns⟩ := exists_preparation zephyr call
  simp only [callAndCopy, List.append_assoc, List.cons_append, List.nil_append, passSessionId,
    settle, calls, whole]
  rw [settle_assigns mailbox replies assigns, invokeFunc, Zephyr.call, rejects]
  simp [returnCode, failed, settle, error.nonzero]

/-- The first of these calls, up to the first that is rejected. -/
def Zephyr.accepted (zephyr : Zephyr) (operations : List TeeOperation) : List TeeOperation :=
  operations.takeWhile fun operation => (zephyr.rejects operation).isNone

theorem accepted_of_rejects {zephyr : Zephyr} {operation : TeeOperation} {error : Errno}
    (rejects : zephyr.rejects operation = some error) (later : List TeeOperation) :
    zephyr.accepted (operation :: later) = [] := by
  rw [Zephyr.accepted, List.takeWhile, rejects]
  rfl

theorem accepted_of_accepts {zephyr : Zephyr} {operation : TeeOperation}
    (accepts : zephyr.rejects operation = none) (later : List TeeOperation) :
    zephyr.accepted (operation :: later) = operation :: zephyr.accepted later := by
  rw [Zephyr.accepted, List.takeWhile, accepts]
  rfl

/-- A call and what follows it make the requests of the accepted calls when what follows
it does, whatever the call leaves in its own record. -/
theorem requests_callAndCopy {zephyr : Zephyr} {call : CallName}
    {caller : CallName → List ClientStmt} (calls : caller call = callPufTa zephyr call)
    {record : FuncCall} (same : own.record call = record) {later : List TeeOperation}
    {ask : TeeOperation → SharedMessage}
    (here : ask (.invokeFunc call) = request zephyr call record shared.sessionId shared.msg)
    (onward : ∀ own', (∀ other, other ≠ call → own'.record other = own.record other) →
      (settle mailbox replies rest (position + 1) own'
        (replied zephyr call record shared.sessionId shared (replies position))).requests =
          (zephyr.accepted later).map ask) :
    (settle mailbox replies (callAndCopy call caller ++ rest) position own shared).requests =
      (zephyr.accepted (.invokeFunc call :: later)).map ask := by
  cases rejects : zephyr.rejects (.invokeFunc call) with
  | some error =>
      rw [requests_rejected _ _ _ _ _ calls rejects, accepted_of_rejects rejects]
      rfl
  | none =>
      subst same
      rw [settle_callAndCopy _ _ _ _ _ call calls rejects, accepted_of_accepts rejects,
        List.map_cons, here]
      exact congrArg (_ :: ·) (onward _ fun other different => Function.update_of_ne different _ _)

theorem requests_closeSession {zephyr : Zephyr} {ask : TeeOperation → SharedMessage}
    (here : ask .closeSession = closeRequest shared) :
    (settle mailbox replies
      (passSessionId :: zephyr.call .closeSession crossconHvTeeCloseSession) position own
      shared).requests = (zephyr.accepted [.closeSession]).map ask := by
  rw [passSessionId, settle]
  cases rejects : zephyr.rejects .closeSession with
  | some error =>
      rw [accepted_of_rejects rejects, Zephyr.call, rejects]
      rfl
  | none =>
      rw [settle_closeSession _ _ _ _ rejects, accepted_of_accepts rejects, List.map_cons, here]
      rfl

end Rejections

/-- What follows on the session is the three calls and the close, up to the first that is
rejected. -/
theorem requests_afterOpen (zephyr : Zephyr) (replies : Nat → SharedMessage) {own own' : Own}
    (shared : Shared) (same : own'.record = own.record) :
    (settle mailbox replies
      (callAndCopy .init (callPufTaInit zephyr) ++
        (callAndCopy .commitment (callPufTaGetCommitment zephyr) ++
          (callAndCopy .proofs (callPufTaGetZkProofs zephyr) ++
            passSessionId :: zephyr.call .closeSession crossconHvTeeCloseSession)))
      1 own' (afterOpen replies shared)).requests =
      (zephyr.accepted [.invokeFunc .init, .invokeFunc .commitment, .invokeFunc .proofs,
        .closeSession]).map (requestFor zephyr replies own shared) := by
  have init : callPufTaInit zephyr .init = callPufTa zephyr .init := rfl
  have commitment : callPufTaGetCommitment zephyr .commitment = callPufTa zephyr .commitment := rfl
  have proofs : callPufTaGetZkProofs zephyr .proofs = callPufTa zephyr .proofs := rfl
  apply requests_callAndCopy _ _ _ _ _ init (congrFun same .init) rfl
  intro own₁ kept₁
  have second : own₁.record .commitment = own.record .commitment :=
    (kept₁ .commitment (by decide)).trans (congrFun same .commitment)
  apply requests_callAndCopy _ _ _ _ _ commitment second rfl
  intro own₂ kept₂
  have third : own₂.record .proofs = own.record .proofs :=
    (kept₂ .proofs (by decide)).trans
      ((kept₁ .proofs (by decide)).trans (congrFun same .proofs))
  apply requests_callAndCopy _ _ _ _ _ proofs third rfl
  intro own₃ _
  exact requests_closeSession _ _ _ _ rfl

/-- With timely replies a run makes its calls up to the first that is rejected. -/
theorem requests_settle (zephyr : Zephyr) (replies : Nat → SharedMessage) {own : Own}
    (shared : Shared) (noError : own.sessionArg.ret = 0) :
    (settle mailbox replies (challengePuf zephyr) 0 own shared).requests =
      zephyr.passes.map (requestFor zephyr replies own shared) := by
  cases bound : zephyr.bound with
  | false => simp [challengePuf, settle, bound, Zephyr.passes]
  | true =>
      have passes : zephyr.passes = zephyr.accepted operations := if_pos bound
      simp only [challengePuf, List.append_assoc, List.cons_append, List.nil_append, setSessionArg,
        settle, bound, Bool.not_true, Bool.false_eq_true, if_false]
      rw [passes, operations]
      cases opens : zephyr.rejects .openSession with
      | some error =>
          rw [accepted_of_rejects opens]
          simp [Zephyr.call, opens, returnCode, settle, error.nonzero]
      | none =>
          rw [settle_openSession _ _ _ _ _ opens, accepted_of_accepts opens, List.map_cons]
          simp only [settle, noError, ne_eq, not_true_eq_false, or_self, decide_false,
            Bool.false_eq_true, if_false]
          exact congrArg (openRequest shared :: ·) (requests_afterOpen zephyr replies shared rfl)

/-- The session the TEE opens with a reply. -/
def openedBy (requests : List SharedMessage) (reply : Nat × SharedMessage) : Option UInt32 :=
  match requests[reply.1]? with
  | some request =>
      if request.callType = teeCallTypeOpenSession ∧ reply.2.sessionArgs.ret = teeSuccess then
        some reply.2.sessionArgs.session
      else none
  | none => none

/-- The session the TEE closes on a request. -/
def closedBy (request : SharedMessage) : Option UInt32 :=
  if request.callType = teeCallTypeCloseSession then some request.sessionArgs.session else none

def opened (client : PufClient) : List UInt32 :=
  client.replies.filterMap (openedBy client.requests)

def closed (client : PufClient) : List UInt32 :=
  client.requests.filterMap closedBy

inductive SessionEvent where
  | opened (session : UInt32)
  | closed (session : UInt32)
  deriving DecidableEq, Repr

def sessions : Ledger SessionEvent UInt32 where
  acquires
    | .opened session => {session}
    | .closed _ => 0
  releases
    | .opened _ => 0
    | .closed session => {session}

/-- A run closes the session it has opened, if any, once, and no other; so as
many sessions are open behind it as were before. -/
structure Paired (client : PufClient) : Prop where
  closes : closed client = opened client
  unchanged : ∀ live, sessions.Settles live
    ((opened client).map .opened ++ (closed client).map .closed) live

theorem settles_opened (live : Multiset UInt32) (opens : List UInt32) :
    sessions.Settles live (opens.map .opened) (live + (opens : Multiset UInt32)) := by
  induction opens generalizing live with
  | nil => exact (add_zero live).symm ▸ .nil live
  | cons session opens ih =>
      have onward := ih (live + {session})
      rw [add_assoc, Multiset.singleton_add, Multiset.cons_coe] at onward
      exact .cons (add_zero live).symm onward

theorem settles_closed (live : Multiset UInt32) (closes : List UInt32) :
    sessions.Settles (live + (closes : Multiset UInt32)) (closes.map .closed) live := by
  induction closes with
  | nil => exact (add_zero live).symm ▸ .nil live
  | cons session closes ih =>
      have first : live + ((session :: closes : List UInt32) : Multiset UInt32) =
          live + (closes : Multiset UInt32) + {session} := by
        rw [← Multiset.cons_coe, ← Multiset.singleton_add, add_left_comm, add_comm]
      rw [← add_zero (live + (closes : Multiset UInt32))] at ih
      exact .cons first ih

theorem paired_iff {client : PufClient} : Paired client ↔ closed client = opened client := by
  constructor
  · exact Paired.closes
  · intro same
    refine ⟨same, fun live => ?_⟩
    rw [same]
    exact (settles_opened live _).append (settles_closed live _)

/-- The TEE agreed to open a session. -/
def Granted (client : PufClient) : Prop :=
  ∃ reply, (0, reply) ∈ client.replies ∧ reply.sessionArgs.ret = teeSuccess

/-- No call behind the first is rejected by its wrapper. -/
def Zephyr.Completes (zephyr : Zephyr) : Prop :=
  (∀ call, zephyr.rejects (.invokeFunc call) = none) ∧ zephyr.rejects .closeSession = none

/-- A request for a session is granted exactly when the run gets to its close. -/
def InStep (zephyr : Zephyr) (client : PufClient) : Prop :=
  zephyr.bound = true → zephyr.rejects .openSession = none →
    (Granted client ↔ zephyr.Completes)

section Opened

variable {client : PufClient}

/-- Only the first request opens a session, if the TEE grants it. -/
theorem opened_cases {accepts : Nat → SharedMessage → SharedMessage → Prop}
    (ordered : Ordered accepts client)
    (opens : ∀ position request, client.requests[position]? = some request →
      (request.callType = teeCallTypeOpenSession ↔ position = 0)) :
    (¬ Granted client ∧ opened client = []) ∨
      ∃ reply, (0, reply) ∈ client.replies ∧ Granted client ∧
        opened client = [reply.sessionArgs.session] := by
  have nothing : ∀ later : List (Nat × SharedMessage), (∀ other ∈ later, 0 < other.1) →
      later.filterMap (openedBy client.requests) = [] := by
    intro later behind
    rw [List.filterMap_eq_nil_iff]
    intro other member
    unfold openedBy
    split
    next request found =>
      exact if_neg fun both => (behind other member).ne' ((opens _ _ found).mp both.1)
    next => rfl
  rcases ordered.replies_cases with none | ⟨reply, later, listed, behind⟩
  · left
    simp [Granted, opened, none]
  · obtain ⟨request, found, _⟩ := ordered.accepted (0, reply) (by simp [listed])
    have first : openedBy client.requests (0, reply) =
        if reply.sessionArgs.ret = teeSuccess then some reply.sessionArgs.session else none := by
      simp only [openedBy, found, (opens _ _ found).mpr rfl, true_and]
    by_cases success : reply.sessionArgs.ret = teeSuccess
    · refine .inr ⟨reply, by simp [listed], ⟨reply, by simp [listed], success⟩, ?_⟩
      rw [opened, listed, List.filterMap_cons, first, if_pos success, nothing later behind]
    · left
      constructor
      · rintro ⟨other, member, granted⟩
        rw [listed] at member
        rcases List.mem_cons.mp member with here | there
        · cases here
          exact success granted
        · exact absurd (behind _ there) (lt_irrefl 0)
      · rw [opened, listed, List.filterMap_cons, first, if_neg success, nothing later behind]

end Opened

/-- A timely run that has returned, by the replies of a TEE that keeps the call type. -/
structure Returned (zephyr : Zephyr) (own : Own) (shared : Shared) (client : PufClient) : Prop where
  reaches : Reaches mailbox (.timely keepsCallType) (start own shared (challengePuf zephyr)) client
  result : client.result.isSome

theorem Returned.requests {zephyr : Zephyr} {own : Own} {shared : Shared} {client : PufClient}
    (returned : Returned zephyr own shared client) (noError : own.sessionArg.ret = 0) :
    ∃ replies, client.requests = zephyr.passes.map (requestFor zephyr replies own shared) := by
  obtain ⟨replies, agrees⟩ := exists_agrees (Ordered.of_reaches returned.reaches)
  obtain ⟨code, result⟩ := Option.isSome_iff_exists.mp returned.result
  have outcome := outcome_of_timely returned.reaches agrees result
  refine ⟨replies, ?_⟩
  rw [← requests_settle zephyr replies shared noError, outcome]

theorem passes_mem_inits (zephyr : Zephyr) : zephyr.passes ∈ operations.inits := by
  rw [List.mem_inits]
  unfold Zephyr.passes
  split
  · exact List.takeWhile_prefix _
  · exact List.nil_prefix

theorem mem_passes_iff (zephyr : Zephyr) : .closeSession ∈ zephyr.passes ↔
    zephyr.bound = true ∧ zephyr.rejects .openSession = none ∧ zephyr.Completes := by
  have each : zephyr.Completes ↔ (zephyr.rejects (.invokeFunc .init) = none ∧
      zephyr.rejects (.invokeFunc .commitment) = none ∧
      zephyr.rejects (.invokeFunc .proofs) = none) ∧ zephyr.rejects .closeSession = none := by
    refine and_congr_left fun _ => ⟨fun all => ⟨all _, all _, all _⟩, ?_⟩
    rintro ⟨init, commitment, proofs⟩ call
    cases call with
    | init => exact init
    | commitment => exact commitment
    | proofs => exact proofs
  rw [each]
  simp only [Zephyr.passes, operations, List.takeWhile]
  cases zephyr.bound <;> cases zephyr.rejects .openSession <;>
    cases zephyr.rejects (.invokeFunc .init) <;> cases zephyr.rejects (.invokeFunc .commitment) <;>
    cases zephyr.rejects (.invokeFunc .proofs) <;> cases zephyr.rejects .closeSession <;> simp

section Requests

variable {zephyr : Zephyr} {replies : Nat → SharedMessage} {own : Own} {shared : Shared}

theorem opens_iff_openSession (operation : TeeOperation) :
    (requestFor zephyr replies own shared operation).callType = teeCallTypeOpenSession ↔
      operation = .openSession := by
  cases operation with
  | openSession => exact ⟨fun _ => rfl, fun _ => rfl⟩
  | invokeFunc call =>
      have other : ¬ teeCallTypeInvokeFunc = teeCallTypeOpenSession := by decide
      exact ⟨fun same => absurd same other, fun same => by cases same⟩
  | closeSession =>
      have other : ¬ teeCallTypeCloseSession = teeCallTypeOpenSession := by decide
      exact ⟨fun same => absurd same other, fun same => by cases same⟩

/-- A request is that of the call at its position. -/
theorem operation_of_request {position : Nat} {request : SharedMessage}
    (found : (zephyr.passes.map (requestFor zephyr replies own shared))[position]? = some request) :
    ∃ operation, operations[position]? = some operation ∧
      request = requestFor zephyr replies own shared operation := by
  obtain ⟨others, whole⟩ := (List.mem_inits _ _).mp (passes_mem_inits zephyr)
  rw [List.getElem?_map, Option.map_eq_some_iff] at found
  obtain ⟨operation, there, same⟩ := found
  refine ⟨operation, ?_, same.symm⟩
  rw [← whole, List.getElem?_append_left (List.getElem?_eq_some_iff.mp there).choose, there]

theorem opens_iff_first {position : Nat} {request : SharedMessage}
    (found : (zephyr.passes.map (requestFor zephyr replies own shared))[position]? = some request) :
    request.callType = teeCallTypeOpenSession ↔ position = 0 := by
  obtain ⟨operation, inside, rfl⟩ := operation_of_request found
  rw [opens_iff_openSession]
  rcases position with _ | _ | _ | _ | _ | position
  all_goals cases inside
  all_goals decide

theorem closed_of_requests {client : PufClient}
    (requests : client.requests = zephyr.passes.map (requestFor zephyr replies own shared)) :
    closed client = if .closeSession ∈ zephyr.passes then
      [(closeRequest (afterProofs zephyr replies own shared)).sessionArgs.session] else [] := by
  rw [closed, requests]
  have initial := passes_mem_inits zephyr
  simp only [operations, List.inits, List.map_cons, List.map_nil, List.mem_cons,
    List.not_mem_nil, or_false] at initial
  rcases initial with same | same | same | same | same | same
  all_goals
    rw [same]
    rfl

end Requests

theorem passes_ne_nil {zephyr : Zephyr} (some : zephyr.passes ≠ []) :
    zephyr.bound = true ∧ zephyr.rejects .openSession = none := by
  cases bound : zephyr.bound with
  | false => simp [Zephyr.passes, bound] at some
  | true =>
      cases opens : zephyr.rejects .openSession with
      | some error => simp [Zephyr.passes, operations, bound, opens] at some
      | none => exact ⟨rfl, rfl⟩

theorem Zephyr.Completes.dispatches {zephyr : Zephyr} (completes : zephyr.Completes)
    (bound : zephyr.bound = true) (opens : zephyr.rejects .openSession = none) :
    zephyr.Dispatches := by
  refine ⟨bound, fun operation => ?_⟩
  cases operation with
  | openSession => exact opens
  | invokeFunc call => exact completes.1 call
  | closeSession => exact completes.2

section Returned

variable {zephyr : Zephyr} {own : Own} {shared : Shared} {client : PufClient}

/-- A run that gets to its close names the session of the first reply. -/
theorem Returned.closed_eq (returned : Returned zephyr own shared client)
    (noError : own.sessionArg.ret = 0) (dispatches : zephyr.Dispatches) {reply : SharedMessage}
    (first : (0, reply) ∈ client.replies) : closed client = [reply.sessionArgs.session] := by
  have ordered := Ordered.of_reaches returned.reaches
  obtain ⟨replies, agrees⟩ := exists_agrees ordered
  obtain ⟨code, result⟩ := Option.isSome_iff_exists.mp returned.result
  have outcome := outcome_of_timely returned.reaches agrees result
  obtain ⟨_, settles, _⟩ := settle_challengePuf zephyr replies own shared dispatches noError
  rw [settles] at outcome
  obtain ⟨_, rfl, _⟩ := Outcome.mk.inj outcome
  obtain ⟨heardReplies, heard⟩ := heard_of_timely dispatches returned.reaches result
  have closing : SessionIs (heardReplies 0).sessionArgs.session
      (closeRequest (afterProofs zephyr heardReplies own shared)) :=
    heard.session heard.opened heard.invoked _ (by simp [heard.requests])
  have same : heardReplies 0 = reply :=
    (agrees _ (heard.answered 0 (by decide))).symm.trans (agrees _ first)
  have only : closed client =
      [(closeRequest (afterProofs zephyr heardReplies own shared)).sessionArgs.session] := by
    rw [closed, heard.requests]
    rfl
  rw [only, closing.close rfl, same]

theorem Returned.paired_iff (returned : Returned zephyr own shared client)
    (noError : own.sessionArg.ret = 0) : Paired client ↔ InStep zephyr client := by
  rw [Tee.paired_iff]
  obtain ⟨replies, requests⟩ := returned.requests noError
  have ordered := Ordered.of_reaches returned.reaches
  have opens : ∀ position request, client.requests[position]? = some request →
      (request.callType = teeCallTypeOpenSession ↔ position = 0) := by
    intro position request found
    rw [requests] at found
    exact opens_iff_first found
  by_cases completes : .closeSession ∈ zephyr.passes
  · obtain ⟨bound, accepts, completed⟩ := (mem_passes_iff zephyr).mp completes
    have inStep : InStep zephyr client ↔ Granted client :=
      ⟨fun inStep => (inStep bound accepts).mpr completed,
        fun granted _ _ => ⟨fun _ => completed, fun _ => granted⟩⟩
    rw [inStep]
    rcases opened_cases ordered opens with ⟨refused, none⟩ | ⟨reply, first, granted, one⟩
    · rw [none, closed_of_requests requests, if_pos completes]
      exact ⟨fun same => absurd same (List.cons_ne_nil _ _), fun granted => absurd granted refused⟩
    · rw [one, returned.closed_eq noError (completed.dispatches bound accepts) first]
      exact ⟨fun _ => granted, fun _ => rfl⟩
  · rw [closed_of_requests requests, if_neg completes]
    rcases opened_cases ordered opens with ⟨refused, none⟩ | ⟨reply, first, granted, one⟩
    · rw [none]
      refine ⟨fun _ bound accepts => ⟨fun granted => absurd granted refused, fun completed => ?_⟩,
        fun _ => rfl⟩
      exact absurd ((mem_passes_iff zephyr).mpr ⟨bound, accepts, completed⟩) completes
    · rw [one]
      constructor
      · exact fun same => absurd same.symm (List.cons_ne_nil _ _)
      · intro inStep
        obtain ⟨request, found, _⟩ := ordered.accepted _ first
        have some : zephyr.passes ≠ [] := by
          intro none
          rw [requests, none] at found
          cases found
        obtain ⟨bound, accepts⟩ := passes_ne_nil some
        exact absurd ((mem_passes_iff zephyr).mpr
          ⟨bound, accepts, (inStep bound accepts).mp granted⟩) completes

end Returned

/-- Runs one after the other, each with wrappers of its own. Anything may happen to
the shared memory and to the records in between. -/
inductive Consecutive : Own → List (Zephyr × PufClient) → Prop where
  | nil (own : Own) : Consecutive own []
  | cons {own own' : Own} {shared : Shared} {zephyr : Zephyr} {client : PufClient}
      {later : List (Zephyr × PufClient)} :
      Returned zephyr own shared client → own'.sessionArg = client.own.sessionArg →
      Consecutive own' later → Consecutive own ((zephyr, client) :: later)

/-- Every run closes what it opens exactly when in every run the TEE grants the
session that is asked for if and only if no later call is rejected. -/
theorem sessionsPaired_iff {own : Own} {runs : List (Zephyr × PufClient)}
    (boot : own.sessionArg = sessionArgZero) (consecutive : Consecutive own runs) :
    (∀ run ∈ runs, Paired run.2) ↔ ∀ run ∈ runs, InStep run.1 run.2 := by
  have noError : NoError own := by
    rw [NoError, boot]
    rfl
  clear boot
  induction consecutive with
  | nil => simp only [List.not_mem_nil, false_implies, implies_true]
  | cons returned same _ ih =>
      have kept : NoError _ :=
        keeps_of_reaches noError (keeps_challengePuf kept_noError _) returned.reaches
      rw [List.forall_mem_cons, List.forall_mem_cons, returned.paired_iff noError]
      refine and_congr_right fun _ => ih ?_
      rw [NoError, same]
      exact kept

theorem returned_of_replies (zephyr : Zephyr) (replies : Nat → SharedMessage) {own : Own}
    (shared : Shared) (noError : own.sessionArg.ret = 0)
    (accepted : ∀ position request,
      (zephyr.passes.map (requestFor zephyr replies own shared))[position]? = some request →
      keepsCallType position request (replies position)) :
    ∃ client, Returned zephyr own shared client ∧ Agrees replies client := by
  obtain ⟨client, reaches, agrees, _, result⟩ :=
    exists_timely mailbox keepsCallType replies own shared (challengePuf zephyr) (by
      rw [requests_settle zephyr replies shared noError]
      exact accepted)
  exact ⟨client, ⟨reaches, result⟩, agrees⟩

/-- A TEE that opens session 7 and answers every call. -/
def grantingReplies (position : Nat) : SharedMessage :=
  let callTypes : List UInt32 :=
    [teeCallTypeOpenSession, teeCallTypeInvokeFunc, teeCallTypeInvokeFunc, teeCallTypeInvokeFunc,
      teeCallTypeCloseSession]
  { (default : SharedMessage) with
    callType := callTypes.getD position 0
    sessionArgs := ⟨[], [], 0, 0, 7, teeSuccess, 0, 0⟩ }

theorem keepsCallType_granting (zephyr : Zephyr) (own : Own) (shared : Shared) (position : Nat)
    (request : SharedMessage)
    (found : (zephyr.passes.map (requestFor zephyr grantingReplies own shared))[position]? =
      some request) : keepsCallType position request (grantingReplies position) := by
  obtain ⟨operation, inside, rfl⟩ := operation_of_request found
  rcases position with _ | _ | _ | _ | _ | position
  all_goals cases inside
  all_goals rfl

theorem exists_granted {zephyr : Zephyr}
    (longer : 1 < zephyr.passes.length) :
    ∃ client, Returned zephyr bootOwn (bootShared default) client ∧ Granted client := by
  obtain ⟨client, returned, agrees⟩ := returned_of_replies zephyr grantingReplies
    (bootShared default) (show bootOwn.sessionArg.ret = 0 from rfl)
    (keepsCallType_granting zephyr bootOwn (bootShared default))
  refine ⟨client, returned, ?_⟩
  obtain ⟨replies, requests⟩ := returned.requests rfl
  obtain ⟨reply, first⟩ := (Ordered.of_reaches returned.reaches).answered 0 (by
    rw [requests, List.length_map]
    exact longer)
  have same : grantingReplies 0 = reply := agrees _ first
  exact ⟨reply, first, by rw [← same]; rfl⟩

theorem sessionsPaired_iff_granted : ∃ client, Granted client ∧ Paired client := by
  obtain ⟨client, returned, granted⟩ :=
    exists_granted (show 1 < zephyrOfImage.passes.length by decide)
  have completes : zephyrOfImage.Completes := ⟨fun _ => rfl, rfl⟩
  have all := (sessionsPaired_iff rfl (.cons returned rfl (.nil client.own))).mpr (by
    intro run member
    cases List.mem_singleton.mp member
    exact fun _ _ => ⟨fun _ => completes, fun _ => granted⟩)
  exact ⟨client, granted, all _ List.mem_cons_self⟩

theorem nonzero_eio : (-5 : Int) ≠ 0 := by
  decide

/-- The wrapper of the second invocation returns `-EIO`. -/
def zephyrWithError : Zephyr where
  bound := true
  rejects operation :=
    if operation = .invokeFunc .commitment then some ⟨-5, nonzero_eio⟩ else none
  ipcShm := 0x10001000

theorem not_sessionsPaired_rejected :
    ¬ ∀ own runs, own.sessionArg = sessionArgZero → Consecutive own runs →
      ∀ run ∈ runs, Paired run.2 := by
  intro always
  obtain ⟨client, returned, granted⟩ :=
    exists_granted (show 1 < zephyrWithError.passes.length by decide)
  have paired : Paired client :=
    always _ [(zephyrWithError, client)] rfl (.cons returned rfl (.nil client.own)) _
      List.mem_cons_self
  have completes := ((returned.paired_iff rfl).mp paired rfl rfl).mp granted
  exact absurd (completes.1 .commitment) (by decide)

end Uc1Integration.Tee
