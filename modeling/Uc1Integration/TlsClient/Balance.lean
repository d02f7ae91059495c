import Mathlib.Tactic.Abel
import Uc1Integration.TlsClient.Resources
import Uc1Integration.TlsClient.Server

/-!
# The balance of a connection

Whether every return of `test_socket_connection` leaves live what was live before
the call, over any number of calls that reuse the records.
-/

set_option autoImplicit false

namespace Uc1Integration.TlsClient

open Interaction Transport Tee Program

/-- A call that no resource depends on. -/
def ClientCall.Quiet : ClientCall → Prop
  | .socket => False
  | .connect _ => False
  | .wolfsslInit => False
  | .ctxNew => False
  | .sslNew _ => False
  | .malloc _ => False
  | .free _ => False
  | .sslFree _ => False
  | .ctxFree _ => False
  | .wolfsslCleanup => False
  | .close _ => False
  | _ => True

theorem neutral_of_quiet {operation : ClientCall} (quiet : operation.Quiet)
    (answer : ClientAnswer operation) : forgiving.Neutral ⟨operation, answer⟩ := by
  cases operation with
  | socket | connect | wolfsslInit | ctxNew | sslNew | malloc | free | sslFree | ctxFree
  | wolfsslCleanup | close => exact quiet.elim
  | _ => exact ⟨rfl, rfl⟩

/-- The records own no block. -/
def Bare (records : Records) : Prop :=
  ∀ name i, ((records name).dataP i).data = none

/-- The blocks the three records own. -/
def ownedByAll (records : Records) : Multiset Resource :=
  ownedBy (records .proofs) + ownedBy (records .commitment) + ownedBy (records .init)

theorem ownedBy_eq_zero {record : FuncCall} (none : ∀ i, (record.dataP i).data = none) :
    ownedBy record = 0 :=
  owned_eq_zero fun i _ => none i

theorem ownedByAll_eq_zero {records : Records} (bare : Bare records) : ownedByAll records = 0 := by
  rw [ownedByAll, ownedBy_eq_zero (bare .proofs), ownedBy_eq_zero (bare .commitment),
    ownedBy_eq_zero (bare .init)]
  rfl

section Labels

variable {valid : ClientEvent → Prop} {live : Multiset Resource} {records : Records}

/-- What a label leaves of what its caller had acquired. -/
def Cleared (live : Multiset Resource) (outcome : Int × Records) (live' : Multiset Resource) :
    Prop :=
  live' = live ∧ Bare outcome.2

theorem leaves_quiet {α β : Type} {program : Client α} {continuation : α → Client β}
    {post : β → Multiset Resource → Prop} (uses : program.Uses ClientCall.Quiet)
    (later : ∀ value, forgiving.Leaves valid live (continuation value) post) :
    forgiving.Leaves valid live (program.bind continuation) post := by
  refine Ledger.Leaves.bind
    (Ledger.leaves_neutral uses fun _ answer quiet => neutral_of_quiet quiet answer) ?_
  rintro value _ ⟨rfl, _⟩
  exact later value

theorem leaves_report {rest : Client (Int × Records)} {post : Int × Records → Multiset Resource → Prop}
    (failure : Failure) (later : forgiving.Leaves valid live rest post) :
    forgiving.Leaves valid live ((report failure).bind fun _ => rest) post :=
  leaves_quiet (uses_perform trivial) fun _ => later

theorem leaves_socketCleanup (sock ret : Int) (bare : Bare records) :
    forgiving.Leaves valid (live + socketOf sock) (socketCleanup sock ret records)
      (Cleared live) := by
  refine Ledger.leaves_release (fun _ => releases_eq rfl) (fun _ => rfl) fun _ => ?_
  exact Ledger.leaves_done ⟨rfl, bare⟩

/-- What is live once there is a context. -/
abbrev withContext (live : Multiset Resource) (sock : Int) (ctx : Nat) : Multiset Resource :=
  live + socketOf sock + {.library} + {.context ctx}

theorem leaves_ctxCleanup (ctx : Nat) (sock ret : Int) (bare : Bare records) :
    forgiving.Leaves valid (withContext live sock ctx) (ctxCleanup ctx sock ret records)
      (Cleared live) := by
  refine Ledger.leaves_release (fun _ => releases_eq rfl) (fun _ => rfl) fun _ => ?_
  refine Ledger.leaves_release (fun _ => releases_eq rfl) (fun _ => rfl) fun _ => ?_
  exact leaves_socketCleanup sock ret bare

theorem leaves_freeRecord (name : CallName) :
    forgiving.Leaves valid (live + ownedBy (records name)) (freeRecord records name)
      fun records' live' => live' = live ∧ ∃ record, (∀ i, record.dataP i = nullPortion 0) ∧
        records' = Function.update records name record := by
  refine Ledger.Leaves.bind
    (leaves_freePortions live (records name) (List.nodup_finRange dataPortions)) ?_
  rintro record live' ⟨same, empties, _⟩
  exact Ledger.leaves_done ⟨same, record, fun i => empties i (List.mem_finRange i), rfl⟩

/-- What is live during the conversation with the server. -/
abbrev conversing (live : Multiset Resource) (sock : Int) (ctx ssl : Nat) (records : Records) :
    Multiset Resource :=
  withContext live sock ctx + ownedByAll records + {.object ssl}

theorem leaves_cleanup (ssl ctx : Nat) (sock ret : Int) (records : Records) :
    forgiving.Leaves valid (conversing live sock ctx ssl records)
      (cleanup ssl ctx sock ret records) (Cleared live) := by
  unfold conversing ownedByAll
  rw [← add_assoc, ← add_assoc]
  refine Ledger.leaves_release (fun _ => releases_eq rfl) (fun _ => rfl) fun _ => ?_
  refine Ledger.Leaves.bind (leaves_freeRecord .init) ?_
  rintro _ _ ⟨rfl, init, noInit, rfl⟩
  refine Ledger.Leaves.bind (leaves_freeRecord .commitment) ?_
  rintro _ _ ⟨rfl, commitment, noCommitment, rfl⟩
  refine Ledger.Leaves.bind (leaves_freeRecord .proofs) ?_
  rintro _ _ ⟨rfl, proofs, noProofs, rfl⟩
  apply leaves_ctxCleanup
  intro name i
  cases name with
  | init => exact congrArg DataPortion.data (noInit i)
  | commitment => exact congrArg DataPortion.data (noCommitment i)
  | proofs => exact congrArg DataPortion.data (noProofs i)

theorem uses_overSsl_quiet {α : Type} (part : Part) (program : Ssl α) :
    (overSsl part program).Uses ClientCall.Quiet :=
  uses_overSsl (fun _ => trivial) program

theorem leaves_exchangeGreeting (ssl ctx : Nat) (sock : Int) (records : Records) :
    forgiving.Leaves valid (conversing live sock ctx ssl records)
      (exchangeGreeting ssl ctx sock records) (Cleared live) := by
  have cleans := fun ret => (leaves_cleanup ssl ctx sock ret records :
    forgiving.Leaves valid (conversing live sock ctx ssl records) _ _)
  refine leaves_quiet (uses_overSsl_quiet .greeting _) fun _ => ?_
  refine Ledger.Leaves.ite (fun _ => leaves_report _ (cleans _)) fun _ => ?_
  refine leaves_quiet (uses_overSsl_quiet .greeting _) fun _ => ?_
  refine Ledger.Leaves.ite (fun _ => leaves_report _ (cleans _)) fun _ => ?_
  exact leaves_quiet (uses_iterate (fun _ => trivial) ()) fun _ => cleans _

theorem leaves_sendResponses (ssl ctx : Nat) (sock ret : Int) (records : Records) :
    forgiving.Leaves valid (conversing live sock ctx ssl records)
      (sendResponses ssl ctx sock ret records) (Cleared live) := by
  have cleans := (leaves_cleanup ssl ctx sock ret records :
    forgiving.Leaves valid (conversing live sock ctx ssl records) _ _)
  refine leaves_quiet (uses_overSsl_quiet (.responding .init) _) fun _ => ?_
  refine Ledger.Leaves.ite (fun _ => leaves_report _ cleans) fun _ => ?_
  refine leaves_quiet (uses_overSsl_quiet (.responding .commitment) _) fun _ => ?_
  refine Ledger.Leaves.ite (fun _ => leaves_report _ cleans) fun _ => ?_
  refine leaves_quiet (uses_overSsl_quiet (.responding .proofs) _) fun _ => ?_
  refine Ledger.Leaves.ite (fun _ => leaves_report _ cleans) fun _ => ?_
  exact leaves_exchangeGreeting ssl ctx sock records

/-- A record that could not be initialised owns no block, if it owned none before. -/
theorem InitOutcome.live_eq {pattern : Fin dataPortions → UInt8} {live' : Multiset Resource}
    {record : FuncCall} {outcome : Int × FuncCall} (none : ∀ i, (record.dataP i).data = none)
    (outcomes : InitOutcome pattern live record (List.finRange dataPortions) outcome live') :
    live' = live + ownedBy outcome.2 := by
  rcases outcomes with ⟨_, same⟩ | ⟨_, same, i, _, rolledBack⟩
  · exact same
  · rw [same, ownedBy_eq_zero, add_zero]
    intro j
    rcases lt_trichotomy j i with ahead | rfl | behind
    · rw [rolledBack.earlier j ahead]
      rfl
    · rw [rolledBack.failing]
      rfl
    · rw [rolledBack.later j behind, none]

theorem blockOf_copyFrom (portion : DataPortion) (source : List UInt8) :
    blockOf (portion.copyFrom source) = blockOf portion := by
  unfold blockOf DataPortion.copyFrom
  rw [Option.map_map]
  rfl

/-- Copies into the portions leave every block where it is. -/
theorem blockOf_setData (record : FuncCall) (i : Fin dataPortions) (source : List UInt8)
    (j : Fin dataPortions) :
    blockOf ((record.setData i source).dataP j) = blockOf (record.dataP j) := by
  by_cases same : j = i
  · rw [same, FuncCall.dataP_setData_self, blockOf_copyFrom]
  · rw [FuncCall.dataP_setData_of_ne same]

theorem ownedBy_of_recChallenge {record received : FuncCall} {events : List SslEvent} {code : Int}
    (runs : Runs (recChallenge record) events (.done (code, received))) :
    ownedBy received = ownedBy record := by
  apply owned_congr
  intro i _
  exact recChallenge_keeps (fun received => ∀ i, blockOf (received.dataP i) = blockOf (record.dataP i))
    (fun _ j source same i => (blockOf_setData _ j source i).trans (same i)) (fun _ _ same => same) (fun _ => rfl) runs i

theorem leaves_receiveInto {name : CallName} (func : UInt32) (pattern : Fin dataPortions → UInt8)
    (none : ∀ i, ((records name).dataP i).data = none) :
    forgiving.Leaves valid live (receiveInto records name func pattern) fun records' live' =>
      ∃ record, records' = Function.update records name record ∧ live' = live + ownedBy record := by
  have initialises : forgiving.Leaves valid (live + owned { records name with func } [])
      (initFunc (records name) func pattern) _ :=
    leaves_initPortions pattern live { records name with func } (List.nil_append _)
  rw [owned_nil, add_zero] at initialises
  refine Ledger.Leaves.bind initialises ?_
  rintro ⟨code, record⟩ _ outcome
  have kept : ∀ i, (FuncCall.dataP { records name with func } i).data = .none := none
  obtain rfl := outcome.live_eq kept
  refine leaves_quiet (uses_reportIf trivial) fun _ => ?_
  refine Ledger.Leaves.bind (Ledger.leaves_neutral (uses_overSsl_quiet (.receiving name) _)
    fun _ answer quiet => neutral_of_quiet quiet answer) ?_
  rintro ⟨code', received⟩ _ ⟨rfl, events, runs, _⟩
  refine leaves_quiet (uses_reportIf trivial) fun _ => ?_
  refine Ledger.leaves_done ⟨received, rfl, ?_⟩
  rw [ownedBy_of_recChallenge (Runs.of_overSsl runs).1]

theorem leaves_receiveAll (bare : Bare records) :
    forgiving.Leaves valid live (receiveAll records) fun records' live' =>
      live' = live + ownedByAll records' := by
  refine Ledger.Leaves.bind (leaves_receiveInto _ _ (bare .init)) ?_
  rintro _ _ ⟨init, rfl, rfl⟩
  refine Ledger.Leaves.bind (leaves_receiveInto _ _ (bare .commitment)) ?_
  rintro _ _ ⟨commitment, rfl, rfl⟩
  refine Ledger.Leaves.mono (leaves_receiveInto _ _ (bare .proofs)) ?_
  rintro _ _ ⟨proofs, rfl, rfl⟩
  have whole : ownedByAll (Function.update (Function.update (Function.update records .init init)
      .commitment commitment) .proofs proofs) =
      ownedBy proofs + ownedBy commitment + ownedBy init := rfl
  rw [whole]
  abel

/-- The memory of `challenge_puf` holds its records where they were. -/
def SameBlocks (records : Records) (own : Own) : Prop :=
  ∀ name i, blockOf ((own.record name).dataP i) = blockOf ((records name).dataP i)

theorem kept_sameBlocks (records : Records) : Kept (SameBlocks records) where
  res := fun _ _ holds => holds
  sessionId := fun _ _ holds => holds
  sessionArg := fun _ _ _ holds => holds
  copy := by
    intro own call i source copies holds name j
    dsimp only
    by_cases same : name = call
    · subst same
      rw [Function.update_self, blockOf_setData]
      exact holds name j
    · rw [Function.update_of_ne same]
      exact holds name j

theorem ownedByAll_of_teeOutcome {zephyr : Zephyr} {asked : Records} {outcome : Int × Records}
    (possible : TeeOutcome zephyr asked outcome) : ownedByAll outcome.2 = ownedByAll asked := by
  obtain ⟨code, answered⟩ := outcome
  obtain ⟨own, shared, client, _, rfl, reaches, _, rfl⟩ := possible
  have same : SameBlocks own.record client.own :=
    Interaction.Client.keeps_of_reaches (fun _ _ => rfl)
      (keeps_challengePuf (kept_sameBlocks own.record) zephyr) reaches
  have each : ∀ name, ownedBy (client.own.record name) = ownedBy (own.record name) := fun name =>
    owned_congr fun i _ => same name i
  rw [ownedByAll, ownedByAll, each, each, each]

theorem leaves_converse {zephyr : Zephyr} (ssl ctx : Nat) (sock ret : Int) (bare : Bare records) :
    forgiving.Leaves (fun event => Valid zephyr event.1 event.2)
      (withContext live sock ctx + {.object ssl}) (converse ssl ctx sock ret records)
      (Cleared live) := by
  refine Ledger.Leaves.bind (leaves_receiveAll bare) ?_
  rintro asked _ rfl
  refine Ledger.leaves_acquire (fun _ => releases_eq rfl) fun outcome possible => ?_
  have held : withContext live sock ctx + {.object ssl} + ownedByAll asked +
      forgiving.acquires ⟨.challengePuf asked, outcome⟩ =
      conversing live sock ctx ssl outcome.2 := by
    rw [show forgiving.acquires ⟨.challengePuf asked, outcome⟩ = 0 from rfl, add_zero, conversing,
      ownedByAll_of_teeOutcome possible, add_right_comm]
  rw [held]
  exact leaves_sendResponses ssl ctx sock ret outcome.2

theorem releases_connect (sock ret : Int) :
    forgiving.releases ⟨.connect sock, ret⟩ = if ret = -1 then socketOf sock else 0 :=
  zero_add _

theorem acquires_wolfsslInit (ret : Int) : forgiving.acquires ⟨.wolfsslInit, ret⟩ = libraryOf ret :=
  rfl

theorem leaves_testSocketConnection {zephyr : Zephyr} (bare : Bare records) :
    forgiving.Leaves (fun event => Valid zephyr event.1 event.2) live
      (testSocketConnection records) (Cleared live) := by
  unfold testSocketConnection
  refine Ledger.leaves_acquire (fun _ => releases_eq rfl) fun sock _ => ?_
  refine leaves_quiet (uses_reportIf trivial) fun _ => ?_
  refine leaves_quiet (uses_perform trivial) fun _ => ?_
  refine leaves_quiet (uses_reportIf trivial) fun _ => ?_
  -- A connection that fails loses the socket.
  refine Ledger.leaves_call fun ret _ => ?_
  rw [releases_connect, show forgiving.acquires ⟨.connect sock, ret⟩ = 0 from rfl]
  by_cases failed : ret = -1
  · refine ⟨live, by rw [if_pos failed]; rfl, ?_⟩
    rw [if_pos failed, add_zero]
    exact leaves_report _ (Ledger.leaves_done ⟨rfl, bare⟩)
  refine ⟨live + socketOf sock, by rw [if_neg failed, add_zero]; rfl, ?_⟩
  rw [if_neg failed, add_zero]
  have closes := fun ret => (leaves_socketCleanup sock ret bare :
    forgiving.Leaves (fun event => Valid zephyr event.1 event.2) _ _ (Cleared live))
  refine Ledger.leaves_acquire (fun _ => releases_eq rfl) fun ret _ => ?_
  rw [acquires_wolfsslInit]
  refine Ledger.Leaves.ite (fun failed => ?_) fun fine => ?_
  · rw [libraryOf, if_neg failed, add_zero]
    exact leaves_report _ (closes ret)
  rw [libraryOf, if_pos (not_not.mp fine)]
  -- Without a context the reference to the library is lost.
  refine Ledger.leaves_call fun ctx _ => ?_
  cases ctx with
  | none =>
      refine ⟨live + socketOf sock, rfl, ?_⟩
      rw [show forgiving.acquires ⟨.ctxNew, none⟩ = 0 from rfl, add_zero]
      exact leaves_report _ (closes (-1))
  | some ctx =>
      have cleans := fun ret => (leaves_ctxCleanup ctx sock ret bare :
        forgiving.Leaves (fun event => Valid zephyr event.1 event.2) _ _ (Cleared live))
      refine ⟨live + socketOf sock + {.library}, (add_zero _).symm, ?_⟩
      refine leaves_quiet (uses_perform trivial) fun _ => ?_
      refine Ledger.Leaves.ite (fun _ => leaves_report _ (cleans _)) fun _ => ?_
      refine leaves_quiet (uses_perform trivial) fun _ => ?_
      refine Ledger.Leaves.ite (fun _ => leaves_report _ (cleans _)) fun _ => ?_
      refine leaves_quiet (uses_perform trivial) fun _ => ?_
      refine Ledger.Leaves.ite (fun _ => leaves_report _ (cleans _)) fun _ => ?_
      refine leaves_quiet (uses_perform trivial) fun _ => ?_
      refine Ledger.Leaves.ite (fun _ => leaves_report _ (cleans _)) fun _ => ?_
      refine leaves_quiet (uses_perform trivial) fun _ => ?_
      refine Ledger.leaves_acquire (fun _ => releases_eq rfl) fun ssl _ => ?_
      cases ssl with
      | none =>
          rw [show forgiving.acquires ⟨.sslNew ctx, none⟩ = 0 from rfl, add_zero]
          exact leaves_report _ (cleans (-1))
      | some ssl =>
          have cleans := fun ret => (leaves_cleanup ssl ctx sock ret records :
            forgiving.Leaves (fun event => Valid zephyr event.1 event.2) _ _ (Cleared live))
          rw [conversing, ownedByAll_eq_zero bare, add_zero] at cleans
          refine leaves_quiet (uses_perform trivial) fun _ => ?_
          refine Ledger.Leaves.ite (fun _ => leaves_report _ (cleans _)) fun _ => ?_
          refine leaves_quiet (uses_perform trivial) fun _ => ?_
          refine Ledger.Leaves.ite (fun _ => leaves_report _ (cleans _)) fun _ => ?_
          exact leaves_converse ssl ctx sock _ bare

end Labels

theorem settles_testSocketConnection {zephyr : Zephyr} {records records' : Records} {ret : Int}
    {events : List ClientEvent} (bare : Bare records) (valid : ValidRun zephyr events)
    (runs : Runs (testSocketConnection records) events (.done (ret, records')))
    (live : Multiset Resource) : forgiving.Settles live events live ∧ Bare records' := by
  obtain ⟨_, settles, rfl, bare'⟩ := leaves_testSocketConnection bare runs valid
  exact ⟨settles, bare'⟩

/-- Whole runs one after the other, each with the records the one before it left. -/
inductive Connections (zephyr : Zephyr) : Records → List (List ClientEvent) → Records → Prop where
  | nil (records : Records) : Connections zephyr records [] records
  | cons {records records' records'' : Records} {ret : Int} {events : List ClientEvent}
      {later : List (List ClientEvent)} :
      Runs (testSocketConnection records) events (.done (ret, records')) →
      ValidRun zephyr events → Connections zephyr records' later records'' →
      Connections zephyr records (events :: later) records''

/-- Every call releases only what is live, and returns with what was live before it. -/
def Balanced (live : Multiset Resource) (calls : List (List ClientEvent)) : Prop :=
  ∀ events ∈ calls, resources.Settles live events live

/-- No open socket failed to connect, and there was a context. -/
def ReachesContext (events : List ClientEvent) : Prop :=
  (∀ sock, 0 ≤ sock → ⟨.connect sock, (-1 : Int)⟩ ∉ events) ∧ ⟨.ctxNew, (none : Option Nat)⟩ ∉ events

theorem reachesContext_iff {events : List ClientEvent} :
    ReachesContext events ↔ ∀ event ∈ events, leaked event = 0 := by
  constructor
  · rintro ⟨connects, context⟩ ⟨operation, answer⟩ member
    cases operation with
    | connect sock =>
        show (if answer = -1 then socketOf sock else 0) = 0
        split
        next failed =>
          subst failed
          exact if_neg fun opened => connects sock opened member
        next => rfl
    | ctxNew =>
        cases answer with
        | none => exact absurd member context
        | some ctx => rfl
    | _ => rfl
  · intro none
    constructor
    · intro sock opened member
      have lost : socketOf sock = 0 := none _ member
      rw [socketOf, if_pos opened] at lost
      exact Multiset.singleton_ne_zero _ lost
    · intro member
      exact Multiset.singleton_ne_zero _ (none _ member)

/-- Calls are balanced exactly when no open socket fails to connect and no
context fails to be made. -/
theorem connectionsBalanced_iff {zephyr : Zephyr} {records records' : Records}
    {calls : List (List ClientEvent)} (bare : Bare records)
    (connections : Connections zephyr records calls records') (live : Multiset Resource) :
    Balanced live calls ↔ ∀ events ∈ calls, ReachesContext events := by
  induction connections with
  | nil => simp only [Balanced, List.not_mem_nil, false_implies, implies_true]
  | cons runs valid _ ih =>
      obtain ⟨settles, bare'⟩ := settles_testSocketConnection bare valid runs live
      rw [Balanced, List.forall_mem_cons, List.forall_mem_cons, settles.balanced_iff,
        reachesContext_iff]
      exact and_congr_right fun _ => ih bare'

theorem bare_bootRecords : Bare bootRecords :=
  fun _ _ => rfl

/-- The server does not accept the connection. -/
def refused : List ClientEvent :=
  [⟨.socket, (3 : Int)⟩, ⟨.inetPton, (1 : Int)⟩, ⟨.connect 3, (-1 : Int)⟩, ⟨.report .connect, ()⟩]

theorem runs_refused {records : Records} :
    Runs (testSocketConnection records) refused (.done (-1, records)) :=
  .call _ rfl (.call _ rfl (.call _ rfl (.call _ rfl (.stop _))))

theorem valid_refused : ValidRun zephyrOfImage refused := by
  simp [ValidRun, refused, Valid]

theorem leaked_of_late {event : ClientEvent} (late : event.1.Late) : leaked event = 0 := by
  obtain ⟨operation, answer⟩ := event
  cases operation with
  | connect | ctxNew => exact late.elim
  | _ => rfl

theorem leaked_garbledRun : ∀ event ∈ garbledRun.1, leaked event = 0 := by
  decide +kernel

theorem acquired_garbledRun :
    ∀ resource ∈ [Resource.socket 3, .library, .context 0x20000100, .object 0x20000200,
      .block 0x20001000], ∃ event ∈ garbledRun.1, resource ∈ acquired event := by
  decide +kernel

/-- A connection that goes as far as the responses has acquired resources of all five
kinds, and its return is balanced. The return of one that is refused behind it is not. -/
theorem connectionsBalanced_iff_garbled :
    ∃ asked answered later result,
      let whole := garbledRun.1 ++ ([⟨.challengePuf asked, (0, answered)⟩] ++ later)
      Connections zephyrOfImage bootRecords [whole, refused] result ∧
      (∀ resource ∈ [Resource.socket 3, .library, .context 0x20000100, .object 0x20000200,
        .block 0x20001000], ∃ event ∈ whole, resource ∈ resources.acquires event) ∧
      Balanced 0 [whole] ∧ ¬ Balanced 0 [whole, refused] := by
  obtain ⟨asked, resume, asks⟩ := garbledRun_asks
  obtain ⟨answered, possible⟩ := exists_teeOutcome asked
  have arrives : Runs (testSocketConnection bootRecords) garbledRun.1 garbledRun.2 :=
    runs_serveFirst _ _
  have answers : Runs garbledRun.2 [⟨.challengePuf asked, (0, answered)⟩] (resume (0, answered)) :=
    .call (0, answered) asks (.stop _)
  obtain ⟨_, ssl, ctx, sock, ret, responds⟩ := runs_asked (arrives.append answers)
  obtain ⟨later, ⟨code, result⟩, ends, fine⟩ := exists_cleanedUp ssl ctx sock ret answered
  have runs := arrives.append (answers.append (responds ▸ ends))
  have valid := validRun_answered (valid_garbledRun zephyrOfImage) possible (fine zephyrOfImage)
  have second : Connections zephyrOfImage result [refused] result :=
    .cons runs_refused valid_refused (.nil _)
  refine ⟨asked, answered, later, result, .cons runs valid second, ?_, ?_, ?_⟩
  · intro resource member
    obtain ⟨event, inside, acquires⟩ := acquired_garbledRun resource member
    exact ⟨event, List.mem_append_left _ inside, acquires⟩
  · rw [connectionsBalanced_iff bare_bootRecords (.cons runs valid (.nil _))]
    intro events here
    rw [List.mem_singleton.mp here, reachesContext_iff]
    intro event member
    rcases List.mem_append.mp member with ahead | behind
    · exact leaked_garbledRun event ahead
    · rcases List.mem_append.mp behind with here | beyond
      · rw [List.mem_singleton.mp here]
        rfl
      · exact leaked_of_late (uses_sendResponses ssl ctx sock ret answered ends event beyond)
  · rw [connectionsBalanced_iff bare_bootRecords (.cons runs valid second)]
    intro reach
    have connects := (reach refused (by simp)).1
    exact connects 3 (by decide) (by simp [refused])

theorem not_connectionsBalanced_refused :
    ¬ ∀ zephyr calls records' live, Connections zephyr bootRecords calls records' →
      Balanced live calls := by
  intro always
  have balanced := always zephyrOfImage [refused] bootRecords 0
    (.cons runs_refused valid_refused (.nil _)) refused List.mem_cons_self
  obtain ⟨settles, _⟩ := settles_testSocketConnection bare_bootRecords valid_refused runs_refused 0
  have none := settles.balanced_iff.mp balanced ⟨.connect 3, (-1 : Int)⟩ (by simp [refused])
  exact Multiset.singleton_ne_zero _ none

end Uc1Integration.TlsClient
