import Uc1Integration.TlsClient.Allocation
import Uc1Integration.TlsClient.SocketConnection

/-!
# Phases of a connection

Every run of `test_socket_connection` sets the connection up, receives the three
challenges, asks the TEE, and answers the server, as far as it gets.
-/

set_option autoImplicit false

namespace Uc1Integration.TlsClient

open Interaction Transport Tee Program

theorem uses_freeRecord (records : Records) (name : CallName) :
    Uses (fun operation => ∃ address, operation = .free address) (freeRecord records name) :=
  Uses.bind (uses_freePortions _ _) fun _ => uses_done _

theorem uses_cleanup (ssl ctx : Nat) (sock ret : Int) (records : Records) :
    Uses ClientCall.Closing (cleanup ssl ctx sock ret records) := by
  have frees : ∀ records name, Uses ClientCall.Closing (freeRecord records name) := by
    intro records name
    refine (uses_freeRecord records name).mono ?_
    rintro _ ⟨address, rfl⟩
    trivial
  refine Uses.bind (uses_perform trivial) fun _ => ?_
  refine Uses.bind (frees _ _) fun _ => Uses.bind (frees _ _) fun _ => Uses.bind (frees _ _) fun _ => ?_
  exact Uses.bind (uses_perform trivial) fun _ => Uses.bind (uses_perform trivial) fun _ =>
    Uses.bind (uses_perform trivial) fun _ => uses_done _

theorem uses_ctxCleanup (ctx : Nat) (sock ret : Int) (records : Records) :
    Uses ClientCall.Early (ctxCleanup ctx sock ret records) :=
  Uses.bind (uses_perform trivial) fun _ => Uses.bind (uses_perform trivial) fun _ =>
    Uses.bind (uses_perform trivial) fun _ => uses_done _

theorem uses_socketCleanup (sock ret : Int) (records : Records) :
    Uses ClientCall.Early (socketCleanup sock ret records) :=
  Uses.bind (uses_perform trivial) fun _ => uses_done _

theorem ClientCall.Closing.early {operation : ClientCall} (closing : operation.Closing) :
    operation.Early := by
  cases operation with
  | sslFree | free | ctxFree | wolfsslCleanup | close => trivial
  | _ => exact closing.elim

theorem ClientCall.Closing.late {operation : ClientCall} (closing : operation.Closing) :
    operation.Late := by
  cases operation with
  | sslFree | free | ctxFree | wolfsslCleanup | close => trivial
  | _ => exact closing.elim

/-- A program of the conversation with the server. -/
def IsConverse (records : Records) (program : Client (Int × Records)) : Prop :=
  ∃ ssl ctx sock ret, program = converse ssl ctx sock ret records

theorem passes_report {failure : Failure} {records : Records} {rest : Client (Int × Records)}
    (early : ClientCall.Early (.report failure)) (uses : Uses ClientCall.Early rest) :
    Passes ClientCall.Early (IsConverse records) ((report failure).bind fun _ => rest) :=
  .bind (uses_perform early) fun _ => .of_uses uses

theorem uses_reportIf {allowed : ClientCall → Prop} {condition : Prop} [Decidable condition]
    {failure : Failure} (permitted : allowed (.report failure)) :
    Uses allowed (reportIf condition failure) :=
  .ite (uses_perform permitted) (uses_done ())

theorem passes_testSocketConnection (records : Records) :
    Passes ClientCall.Early (IsConverse records) (testSocketConnection records) := by
  unfold testSocketConnection
  refine .bind (uses_perform trivial) fun sock => ?_
  refine .bind (uses_reportIf trivial) fun _ => ?_
  refine .bind (uses_perform trivial) fun _ => ?_
  refine .bind (uses_reportIf trivial) fun _ => ?_
  refine .bind (uses_perform trivial) fun _ => ?_
  refine .ite (passes_report trivial (uses_done _)) ?_
  refine .bind (uses_perform trivial) fun _ => ?_
  refine .ite (passes_report trivial (uses_socketCleanup _ _ _)) ?_
  refine .bind (uses_perform trivial) fun ctx => ?_
  cases ctx with
  | none => exact passes_report trivial (uses_socketCleanup _ _ _)
  | some ctx =>
      have cleans := fun sock ret => uses_ctxCleanup ctx sock ret records
      refine .bind (uses_perform trivial) fun _ => .ite (passes_report trivial (cleans _ _)) ?_
      refine .bind (uses_perform trivial) fun _ => .ite (passes_report trivial (cleans _ _)) ?_
      refine .bind (uses_perform trivial) fun _ => .ite (passes_report trivial (cleans _ _)) ?_
      refine .bind (uses_perform trivial) fun _ => .ite (passes_report trivial (cleans _ _)) ?_
      refine .bind (uses_perform trivial) fun _ => ?_
      refine .bind (uses_perform trivial) fun ssl => ?_
      cases ssl with
      | none => exact passes_report trivial (cleans _ _)
      | some ssl =>
          have cleans := fun sock ret =>
            (uses_cleanup ssl ctx sock ret records).mono fun _ => ClientCall.Closing.early
          refine .bind (uses_perform trivial) fun _ => .ite (passes_report trivial (cleans _ _)) ?_
          refine .bind (uses_perform trivial) fun _ => .ite (passes_report trivial (cleans _ _)) ?_
          exact .of_target ⟨_, _, _, _, rfl⟩

/-- The record of a call as `initFunc` leaves it when it succeeds. -/
def Initialised (name : CallName) (record : FuncCall) : Prop :=
  ∀ i, (record.dataP i).liveLen = some (name.pattern i)

/-- The server sent a challenge that a record of this call can receive. -/
def Accepted (name : CallName) (transfers : List SslEvent) : Prop :=
  ∃ record received, Initialised name record ∧
    Runs (recChallenge record) transfers (.done (0, received))

theorem Accepted.code_eq {name : CallName} {transfers : List SslEvent} {record received : FuncCall}
    {code : Int} (accepted : Accepted name transfers) (initialised : Initialised name record)
    (runs : Runs (recChallenge record) transfers (.done (code, received))) : code = 0 := by
  obtain ⟨other, _, shape, accepts⟩ := accepted
  have one := runs.bind fun result => Program.done result.1
  have two := accepts.bind fun result => Program.done result.1
  rw [recChallenge_code fun i => (initialised i).trans (shape i).symm] at one
  have same := one.deterministic two
  cases same
  rfl

theorem CallName.pattern_pos (name : CallName) (i : Fin dataPortions) : 0 < name.pattern i := by
  revert i
  cases name <;> decide

/-- What the events of one challenge say about its record. -/
structure Phase (name : CallName) (events : List ClientEvent) (received : FuncCall) : Prop where
  calls : ∀ event ∈ events, event.1.Receiving name
  allocation : .allocation name ∉ failures events ↔ none ∉ mallocs events
  reception : .reception name ∉ failures events →
    ∃ record, Runs (recChallenge record) (transfers (.receiving name) events) (.done (0, received))
  accepted : none ∉ mallocs events →
    (.reception name ∉ failures events ↔ Accepted name (transfers (.receiving name) events))

/-- The report of a failure, if there was one. -/
def reported (code : Int) (failure : Failure) : List ClientEvent :=
  if code ≠ 0 then [⟨.report failure, ()⟩] else []

theorem Runs.of_reportIf {code : Int} {failure : Failure} {events : List ClientEvent} {value : Unit}
    (runs : Runs (reportIf (code ≠ 0) failure) events (.done value)) :
    events = reported code failure := by
  unfold reportIf at runs
  unfold reported
  split at runs
  next wrong =>
    rw [if_pos wrong]
    exact runs.of_perform
  next fine =>
    rw [if_neg fine]
    exact runs.of_done.1

theorem failures_reported (code : Int) (failure : Failure) :
    failures (reported code failure) = if code = 0 then [] else [failure] := by
  unfold reported
  by_cases fine : code = 0 <;> simp [fine, failures, failureOf]

theorem mallocs_reported (code : Int) (failure : Failure) :
    mallocs (reported code failure) = [] := by
  unfold reported
  split <;> rfl

theorem transfers_reported (part : Part) (code : Int) (failure : Failure) :
    transfers part (reported code failure) = [] := by
  unfold reported
  split <;> rfl

theorem uses_overSsl {α : Type} {allowed : ClientCall → Prop} {part : Part}
    (permitted : ∀ call, allowed (.stream part call)) (program : Ssl α) :
    Uses allowed (overSsl part program) :=
  uses_lift permitted program

theorem Runs.of_overSsl {α : Type} {part : Part} {program : Ssl α} {events : List ClientEvent}
    {value : α} (runs : Runs (overSsl part program) events (.done value)) :
    Runs program (transfers part events) (.done value) ∧ failures events = [] ∧
      mallocs events = [] := by
  obtain ⟨original, last, onward, finished, renamed⟩ :=
    Runs.of_lift (ClientCall.stream part) (fun _ answer => answer) (fun _ answer => answer)
      (fun _ _ => rfl) runs
  have mapped : events = original.map (SslEvent.over part) := renamed
  rw [mapped, transfers_over, failures_over, mallocs_over, ← result_lift finished.symm]
  exact ⟨onward, rfl, rfl⟩

theorem uses_receiveInto (records : Records) (name : CallName) (func : UInt32)
    (pattern : Fin dataPortions → UInt8) :
    Uses (ClientCall.Receiving name) (receiveInto records name func pattern) := by
  refine Uses.bind ((uses_initPortions _ _ _).mono ?_) fun result => ?_
  · intro operation allocates
    cases operation with
    | malloc | free => trivial
    | _ => exact allocates.elim
  · refine Uses.bind (uses_reportIf (.inl rfl)) fun _ => ?_
    refine Uses.bind (uses_overSsl (fun _ => rfl) _) fun result => ?_
    exact Uses.bind (uses_reportIf (.inr rfl)) fun _ => uses_done _

theorem phase_of_receiveInto {records records' : Records} {name : CallName}
    {events : List ClientEvent}
    (runs : Runs (receiveInto records name name.func name.pattern) events (.done records')) :
    ∃ received, records' = Function.update records name received ∧ Phase name events received := by
  have calls := uses_receiveInto _ _ _ _ runs
  obtain ⟨⟨code, record⟩, first, _, rfl, allocates, onward⟩ := Runs.of_bind_done runs
  obtain ⟨_, second, _, rfl, warned, onward⟩ := Runs.of_bind_done onward
  obtain ⟨⟨code', received⟩, third, _, rfl, receives, onward⟩ := Runs.of_bind_done onward
  obtain ⟨_, fourth, _, rfl, warned', onward⟩ := Runs.of_bind_done onward
  obtain ⟨rfl, same⟩ := onward.of_done
  cases same
  have quiet : failures first = [] := by
    rw [List.eq_nil_iff_forall_not_mem]
    intro failure
    exact not_mem_failures (uses_initPortions _ _ _ allocates) id
  have silent : transfers (.receiving name) first = [] :=
    transfers_eq_nil (uses_initPortions _ _ _ allocates) fun _ => id
  obtain ⟨reception, quiet', unallocated⟩ := Runs.of_overSsl receives
  rw [Runs.of_reportIf warned, Runs.of_reportIf warned'] at calls ⊢
  have seen : transfers (.receiving name) (first ++ (reported code (.allocation name) ++
      (third ++ (reported code' (.reception name) ++ [])))) = transfers (.receiving name) third := by
    simp [silent, transfers_reported]
  have allocated : mallocs (first ++ (reported code (.allocation name) ++
      (third ++ (reported code' (.reception name) ++ [])))) = mallocs first := by
    simp [mallocs_reported, unallocated]
  have logged : failures (first ++ (reported code (.allocation name) ++
      (third ++ (reported code' (.reception name) ++ [])))) =
      (if code = 0 then [] else [.allocation name]) ++
        if code' = 0 then [] else [.reception name] := by
    simp [quiet, quiet', failures_reported]
  refine ⟨received, rfl, calls, ?_, ?_, ?_⟩
  · rw [allocated, logged, ← initPortions_code allocates]
    by_cases fine : code = 0 <;> by_cases fine' : code' = 0 <;> simp [fine, fine']
  · intro accepted
    have fine : code' = 0 := by
      by_contra wrong
      rw [logged, if_neg wrong] at accepted
      simp at accepted
    rw [fine] at reception
    rw [seen]
    exact ⟨record, reception⟩
  · intro enough
    rw [allocated, ← initPortions_code allocates] at enough
    rw [seen, logged, if_pos enough]
    rw [enough] at allocates
    have initialised : Initialised name record := fun i =>
      liveLen_of_initPortions (List.nodup_finRange dataPortions) allocates (List.mem_finRange i)
        (CallName.pattern_pos name i)
    constructor
    · intro accepted
      have fine : code' = 0 := by
        by_contra wrong
        rw [if_neg wrong] at accepted
        simp at accepted
      rw [fine] at reception
      exact ⟨record, received, initialised, reception⟩
    · intro accepted
      rw [accepted.code_eq initialised reception]
      simp

/-- What the events up to the exchange with the TEE say about the records. -/
structure Challenged (events : List ClientEvent) (records : Records) : Prop where
  calls : ∀ event ∈ events, event.1.BeforeTee
  allocation : (∀ name, .allocation name ∉ failures events) ↔ none ∉ mallocs events
  reception : ∀ name, .reception name ∉ failures events →
    ∃ record, Runs (recChallenge record) (transfers (.receiving name) events)
      (.done (0, records name))
  accepted : none ∉ mallocs events → ∀ name,
    (.reception name ∉ failures events ↔ Accepted name (transfers (.receiving name) events))

theorem phases_of_receiveAll {records records' : Records} {events : List ClientEvent}
    (runs : Runs (receiveAll records) events (.done records')) :
    ∃ part : CallName → List ClientEvent,
      events = part .init ++ (part .commitment ++ part .proofs) ∧
        ∀ name, Phase name (part name) (records' name) := by
  obtain ⟨afterInit, init, _, rfl, one, onward⟩ := Runs.of_bind_done runs
  obtain ⟨afterCommitment, commitment, proofs, rfl, two, three⟩ := Runs.of_bind_done onward
  have initPhase := phase_of_receiveInto (show Runs (receiveInto records .init _ _) _ _ from one)
  have commitmentPhase :=
    phase_of_receiveInto (show Runs (receiveInto afterInit .commitment _ _) _ _ from two)
  have proofsPhase :=
    phase_of_receiveInto (show Runs (receiveInto afterCommitment .proofs _ _) _ _ from three)
  obtain ⟨first, rfl, initPhase⟩ := initPhase
  obtain ⟨second, rfl, commitmentPhase⟩ := commitmentPhase
  obtain ⟨third, rfl, proofsPhase⟩ := proofsPhase
  refine ⟨CallName.rec init commitment proofs, rfl, ?_⟩
  intro name
  cases name with
  | init => exact initPhase
  | commitment => exact commitmentPhase
  | proofs => exact proofsPhase

/-- A transfer or a report of one call is in the events of that call only. -/
theorem Phase.foreign {name other : CallName} {events : List ClientEvent} {received : FuncCall}
    (phase : Phase other events received) (different : other ≠ name) :
    transfers (.receiving name) events = [] ∧
      .allocation name ∉ failures events ∧ .reception name ∉ failures events := by
  refine ⟨transfers_eq_nil phase.calls ?_, not_mem_failures phase.calls ?_,
    not_mem_failures phase.calls ?_⟩
  · intro call same
    cases same
    exact different rfl
  · intro same
    cases same with
    | inl here =>
        cases here
        exact different rfl
    | inr here => cases here
  · intro same
    cases same with
    | inl here => cases here
    | inr here =>
        cases here
        exact different rfl

theorem own_of_phases {part : CallName → List ClientEvent} {records : Records}
    (phases : ∀ name, Phase name (part name) (records name)) (name : CallName) :
    transfers (.receiving name) (part .init ++ (part .commitment ++ part .proofs)) =
        transfers (.receiving name) (part name) ∧
      (.allocation name ∈ failures (part .init ++ (part .commitment ++ part .proofs)) ↔
        .allocation name ∈ failures (part name)) ∧
      (.reception name ∈ failures (part .init ++ (part .commitment ++ part .proofs)) ↔
        .reception name ∈ failures (part name)) := by
  have foreign := fun other (different : other ≠ name) => (phases other).foreign different
  simp only [transfers_append, failures_append, List.mem_append]
  cases name with
  | init => simp [foreign .commitment nofun, foreign .proofs nofun]
  | commitment => simp [foreign .init nofun, foreign .proofs nofun]
  | proofs => simp [foreign .init nofun, foreign .commitment nofun]

theorem challenged_of_receiveAll {records records' : Records} {events : List ClientEvent}
    (runs : Runs (receiveAll records) events (.done records')) : Challenged events records' := by
  obtain ⟨part, rfl, phases⟩ := phases_of_receiveAll runs
  have own := own_of_phases phases
  have allocated : none ∉ mallocs (part .init ++ (part .commitment ++ part .proofs)) ↔
      ∀ name, none ∉ mallocs (part name) := by
    simp only [mallocs_append, List.mem_append, not_or]
    constructor
    · intro each name
      cases name with
      | init => exact each.1
      | commitment => exact each.2.1
      | proofs => exact each.2.2
    · exact fun each => ⟨each .init, each .commitment, each .proofs⟩
  constructor
  · intro event member
    right
    simp only [List.mem_append] at member
    obtain inside | inside | inside := member
    all_goals exact ⟨_, (phases _).calls event inside⟩
  · rw [allocated]
    constructor
    · intro none name
      rw [← (phases name).allocation, ← (own name).2.1]
      exact none name
    · intro each name
      rw [(own name).2.1, (phases name).allocation]
      exact each name
  · intro name
    rw [(own name).2.2, (own name).1]
    exact (phases name).reception
  · intro enough name
    rw [(own name).2.2, (own name).1]
    exact (phases name).accepted (allocated.mp enough name)

/-- The connection's set-up changes nothing about the challenges. -/
theorem Challenged.prepend {before events : List ClientEvent} {records : Records}
    (challenged : Challenged events records) (early : ∀ event ∈ before, event.1.Early) :
    Challenged (before ++ events) records := by
  have mallocs : mallocs before = [] := mallocs_eq_nil early fun _ => id
  have transfers : ∀ part, transfers part before = [] := fun part =>
    transfers_eq_nil early fun _ => id
  have allocation : ∀ name, .allocation name ∉ failures before := fun name =>
    not_mem_failures early id
  have reception : ∀ name, .reception name ∉ failures before := fun name =>
    not_mem_failures early id
  obtain ⟨calls, allocations, receptions, accepted⟩ := challenged
  constructor
  · intro event member
    cases List.mem_append.mp member with
    | inl ahead => exact .inl (early event ahead)
    | inr behind => exact calls event behind
  · simpa [mallocs, allocation] using allocations
  · simpa [transfers, reception] using receptions
  · simpa [mallocs, transfers, reception] using accepted

theorem uses_exchangeGreeting (ssl ctx : Nat) (sock : Int) (records : Records) :
    Uses ClientCall.Late (exchangeGreeting ssl ctx sock records) := by
  have cleans : ∀ ret, Uses ClientCall.Late (cleanup ssl ctx sock ret records) := fun ret =>
    (uses_cleanup ssl ctx sock ret records).mono fun _ => ClientCall.Closing.late
  refine Uses.bind (uses_overSsl (fun _ => trivial) _) fun _ => ?_
  refine Uses.ite (Uses.bind (uses_perform trivial) fun _ => cleans _) ?_
  refine Uses.bind (uses_overSsl (fun _ => trivial) _) fun _ => ?_
  refine Uses.ite (Uses.bind (uses_perform trivial) fun _ => cleans _) ?_
  exact Uses.bind (uses_iterate (fun _ => trivial) _) fun _ => cleans _

theorem uses_sendResponses (ssl ctx : Nat) (sock ret : Int) (records : Records) :
    Uses ClientCall.Late (sendResponses ssl ctx sock ret records) := by
  have cleans : Uses ClientCall.Late (cleanup ssl ctx sock ret records) :=
    (uses_cleanup ssl ctx sock ret records).mono fun _ => ClientCall.Closing.late
  refine Uses.bind (uses_overSsl (fun _ => trivial) _) fun _ => ?_
  refine Uses.ite (Uses.bind (uses_perform trivial) fun _ => cleans) ?_
  refine Uses.bind (uses_overSsl (fun _ => trivial) _) fun _ => ?_
  refine Uses.ite (Uses.bind (uses_perform trivial) fun _ => cleans) ?_
  refine Uses.bind (uses_overSsl (fun _ => trivial) _) fun _ => ?_
  refine Uses.ite (Uses.bind (uses_perform trivial) fun _ => cleans) ?_
  exact uses_exchangeGreeting ssl ctx sock records

theorem uses_receiveAll (records : Records) :
    Uses ClientCall.BeforeTee (receiveAll records) := by
  have each : ∀ records name func pattern,
      Uses ClientCall.BeforeTee (receiveInto records name func pattern) :=
    fun records name func pattern =>
      (uses_receiveInto records name func pattern).mono fun _ receiving => .inr ⟨name, receiving⟩
  exact Uses.bind (each _ _ _ _) fun _ => Uses.bind (each _ _ _ _) fun _ => each _ _ _ _

/-- A run has not asked the TEE yet, or it asked once, with the records it had received. -/
theorem runs_testSocketConnection {records : Records} {events : List ClientEvent}
    {final : Client (Int × Records)} (runs : Runs (testSocketConnection records) events final) :
    (∀ event ∈ events, event.1.BeforeTee) ∨
      ∃ before asked outcome later, events = before ++ ⟨.challengePuf asked, outcome⟩ :: later ∧
        Challenged before asked ∧
        ∃ ssl ctx sock ret, Runs (sendResponses ssl ctx sock ret outcome.2) later final := by
  cases passes_testSocketConnection records runs with
  | inl early => exact .inl fun event member => .inl (early event member)
  | inr crossed =>
      obtain ⟨_, setUp, events, ⟨ssl, ctx, sock, ret, rfl⟩, rfl, early, onward⟩ := crossed
      cases onward.of_bind with
      | inl receiving =>
          obtain ⟨middle, within, _⟩ := receiving
          left
          intro event member
          cases List.mem_append.mp member with
          | inl ahead => exact .inl (early event ahead)
          | inr behind => exact uses_receiveAll _ within event behind
      | inr received =>
          obtain ⟨asked, first, rest, rfl, receives, asks⟩ := received
          have challenged := (challenged_of_receiveAll receives).prepend early
          cases asks.of_perform_bind with
          | inl waiting =>
              left
              rw [waiting, List.append_nil]
              exact challenged.calls
          | inr answered =>
              obtain ⟨outcome, later, rfl, responds⟩ := answered
              exact .inr ⟨setUp ++ first, asked, outcome, later, by simp, challenged,
                ssl, ctx, sock, ret, responds⟩

/-- Nothing that follows the exchange with the TEE is such an exchange. -/
theorem split_challenge {before first later : List ClientEvent} {event event' : ClientEvent}
    (asks : ¬ event.1.Late) (same : before ++ [event] = first ++ event' :: later)
    (late : ∀ event ∈ later, event.1.Late) : before = first ∧ event = event' ∧ later = [] := by
  cases List.eq_nil_or_concat later with
  | inl none =>
      rw [none] at same
      obtain ⟨ahead, here⟩ := List.append_inj' same rfl
      exact ⟨ahead, List.singleton_inj.mp here, none⟩
  | inr some =>
      obtain ⟨init, last, rfl⟩ := some
      have whole : before ++ [event] = (first ++ event' :: init) ++ [last] := by simp [same]
      obtain ⟨_, here⟩ := List.append_inj' whole rfl
      rw [List.singleton_inj.mp here] at asks
      exact absurd (late last (by simp)) asks

/-- A run that has just asked the TEE goes on to its responses. -/
theorem runs_asked {records asked : Records} {before : List ClientEvent}
    {outcome : Int × Records} {middle : Client (Int × Records)}
    (runs : Runs (testSocketConnection records) (before ++ [⟨.challengePuf asked, outcome⟩])
      middle) :
    Challenged before asked ∧
      ∃ ssl ctx sock ret, middle = sendResponses ssl ctx sock ret outcome.2 := by
  cases runs_testSocketConnection runs with
  | inl calls =>
      exact absurd (calls ⟨.challengePuf asked, outcome⟩ (by simp)) (not_beforeTee_challengePuf _)
  | inr crossed =>
      obtain ⟨first, asked', outcome', later, same, challenged, ssl, ctx, sock, ret, responds⟩ :=
        crossed
      obtain ⟨rfl, here, rfl⟩ :=
        split_challenge id same (uses_sendResponses ssl ctx sock ret outcome'.2 responds)
      cases here
      cases responds
      exact ⟨challenged, ssl, ctx, sock, ret, rfl⟩

end Uc1Integration.TlsClient
