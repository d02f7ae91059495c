import Uc1Integration.TlsClient.Server

/-!
# Responses after failures

A failure to allocate or to receive a challenge is logged, and what
`challenge_puf` returns is dropped; the client goes on to its responses all the
same.
-/

set_option autoImplicit false

namespace Uc1Integration.TlsClient

open Interaction Transport Tee Program

/-- Bytes of a response have been sent. -/
def Responded (events : List ClientEvent) : Prop :=
  ∃ name data count, 0 < count ∧
    (⟨.write data, .accepted count⟩ : SslEvent) ∈ transfers (.responding name) events

/-- No `initFunc` and no `recChallenge` has failed, and `challenge_puf` returned 0. -/
structure Succeeded (events : List ClientEvent) : Prop where
  allocations : ∀ name, .allocation name ∉ failures events
  receptions : ∀ name, .reception name ∉ failures events
  verdict : verdicts events = [0]

def RespondsAfterSuccess (events : List ClientEvent) : Prop :=
  Responded events → Succeeded events

/-- The inputs of a run up to the return of `challenge_puf`: every allocation
succeeds, the server sends three challenges the client can receive, and the
exchange with the TEE succeeds. -/
structure GoodInputs (before : List ClientEvent) (verdict : Int) : Prop where
  allocations : none ∉ mallocs before
  challenges : ∀ name, Accepted name (transfers (.receiving name) before)
  verdict : verdict = 0

theorem goodInputs_iff {before : List ClientEvent} {asked : Records}
    (challenged : Challenged before asked) (verdict : Int) :
    GoodInputs before verdict ↔
      (∀ name, .allocation name ∉ failures before) ∧ (∀ name, .reception name ∉ failures before) ∧
        verdict = 0 := by
  constructor
  · intro good
    exact ⟨challenged.allocation.mpr good.allocations,
      fun name => (challenged.accepted good.allocations name).mpr (good.challenges name),
      good.verdict⟩
  · intro fine
    obtain ⟨allocations, receptions, verdict⟩ := fine
    have enough := challenged.allocation.mp allocations
    exact ⟨enough, fun name => (challenged.accepted enough name).mp (receptions name), verdict⟩

theorem runs_sendResponses_write (ssl ctx : Nat) (sock ret : Int) (records : Records) :
    ∃ final, Runs (sendResponses ssl ctx sock ret records)
      [⟨.stream (.responding .init) (.write startSeq), .accepted 4⟩] final :=
  ⟨_, .call _ rfl (.stop _)⟩

theorem not_responded_of_beforeTee {events : List ClientEvent}
    (calls : ∀ event ∈ events, event.1.BeforeTee) : ¬ Responded events := by
  intro responded
  obtain ⟨name, data, count, _, member⟩ := responded
  obtain ⟨event, inside, call, same⟩ := mem_transfers member
  have before := calls event inside
  rw [same] at before
  cases before with
  | inl early => exact early
  | inr receiving =>
      obtain ⟨other, part⟩ := receiving
      cases part

/-- Before `challenge_puf` returns nothing is sent as a response. From there on
the client only responds after a success, however the run goes on, exactly when
its inputs were good. -/
theorem respondsAfterSuccess_iff (zephyr : Zephyr) (records : Records) :
    (∀ events final, Runs (testSocketConnection records) events final → verdicts events = [] →
      ¬ Responded events) ∧
    ∀ before asked outcome middle,
      Runs (testSocketConnection records) (before ++ [⟨.challengePuf asked, outcome⟩]) middle →
      ((∀ later final, ValidRun zephyr later → Runs middle later final →
          RespondsAfterSuccess (before ++ [⟨.challengePuf asked, outcome⟩] ++ later)) ↔
        GoodInputs before outcome.1) := by
  constructor
  · intro events final runs silent
    cases runs_testSocketConnection runs with
    | inl calls => exact not_responded_of_beforeTee calls
    | inr crossed =>
        obtain ⟨before, asked, outcome, later, rfl, _⟩ := crossed
        simp [verdicts, verdictOf] at silent
  · intro before asked outcome middle runs
    obtain ⟨challenged, ssl, ctx, sock, ret, rfl⟩ := runs_asked runs
    rw [goodInputs_iff challenged]
    have silent : verdicts before = [] :=
      verdicts_eq_nil challenged.calls not_beforeTee_challengePuf
    constructor
    · intro after
      obtain ⟨final, writes⟩ := runs_sendResponses_write ssl ctx sock ret outcome.2
      have valid : ValidRun zephyr
          [⟨.stream (.responding .init) (.write startSeq), .accepted 4⟩] := by
        intro event member
        rw [List.mem_singleton.mp member]
        exact ⟨by decide, by decide⟩
      have succeeded := after _ final valid writes
        ⟨.init, startSeq, 4, by decide, by simp [transfers, transferOf]⟩
      refine ⟨fun name failed => succeeded.allocations name ?_,
        fun name failed => succeeded.receptions name ?_, ?_⟩
      · simp [failed]
      · simp [failed]
      · have verdict := succeeded.verdict
        rw [verdicts_append, verdicts_append, silent] at verdict
        exact List.singleton_inj.mp (show [outcome.1] = [0] from verdict)
    · intro fine later final _ onward _
      obtain ⟨allocations, receptions, verdict⟩ := fine
      have late := uses_sendResponses ssl ctx sock ret outcome.2 onward
      constructor
      · intro name
        simp only [failures_append, List.mem_append, not_or]
        exact ⟨⟨allocations name, by simp [failures, failureOf]⟩, not_mem_failures late id⟩
      · intro name
        simp only [failures_append, List.mem_append, not_or]
        exact ⟨⟨receptions name, by simp [failures, failureOf]⟩, not_mem_failures late id⟩
      · have quiet : verdicts later = [] := verdicts_eq_nil late fun _ => id
        rw [verdicts_append, verdicts_append, silent, quiet, ← verdict]
        rfl

theorem failures_garbledRun :
    failures garbledRun.1 = [.reception .init, .reception .commitment, .reception .proofs] := by
  decide +kernel

/-- `recChallenge` fails three times: the inputs are not good, and the client may
go on to respond after the failures. -/
theorem respondsAfterSuccess_iff_garbled :
    ∃ (asked answered : Records) (middle : Client (Int × Records)),
      Runs (testSocketConnection bootRecords)
        (garbledRun.1 ++ [⟨.challengePuf asked, (0, answered)⟩]) middle ∧
      ¬ GoodInputs garbledRun.1 0 ∧
      ¬ ∀ later final, ValidRun zephyrOfImage later → Runs middle later final →
          RespondsAfterSuccess
            (garbledRun.1 ++ [⟨.challengePuf asked, (0, answered)⟩] ++ later) := by
  obtain ⟨asked, resume, asks⟩ := garbledRun_asks
  obtain ⟨answered, _⟩ := exists_teeOutcome asked
  have asking : Runs (testSocketConnection bootRecords) garbledRun.1 garbledRun.2 :=
    runs_serveFirst (garbled ++ garbled ++ garbled) 46
  have runs := asking.append (.call (0, answered) asks (.stop _))
  have challenged := (runs_asked runs).1
  have garbledInputs : ¬ GoodInputs garbledRun.1 0 := by
    intro good
    have received := ((goodInputs_iff challenged 0).mp good).2.1 .init
    rw [failures_garbledRun] at received
    exact received List.mem_cons_self
  refine ⟨asked, answered, _, runs, garbledInputs, ?_⟩
  rwa [(respondsAfterSuccess_iff zephyrOfImage bootRecords).2 _ _ _ _ runs]

/-- The server sends no challenge that can be received, and still gets the first
bytes of a response. -/
theorem not_respondsAfterSuccess_garbled :
    ∃ events final, ValidRun zephyrOfImage events ∧
      Runs (testSocketConnection bootRecords) events final ∧ ¬ RespondsAfterSuccess events := by
  obtain ⟨asked, resume, asks⟩ := garbledRun_asks
  obtain ⟨answered, outcome⟩ := exists_teeOutcome asked
  have runs := (runs_serveFirst (garbled ++ garbled ++ garbled) 46).append
    (.call (0, answered) asks (.stop _))
  obtain ⟨_, ssl, ctx, sock, ret, here⟩ := runs_asked runs
  obtain ⟨final, writes⟩ := runs_sendResponses_write ssl ctx sock ret answered
  rw [here] at runs
  refine ⟨_, final, ?_, runs.append writes, ?_⟩
  · rw [List.append_assoc]
    exact validRun_answered (valid_garbledRun zephyrOfImage) outcome
      (List.forall_mem_singleton.mpr ⟨by decide, by decide⟩)
  · intro after
    have succeeded := after ⟨.init, startSeq, 4, by decide, by simp [transfers, transferOf]⟩
    apply succeeded.receptions .init
    rw [failures_append, failures_append]
    have failed : .reception .init ∈ failures garbledRun.1 := by
      rw [failures_garbledRun]
      exact List.mem_cons_self
    exact List.mem_append_left _ (List.mem_append_left _ failed)

end Uc1Integration.TlsClient
