import Uc1Integration.Tee.ReturnCodes
import Uc1Integration.TlsClient.Phases

/-! A server over a connection that works: what it sends arrives as it is asked
for, and all that is written to it is accepted. -/

set_option autoImplicit false

namespace Uc1Integration.TlsClient

open Interaction Transport Tee Program

def bootRecords : Records :=
  fun _ => ⟨0, fun _ => nullPortion 0⟩

/-- The next address of the heap, and what the server has still to send. -/
structure Serving where
  next : Nat
  sends : List UInt8

def serveStream (sends : List UInt8) :
    (call : StreamCall UInt8) → StreamAnswer UInt8 SslFailure call × List UInt8
  | .read limit =>
      if 0 < (sends.take limit).length then (.received (sends.take limit), sends.drop limit)
      else (.failed (.negative .wantRead), sends)
  | .write data =>
      if 0 < data.length then (.accepted data.length, sends)
      else (.failed (.negative .wantWrite), sends)

def serve (serving : Serving) : (operation : ClientCall) → ClientAnswer operation × Serving
  | .socket => (3, serving)
  | .inetPton => (1, serving)
  | .connect _ => (0, serving)
  | .wolfsslInit => (wolfsslSuccess, serving)
  | .ctxNew => (some 0x20000100, serving)
  | .setCipherList _ => (wolfsslSuccess, serving)
  | .useCertificateBuffer _ => (wolfsslSuccess, serving)
  | .usePrivateKeyBuffer _ => (wolfsslSuccess, serving)
  | .loadVerifyBuffer _ => (wolfsslSuccess, serving)
  | .setVerify _ => ((), serving)
  | .sslNew _ => (some 0x20000200, serving)
  | .setFd _ _ => (wolfsslSuccess, serving)
  | .sslConnect _ => (wolfsslSuccess, serving)
  | .stream _ call =>
      let (answer, sends) := serveStream serving.sends call
      (answer, { serving with sends })
  | .malloc size => (some serving.next, { serving with next := serving.next + size.toNat })
  | .free _ => ((), serving)
  | .challengePuf records => ((0, records), serving)
  | .shutdown _ => (wolfsslSuccess, serving)
  | .sslFree _ => ((), serving)
  | .ctxFree _ => ((), serving)
  | .wolfsslCleanup => ((), serving)
  | .close _ => ((), serving)
  | .report _ => ((), serving)

/-- A first run of the client, as far as the given number of calls. -/
def serveFirst (sends : List UInt8) (steps : Nat) : List ClientEvent × Client (Int × Records) :=
  play serve steps ⟨0x20001000, sends⟩ (testSocketConnection bootRecords)

theorem runs_serveFirst (sends : List UInt8) (steps : Nat) :
    Runs (testSocketConnection bootRecords) (serveFirst sends steps).1
      (serveFirst sends steps).2 :=
  runs_play _ _ _ _

theorem valid_serveStream (sends : List UInt8) (call : StreamCall UInt8) :
    ValidTransfer call (serveStream sends call).1 := by
  cases call with
  | read limit =>
      simp only [serveStream]
      split
      next some => exact ⟨some, List.length_take_le _ _⟩
      next => trivial
  | write data =>
      simp only [serveStream]
      split
      next some => exact ⟨some, Nat.le_refl _⟩
      next => trivial

theorem valid_serve (zephyr : Zephyr) (serving : Serving) (operation : ClientCall)
    (notTee : ∀ records, operation ≠ .challengePuf records) :
    Valid zephyr operation (serve serving operation).1 := by
  cases operation with
  | stream part call => exact valid_serveStream serving.sends call
  | challengePuf records => exact absurd rfl (notTee records)
  | _ => trivial

theorem validRun_of_unasked {zephyr : Zephyr} {events : List ClientEvent}
    (each : ∀ event ∈ events, (∀ records, event.1 ≠ .challengePuf records) →
      Valid zephyr event.1 event.2)
    (unasked : verdicts events = []) : ValidRun zephyr events := by
  rintro ⟨operation, answer⟩ member
  refine each _ member fun records same => ?_
  cases same
  have asked : answer.1 ∈ verdicts events := List.mem_filterMap.mpr ⟨_, member, rfl⟩
  rw [unasked] at asked
  cases asked

theorem validRun_answered {zephyr : Zephyr} {before later : List ClientEvent} {asked : Records}
    {outcome : Int × Records} (valid : ValidRun zephyr before)
    (possible : TeeOutcome zephyr asked outcome) (fine : ValidRun zephyr later) :
    ValidRun zephyr (before ++ ([⟨.challengePuf asked, outcome⟩] ++ later)) :=
  List.forall_mem_append.mpr ⟨valid, List.forall_mem_append.mpr
    ⟨List.forall_mem_singleton.mpr possible, fine⟩⟩

theorem valid_serveFirst (zephyr : Zephyr) {sends : List UInt8} {steps : Nat}
    (unasked : verdicts (serveFirst sends steps).1 = []) :
    ValidRun zephyr (serveFirst sends steps).1 :=
  validRun_of_unasked (play_forall (valid_serve zephyr) steps _ _) unasked

def garbled : List UInt8 :=
  startSeq ++ idBytes pufTaInitFuncId ++ [0, 0, 0, 0]

/-- The client has received three garbled challenges. -/
def garbledRun : List ClientEvent × Client (Int × Records) :=
  serveFirst (garbled ++ garbled ++ garbled) 46

theorem garbledRun_asks :
    ∃ asked resume, garbledRun.2.view = .call (.challengePuf asked) resume :=
  ⟨_, _, rfl⟩

theorem valid_garbledRun (zephyr : Zephyr) : ValidRun zephyr garbledRun.1 :=
  valid_serveFirst zephyr (by decide +kernel)

/-- A server that accepts no byte of the responses. -/
def refuseWrites (serving : Serving) :
    (operation : ClientCall) → ClientAnswer operation × Serving
  | .stream _ (.write _) => (.failed (.zero (.other 0)), serving)
  | operation => serve serving operation

theorem valid_refuseWrites (zephyr : Zephyr) (serving : Serving) (operation : ClientCall)
    (notTee : ∀ records, operation ≠ .challengePuf records) :
    Valid zephyr operation (refuseWrites serving operation).1 := by
  cases operation with
  | stream part call =>
      cases call with
      | read limit => exact valid_serve zephyr serving (.stream part (.read limit)) notTee
      | write => trivial
  | _ => exact valid_serve zephyr serving _ notTee

theorem exists_cleanedUp (ssl ctx : Nat) (sock ret : Int) (records : Records) :
    ∃ later result, Runs (sendResponses ssl ctx sock ret records) later (.done result) ∧
      ∀ zephyr, ValidRun zephyr later := by
  let refused := play refuseWrites 18 ⟨0, []⟩ (sendResponses ssl ctx sock ret records)
  have finishes : ∃ result, refused.2 = .done result := ⟨_, rfl⟩
  obtain ⟨result, finished⟩ := finishes
  have runs : Runs (sendResponses ssl ctx sock ret records) refused.1 refused.2 := runs_play _ _ _ _
  rw [finished] at runs
  have unasked : verdicts refused.1 = [] :=
    verdicts_eq_nil (uses_sendResponses ssl ctx sock ret records runs) fun _ => id
  exact ⟨refused.1, result, runs, fun zephyr =>
    validRun_of_unasked (play_forall (valid_refuseWrites zephyr) 18 _ _) unasked⟩

/-- `challenge_puf` can return 0 with any records. -/
theorem exists_teeOutcome (asked : Records) :
    ∃ answered, TeeOutcome zephyrOfImage asked (0, answered) := by
  let own : Own := { bootOwn with record := asked }
  obtain ⟨client, reaches, success⟩ :=
    exists_returning_any zephyrOfImage_dispatches (show own.sessionArg.ret = 0 from rfl)
      (bootShared default) fun _ => default
  exact ⟨client.own.record, own, bootShared default, client, .boot rfl, rfl,
    Interaction.Client.reaches_any reaches, success, rfl⟩

end Uc1Integration.TlsClient
