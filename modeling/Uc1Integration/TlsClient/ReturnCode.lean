import Uc1Integration.TlsClient.Server

/-!
# The return code

What `test_socket_connection` returns in a run that ends is decided by at most one
answer: that of the first call whose failure it does not pass over.
-/

set_option autoImplicit false

namespace Uc1Integration.TlsClient

open Interaction Transport Tee Program

/-- A wolfSSL call that does not return `WOLFSSL_SUCCESS` makes its value the result. -/
def unlessSuccess (ret : Int) : Option Int :=
  if ret = wolfsslSuccess then none else some ret

def writeCode : WriteAnswer SslFailure → Int
  | .accepted count => count
  | .failed (.zero _) => 0
  | .failed (.negative _) => -1

/-- The result an answer decides, if it decides one. -/
def decided : ClientEvent → Option Int
  | ⟨.connect _, ret⟩ => if ret = -1 then some (-1) else none
  | ⟨.wolfsslInit, ret⟩ => unlessSuccess ret
  | ⟨.ctxNew, none⟩ => some (-1)
  | ⟨.setCipherList _, ret⟩ => if ret = wolfsslSuccess then none else some (-1)
  | ⟨.useCertificateBuffer _, ret⟩ => unlessSuccess ret
  | ⟨.usePrivateKeyBuffer _, ret⟩ => unlessSuccess ret
  | ⟨.loadVerifyBuffer _, ret⟩ => unlessSuccess ret
  | ⟨.sslNew _, none⟩ => some (-1)
  | ⟨.setFd _ _, ret⟩ => unlessSuccess ret
  | ⟨.sslConnect _, ret⟩ => unlessSuccess ret
  -- A response that fails goes to `cleanup` with what `wolfSSL_connect` returned.
  | ⟨.report (.response _), _⟩ => some wolfsslSuccess
  | ⟨.stream .greeting (.write data), answer⟩ =>
      if writeCode answer = data.length then none else some (writeCode answer)
  | ⟨.stream .greeting (.read _), answer⟩ => if readCode answer = -1 then some (-1) else none
  | _ => none

/-- Whatever the answer, the call decides nothing. -/
def ClientCall.Silent (operation : ClientCall) : Prop :=
  ∀ answer, decided ⟨operation, answer⟩ = none

/-- Every run that ends has these results decided, and this one. -/
def Ends (post : List Int → Int → Prop) (program : Client (Int × Records)) : Prop :=
  ∀ events result, Runs program events (.done result) →
    post (events.filterMap decided) result.1

/-- The result is the one that was decided, or else 0. -/
def Settled (codes : List Int) (ret : Int) : Prop :=
  codes = [] ∧ ret = 0 ∨ codes = [ret]

def Unsettled (expected : Int) (codes : List Int) (ret : Int) : Prop :=
  codes = [] ∧ ret = expected

section Ends

variable {α : Type} {post : List Int → Int → Prop} {program : Client (Int × Records)}

theorem ends_done {result : Int × Records} (holds : post [] result.1) :
    Ends post (.done result) := by
  intro events last runs
  obtain ⟨rfl, same⟩ := runs.of_done
  cases same
  exact holds

theorem Ends.mono {post' : List Int → Int → Prop} (ends : Ends post program)
    (implies : ∀ codes ret, post codes ret → post' codes ret) : Ends post' program :=
  fun events result runs => implies _ _ (ends events result runs)

theorem Ends.ite {condition : Prop} [Decidable condition] {one two : Client (Int × Records)}
    (first : Ends post one) (second : Ends post two) :
    Ends post (if condition then one else two) := by
  split
  · exact first
  · exact second

theorem ends_silent {first : Client α} {continuation : α → Client (Int × Records)}
    (silent : Uses ClientCall.Silent first) (next : ∀ value, Ends post (continuation value)) :
    Ends post (first.bind continuation) := by
  intro events result runs
  obtain ⟨value, before, after, rfl, one, two⟩ := runs.of_bind_done
  have nothing : before.filterMap decided = [] := by
    rw [List.filterMap_eq_nil_iff]
    exact fun event member => silent one event member event.2
  rw [List.filterMap_append, nothing, List.nil_append]
  exact next value after result two

theorem ends_silent_call {operation : ClientCall}
    {continuation : ClientAnswer operation → Client (Int × Records)}
    (silent : operation.Silent) (next : ∀ answer, Ends post (continuation answer)) :
    Ends post ((call operation).bind continuation) :=
  ends_silent (uses_perform silent) next

/-- A call whose answer decides the result, or nothing. -/
theorem settled_of_call {operation : ClientCall}
    {resume : ClientAnswer operation → Client (Int × Records)}
    (calls : program.view = .call operation resume)
    (failed : ∀ answer ret, decided ⟨operation, answer⟩ = some ret →
      Ends (Unsettled ret) (resume answer))
    (passed : ∀ answer, decided ⟨operation, answer⟩ = none → Ends Settled (resume answer)) :
    Ends Settled program := by
  intro events result runs
  cases runs with
  | stop => cases calls
  | @call _ _ _ _ later answer sameCall onward =>
      rw [calls] at sameCall
      cases sameCall
      rw [List.filterMap_cons]
      cases verdict : decided ⟨operation, answer⟩ with
      | none => exact passed answer verdict later result onward
      | some ret =>
          obtain ⟨nothing, same⟩ := failed answer ret verdict later result onward
          right
          dsimp only
          rw [nothing, same]

/-- A call that is checked: its failure is reported and decides the result. -/
theorem settled_of_check (operation : ClientCall) (failure : Failure)
    (code : ClientAnswer operation → Int) (result : Int → Int)
    {failing : Int → Client (Int × Records)} {rest : Int → Client (Int × Records)}
    (decides : ∀ answer, decided ⟨operation, answer⟩ =
      if code answer = wolfsslSuccess then none else some (result (code answer)))
    (silent : ClientCall.Silent (.report failure))
    (failed : ∀ ret, Ends (Unsettled (result ret)) (failing ret))
    (passed : Ends Settled (rest wolfsslSuccess)) :
    Ends Settled ((call operation).bind fun answer =>
      if code answer ≠ wolfsslSuccess then (report failure).bind fun _ => failing (code answer)
      else rest (code answer)) := by
  refine settled_of_call rfl (fun answer ret verdict => ?_) fun answer verdict => ?_
  · rw [decides] at verdict
    by_cases success : code answer = wolfsslSuccess
    · rw [if_pos success] at verdict
      cases verdict
    · rw [if_neg success] at verdict
      cases verdict
      dsimp only [Sum.elim_inr, done_bind]
      rw [if_pos success]
      exact ends_silent_call silent fun _ => failed _
  · rw [decides] at verdict
    by_cases success : code answer = wolfsslSuccess
    · dsimp only [Sum.elim_inr, done_bind]
      rw [success, if_neg (not_not.mpr rfl)]
      exact passed
    · rw [if_neg success] at verdict
      cases verdict

end Ends

section Cleanup

theorem ends_socketCleanup (sock ret : Int) (records : Records) :
    Ends (Unsettled ret) (socketCleanup sock ret records) :=
  ends_silent_call (fun _ => rfl) fun _ => ends_done ⟨rfl, rfl⟩

theorem ends_ctxCleanup (ctx : Nat) (sock ret : Int) (records : Records) :
    Ends (Unsettled ret) (ctxCleanup ctx sock ret records) :=
  ends_silent_call (fun _ => rfl) fun _ => ends_silent_call (fun _ => rfl) fun _ =>
    ends_socketCleanup sock ret records

theorem ends_cleanup (ssl ctx : Nat) (sock ret : Int) (records : Records) :
    Ends (Unsettled ret) (cleanup ssl ctx sock ret records) := by
  have frees : ∀ records name, Uses ClientCall.Silent (freeRecord records name) := by
    intro records name
    refine (uses_freeRecord records name).mono ?_
    rintro _ ⟨address, rfl⟩ _
    rfl
  refine ends_silent_call (fun _ => rfl) fun _ => ?_
  refine ends_silent (frees _ _) fun _ => ends_silent (frees _ _) fun _ => ?_
  exact ends_silent (frees _ _) fun _ => ends_ctxCleanup ctx sock ret _

end Cleanup

theorem silent_of_receiving {name : CallName} {operation : ClientCall}
    (receiving : operation.Receiving name) : operation.Silent := by
  intro answer
  cases operation with
  | stream part transfer =>
      cases receiving
      rfl
  | malloc | free => rfl
  | report failure => obtain rfl | rfl := receiving <;> rfl
  | _ => exact receiving.elim

theorem silent_receiveAll (records : Records) :
    Uses ClientCall.Silent (receiveAll records) := by
  have each : ∀ records name func pattern,
      Uses ClientCall.Silent (receiveInto records name func pattern) :=
    fun records name func pattern =>
      (uses_receiveInto records name func pattern).mono fun _ => silent_of_receiving
  exact Uses.bind (each _ _ _ _) fun _ => Uses.bind (each _ _ _ _) fun _ => each _ _ _ _

theorem view_write_overSsl {α : Type} (part : Part) (data : List UInt8)
    (continuation : Int → Client α) :
    ((overSsl part (wolfSslWrite data)).bind continuation).view =
      .call (.stream part (.write data)) fun answer => continuation (writeCode answer) := by
  refine congrArg (View.call _) (funext fun answer => ?_)
  obtain count | ⟨error⟩ | ⟨error⟩ := answer <;> rfl

theorem view_read_overSsl {α : Type} (part : Part) (limit : Nat)
    (continuation : Int → Client α) :
    ((overSsl part (wolfSslRead limit)).bind continuation).view =
      .call (.stream part (.read limit)) fun answer => continuation (readCode answer) := rfl

theorem settled_exchangeGreeting (ssl ctx : Nat) (sock : Int) (records : Records) :
    Ends Settled (exchangeGreeting ssl ctx sock records) := by
  have finishes : Ends Settled ((shutdown ssl).bind fun _ => cleanup ssl ctx sock 0 records) := by
    refine ends_silent (uses_iterate (fun _ _ => rfl) ()) fun _ => ?_
    exact (ends_cleanup ssl ctx sock 0 records).mono fun _ _ => .inl
  rw [exchangeGreeting]
  simp only [bind_eq]
  refine settled_of_call (view_write_overSsl .greeting helloMsg _) ?_ ?_
  · intro answer ret verdict
    simp only [decided] at verdict
    split at verdict
    next => cases verdict
    next short =>
        cases verdict
        rw [if_pos short]
        exact ends_silent_call (fun _ => rfl) fun _ => ends_cleanup ssl ctx sock _ records
  · intro answer verdict
    simp only [decided] at verdict
    split at verdict
    next whole =>
        rw [if_neg (not_not.mpr whole)]
        refine settled_of_call (view_read_overSsl .greeting 255 _) ?_ ?_
        · intro reply ret failed
          simp only [decided] at failed
          split at failed
          next broken =>
              cases failed
              rw [if_pos broken, broken]
              exact ends_silent_call (fun _ => rfl) fun _ => ends_cleanup ssl ctx sock _ records
          next => cases failed
        · intro reply passed
          simp only [decided] at passed
          split at passed
          next => cases passed
          next fine =>
              rw [if_neg fine]
              exact finishes
    next => cases verdict

theorem settled_sendResponses (ssl ctx : Nat) (sock : Int) (records : Records) :
    Ends Settled (sendResponses ssl ctx sock wolfsslSuccess records) := by
  have sends : ∀ name, Uses ClientCall.Silent
      (overSsl (.responding name) (sendResponse (records name))) := fun name =>
    uses_overSsl (fun call answer => by cases call <;> rfl) _
  have fails : ∀ name, Ends Settled ((report (.response name)).bind fun _ =>
      cleanup ssl ctx sock wolfsslSuccess records) := by
    intro name
    refine settled_of_call rfl (fun answer ret verdict => ?_) nofun
    cases verdict
    exact ends_cleanup ssl ctx sock _ records
  refine ends_silent (sends .init) fun code => Ends.ite (fails .init) ?_
  refine ends_silent (sends .commitment) fun code => Ends.ite (fails .commitment) ?_
  refine ends_silent (sends .proofs) fun code => Ends.ite (fails .proofs) ?_
  exact settled_exchangeGreeting ssl ctx sock records

theorem settled_converse (ssl ctx : Nat) (sock : Int) (records : Records) :
    Ends Settled (converse ssl ctx sock wolfsslSuccess records) :=
  ends_silent (silent_receiveAll records) fun _ => ends_silent_call (fun _ => rfl) fun _ =>
    settled_sendResponses ssl ctx sock _

theorem settled_testSocketConnection (records : Records) :
    Ends Settled (testSocketConnection records) := by
  refine ends_silent_call (fun _ => rfl) fun sock => ?_
  refine ends_silent (uses_reportIf fun _ => rfl) fun _ => ?_
  refine ends_silent_call (fun _ => rfl) fun valid => ?_
  refine ends_silent (uses_reportIf fun _ => rfl) fun _ => ?_
  refine settled_of_call rfl (fun connected ret verdict => ?_) fun connected verdict => ?_
  · simp only [decided] at verdict
    split at verdict
    next failed =>
        cases verdict
        dsimp only [Sum.elim_inr, done_bind]
        rw [if_pos failed, failed]
        exact ends_silent_call (fun _ => rfl) fun _ => ends_done ⟨rfl, rfl⟩
    next => cases verdict
  · simp only [decided] at verdict
    split at verdict
    next => cases verdict
    next fine =>
        simp only [Sum.elim_inr, done_bind, bind_eq]
        rw [if_neg fine]
        refine settled_of_check .wolfsslInit .library (fun ret => ret)
          (fun ret => ret) (fun _ => rfl) (fun _ => rfl)
          (fun ret => ends_socketCleanup sock ret records) ?_
        refine settled_of_call rfl (fun context ret verdict => ?_) fun context verdict => ?_
        · cases context with
          | some ctx => cases verdict
          | none =>
              cases verdict
              exact ends_silent_call (fun _ => rfl) fun _ => ends_socketCleanup sock _ records
        · cases context with
          | none => cases verdict
          | some ctx =>
              have cleans : ∀ ret, Ends (Unsettled ret) (ctxCleanup ctx sock ret records) :=
                fun ret => ends_ctxCleanup ctx sock ret records
              refine settled_of_check (.setCipherList ctx) .cipherList (fun ret => ret)
                (fun _ => -1) (fun _ => rfl) (fun _ => rfl) (fun _ => cleans _) ?_
              refine settled_of_check (.useCertificateBuffer ctx) .certificate (fun ret => ret)
                (fun ret => ret) (fun _ => rfl) (fun _ => rfl) cleans ?_
              refine settled_of_check (.usePrivateKeyBuffer ctx) .key (fun ret => ret)
                (fun ret => ret) (fun _ => rfl) (fun _ => rfl) cleans ?_
              refine settled_of_check (.loadVerifyBuffer ctx) .authority (fun ret => ret)
                (fun ret => ret) (fun _ => rfl) (fun _ => rfl) cleans ?_
              refine ends_silent_call (fun _ => rfl) fun _ => ?_
              refine settled_of_call rfl (fun object ret verdict => ?_) fun object verdict => ?_
              · cases object with
                | some ssl => cases verdict
                | none =>
                    cases verdict
                    exact ends_silent_call (fun _ => rfl) fun _ => cleans _
              · cases object with
                | none => cases verdict
                | some ssl =>
                    have cleans : ∀ ret, Ends (Unsettled ret) (cleanup ssl ctx sock ret records) :=
                      fun ret => ends_cleanup ssl ctx sock ret records
                    refine settled_of_check (.setFd ssl sock) .descriptor (fun ret => ret)
                      (fun ret => ret) (fun _ => rfl) (fun _ => rfl) cleans ?_
                    refine settled_of_check (.sslConnect ssl) .handshake (fun ret => ret)
                      (fun ret => ret) (fun _ => rfl) (fun _ => rfl) cleans ?_
                    exact settled_converse ssl ctx sock records

/-- In a run that ends, no answer has decided the result and it is 0, or exactly one
has. A failure of wolfSSL with 0 is so returned as a success where its value is kept. -/
theorem testSocketConnection_returns {records : Records} {events : List ClientEvent}
    {result : Int × Records}
    (runs : Runs (testSocketConnection records) events (.done result)) :
    events.filterMap decided = [] ∧ result.1 = 0 ∨ events.filterMap decided = [result.1] :=
  settled_testSocketConnection records events result runs

/-- The context refuses the certificate with 0, `WOLFSSL_FAILURE`. -/
def refuseCertificate (serving : Serving) :
    (operation : ClientCall) → ClientAnswer operation × Serving
  | .useCertificateBuffer _ => (0, serving)
  | operation => serve serving operation

theorem testSocketConnection_returns_certificate :
    ∃ events result, Runs (testSocketConnection bootRecords) events (.done result) ∧
      result.1 = 0 ∧ events.filterMap decided = [0] := by
  let refused := play refuseCertificate 20 ⟨0, []⟩ (testSocketConnection bootRecords)
  have returned : refused.2.result?.map Prod.fst = some 0 := by decide +kernel
  have some : refused.1.filterMap decided ≠ [] := by decide +kernel
  obtain ⟨result, finished, zero⟩ := Option.map_eq_some_iff.mp returned
  have runs : Runs (testSocketConnection bootRecords) refused.1 refused.2 := runs_play _ _ _ _
  rw [view_eq_done (view_eq_done_iff.mpr finished)] at runs
  have decides := (testSocketConnection_returns runs).resolve_left fun none => some none.1
  exact ⟨refused.1, result, runs, zero, by rw [decides, zero]⟩

end Uc1Integration.TlsClient
