import Uc1Integration.TlsClient.Calls

/-! What the runs of the client show: the failures it logged, the answers of the
allocator, the transfers of each part, and which calls belong to which phase. -/

set_option autoImplicit false

namespace Uc1Integration.TlsClient

open Interaction Transport Tee

/-- Setting up and tearing down. -/
def ClientCall.Early : ClientCall → Prop
  | .stream _ _ => False
  | .malloc _ => False
  | .challengePuf _ => False
  | .report (.allocation _) => False
  | .report (.reception _) => False
  | .report (.response _) => False
  | _ => True

/-- Allocating and freeing. -/
def ClientCall.Allocates : ClientCall → Prop
  | .malloc _ => True
  | .free _ => True
  | _ => False

/-- Initialising and receiving the record of a call. -/
def ClientCall.Receiving (name : CallName) : ClientCall → Prop
  | .stream part _ => part = .receiving name
  | .malloc _ => True
  | .free _ => True
  | .report failure => failure = .allocation name ∨ failure = .reception name
  | _ => False

/-- What comes before the exchange with the TEE. -/
def ClientCall.BeforeTee (operation : ClientCall) : Prop :=
  operation.Early ∨ ∃ name, operation.Receiving name

/-- Giving back what a connection has acquired. -/
def ClientCall.Closing : ClientCall → Prop
  | .sslFree _ => True
  | .free _ => True
  | .ctxFree _ => True
  | .wolfsslCleanup => True
  | .close _ => True
  | _ => False

/-- What may follow the exchange with the TEE. -/
def ClientCall.Late : ClientCall → Prop
  | .socket => False
  | .connect _ => False
  | .wolfsslInit => False
  | .ctxNew => False
  | .sslNew _ => False
  | .stream (.receiving _) _ => False
  | .malloc _ => False
  | .challengePuf _ => False
  | .report (.allocation _) => False
  | .report (.reception _) => False
  | _ => True

def failureOf : ClientEvent → Option Failure
  | ⟨.report failure, _⟩ => some failure
  | _ => none

def failures (events : List ClientEvent) : List Failure :=
  events.filterMap failureOf

def verdictOf : ClientEvent → Option Int
  | ⟨.challengePuf _, outcome⟩ => some outcome.1
  | _ => none

def verdicts (events : List ClientEvent) : List Int :=
  events.filterMap verdictOf

def mallocOf : ClientEvent → Option (Option Nat)
  | ⟨.malloc _, address⟩ => some address
  | _ => none

def mallocs (events : List ClientEvent) : List (Option Nat) :=
  events.filterMap mallocOf

def transferOf (part : Part) : ClientEvent → Option SslEvent
  | ⟨.stream other call, answer⟩ => if other = part then some ⟨call, answer⟩ else none
  | _ => none

def transfers (part : Part) (events : List ClientEvent) : List SslEvent :=
  events.filterMap (transferOf part)

def SslEvent.over (part : Part) (event : SslEvent) : ClientEvent :=
  ⟨.stream part event.1, event.2⟩

@[simp] theorem failures_append (first second : List ClientEvent) :
    failures (first ++ second) = failures first ++ failures second := by
  simp [failures]

@[simp] theorem verdicts_append (first second : List ClientEvent) :
    verdicts (first ++ second) = verdicts first ++ verdicts second := by
  simp [verdicts]

@[simp] theorem mallocs_append (first second : List ClientEvent) :
    mallocs (first ++ second) = mallocs first ++ mallocs second := by
  simp [mallocs]

@[simp] theorem transfers_append (part : Part) (first second : List ClientEvent) :
    transfers part (first ++ second) = transfers part first ++ transfers part second := by
  simp [transfers]

theorem transfers_over (part : Part) (events : List SslEvent) :
    transfers part (events.map (SslEvent.over part)) = events := by
  simp [transfers, List.filterMap_map, Function.comp_def, SslEvent.over, transferOf]

theorem failures_over (part : Part) (events : List SslEvent) :
    failures (events.map (SslEvent.over part)) = [] := by
  simp [failures, SslEvent.over, failureOf]

theorem mallocs_over (part : Part) (events : List SslEvent) :
    mallocs (events.map (SslEvent.over part)) = [] := by
  simp [mallocs, SslEvent.over, mallocOf]

theorem mem_failures {events : List ClientEvent} {failure : Failure}
    (member : failure ∈ failures events) : ∃ event ∈ events, event.1 = .report failure := by
  obtain ⟨event, inside, same⟩ := List.mem_filterMap.mp member
  refine ⟨event, inside, ?_⟩
  obtain ⟨operation, answer⟩ := event
  cases operation with
  | report other =>
      cases same
      rfl
  | _ => cases same

theorem mem_mallocs {events : List ClientEvent} {address : Option Nat}
    (member : address ∈ mallocs events) : ∃ event ∈ events, ∃ size, event.1 = .malloc size := by
  obtain ⟨event, inside, same⟩ := List.mem_filterMap.mp member
  refine ⟨event, inside, ?_⟩
  obtain ⟨operation, answer⟩ := event
  cases operation with
  | malloc size => exact ⟨size, rfl⟩
  | _ => cases same

theorem over_of_mem_transfers {part : Part} {events : List ClientEvent} {transfer : SslEvent}
    (member : transfer ∈ transfers part events) : SslEvent.over part transfer ∈ events := by
  obtain ⟨event, inside, same⟩ := List.mem_filterMap.mp member
  obtain ⟨operation, answer⟩ := event
  cases operation with
  | stream other call =>
      simp only [transferOf] at same
      split at same
      next here =>
        cases same
        rw [← here]
        exact inside
      next => cases same
  | _ => cases same

theorem mem_transfers {part : Part} {events : List ClientEvent} {transfer : SslEvent}
    (member : transfer ∈ transfers part events) :
    ∃ event ∈ events, ∃ call, event.1 = .stream part call :=
  ⟨_, over_of_mem_transfers member, _, rfl⟩

theorem mem_verdicts {events : List ClientEvent} {code : Int} (member : code ∈ verdicts events) :
    ∃ event ∈ events, ∃ records, event.1 = .challengePuf records := by
  obtain ⟨event, inside, same⟩ := List.mem_filterMap.mp member
  refine ⟨event, inside, ?_⟩
  obtain ⟨operation, answer⟩ := event
  cases operation with
  | challengePuf records => exact ⟨records, rfl⟩
  | _ => cases same

/-- Calls that a phase does not make leave no trace in it. -/
theorem not_mem_failures {allowed : ClientCall → Prop} {events : List ClientEvent}
    {failure : Failure} (calls : ∀ event ∈ events, allowed event.1)
    (forbidden : ¬ allowed (.report failure)) : failure ∉ failures events := by
  intro member
  obtain ⟨event, inside, same⟩ := mem_failures member
  exact forbidden (same ▸ calls event inside)

theorem mallocs_eq_nil {allowed : ClientCall → Prop} {events : List ClientEvent}
    (calls : ∀ event ∈ events, allowed event.1) (forbidden : ∀ size, ¬ allowed (.malloc size)) :
    mallocs events = [] := by
  rw [List.eq_nil_iff_forall_not_mem]
  intro address member
  obtain ⟨event, inside, size, same⟩ := mem_mallocs member
  exact forbidden size (same ▸ calls event inside)

theorem transfers_eq_nil {allowed : ClientCall → Prop} {part : Part} {events : List ClientEvent}
    (calls : ∀ event ∈ events, allowed event.1)
    (forbidden : ∀ call, ¬ allowed (.stream part call)) : transfers part events = [] := by
  rw [List.eq_nil_iff_forall_not_mem]
  intro transfer member
  obtain ⟨event, inside, call, same⟩ := mem_transfers member
  exact forbidden call (same ▸ calls event inside)

theorem verdicts_eq_nil {allowed : ClientCall → Prop} {events : List ClientEvent}
    (calls : ∀ event ∈ events, allowed event.1)
    (forbidden : ∀ records, ¬ allowed (.challengePuf records)) : verdicts events = [] := by
  rw [List.eq_nil_iff_forall_not_mem]
  intro code member
  obtain ⟨event, inside, records, same⟩ := mem_verdicts member
  exact forbidden records (same ▸ calls event inside)

theorem not_beforeTee_challengePuf (records : Records) :
    ¬ ClientCall.BeforeTee (.challengePuf records) := by
  intro before
  cases before with
  | inl early => exact early
  | inr receiving => exact receiving.elim fun _ no => no

end Uc1Integration.TlsClient
