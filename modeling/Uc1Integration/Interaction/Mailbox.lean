import Mathlib.Logic.Relation
import Mathlib.Data.List.Basic

/-!
# Clients of a mailbox

A client runs a script of statements. Some of its memory is its own; the rest it
shares with the party it calls through a mailbox in it, and with the interrupt
handler that reads a reply. Replies and interrupts fall between any two
statements.
-/

set_option autoImplicit false

namespace Uc1Integration.Interaction

variable {Own Shared Message : Type}

inductive Stmt (Own Shared : Type) where
  | touch (f : Own → Shared → Own × Shared)
  | own (f : Own → Own)
  | leaveIf (condition : Own → Bool) (code : Int)
  | notify

def Stmt.Keeps (property : Own → Prop) : Stmt Own Shared → Prop
  | .touch f => ∀ own shared, property own → property (f own shared).1
  | .own f => ∀ own, property own → property (f own)
  | .leaveIf _ _ => True
  | .notify => True

def Stmt.Assigns : Stmt Own Shared → Prop
  | .touch _ => True
  | .own _ => True
  | .leaveIf _ _ => False
  | .notify => False

/-- How the other party sees the shared memory and writes to it, and what the
client's interrupt handler does. -/
structure Mailbox (Shared Message : Type) where
  read : Shared → Message
  put : Message → Shared → Shared
  handle : Shared → Shared

/-- A client in the middle of its script. Requests are recorded as the other
party found them when it was notified; each is named by its position. -/
structure Client (Own Shared Message : Type) where
  own : Own
  shared : Shared
  rest : List (Stmt Own Shared)
  result : Option Int
  requests : List Message
  waiting : List Nat
  replies : List (Nat × Message)
  raised : Nat

namespace Client

def start (own : Own) (shared : Shared) (script : List (Stmt Own Shared)) :
    Client Own Shared Message :=
  ⟨own, shared, script, none, [], [], [], 0⟩

/-- Every request has been answered, and every answer handled. -/
structure Settled (client : Client Own Shared Message) : Prop where
  waiting : client.waiting = []
  raised : client.raised = 0

/-- When a client may touch the shared memory, and which replies may come. -/
structure Regime (Own Shared Message : Type) where
  mayTouch : Client Own Shared Message → Prop
  accepts : Nat → Message → Message → Prop

def Regime.any : Regime Own Shared Message :=
  ⟨fun _ => True, fun _ _ _ => True⟩

/-- Each reply is handled before the client next touches the shared memory. -/
def Regime.timely (accepts : Nat → Message → Message → Prop) : Regime Own Shared Message :=
  ⟨Settled, accepts⟩

inductive Step (mailbox : Mailbox Shared Message) (regime : Regime Own Shared Message) :
    Client Own Shared Message → Client Own Shared Message → Prop where
  | touch {client : Client Own Shared Message} {f : Own → Shared → Own × Shared}
      {rest : List (Stmt Own Shared)} :
      client.result = none → client.rest = .touch f :: rest → regime.mayTouch client →
      Step mailbox regime client
        { client with
          own := (f client.own client.shared).1
          shared := (f client.own client.shared).2
          rest }
  | own {client : Client Own Shared Message} {f : Own → Own} {rest : List (Stmt Own Shared)} :
      client.result = none → client.rest = .own f :: rest →
      Step mailbox regime client { client with own := f client.own, rest }
  | leave {client : Client Own Shared Message} {condition : Own → Bool} {code : Int}
      {rest : List (Stmt Own Shared)} :
      client.result = none → client.rest = .leaveIf condition code :: rest →
      condition client.own = true →
      Step mailbox regime client { client with rest := [], result := some code }
  | stay {client : Client Own Shared Message} {condition : Own → Bool} {code : Int}
      {rest : List (Stmt Own Shared)} :
      client.result = none → client.rest = .leaveIf condition code :: rest →
      condition client.own = false →
      Step mailbox regime client { client with rest }
  | notify {client : Client Own Shared Message} {rest : List (Stmt Own Shared)} :
      client.result = none → client.rest = .notify :: rest → regime.mayTouch client →
      Step mailbox regime client
        { client with
          rest
          requests := client.requests ++ [mailbox.read client.shared]
          waiting := client.waiting ++ [client.requests.length] }
  | finish {client : Client Own Shared Message} :
      client.result = none → client.rest = [] →
      Step mailbox regime client { client with result := some 0 }
  | reply {client : Client Own Shared Message} {before after : List Nat} {position : Nat}
      {request message : Message} :
      client.waiting = before ++ position :: after →
      client.requests[position]? = some request →
      regime.accepts position request message →
      Step mailbox regime client
        { client with
          shared := mailbox.put message client.shared
          waiting := before ++ after
          replies := client.replies ++ [(position, message)]
          raised := client.raised + 1 }
  | handle {client : Client Own Shared Message} {raised : Nat} :
      client.raised = raised + 1 →
      Step mailbox regime client { client with shared := mailbox.handle client.shared, raised }

abbrev Reaches (mailbox : Mailbox Shared Message) (regime : Regime Own Shared Message) :
    Client Own Shared Message → Client Own Shared Message → Prop :=
  Relation.ReflTransGen (Step mailbox regime)

/-- What a regime allows, one that allows more does too. -/
theorem step_mono {mailbox : Mailbox Shared Message} {regime regime' : Regime Own Shared Message}
    (mayTouch : ∀ client, regime.mayTouch client → regime'.mayTouch client)
    (accepts : ∀ position request message, regime.accepts position request message →
      regime'.accepts position request message)
    {client client' : Client Own Shared Message} (step : Step mailbox regime client client') :
    Step mailbox regime' client client' := by
  cases step with
  | touch running next may => exact .touch running next (mayTouch _ may)
  | own running next => exact .own running next
  | leave running next holds => exact .leave running next holds
  | stay running next holds => exact .stay running next holds
  | notify running next may => exact .notify running next (mayTouch _ may)
  | finish running ended => exact .finish running ended
  | reply waiting asked accepted => exact .reply waiting asked (accepts _ _ _ accepted)
  | handle raised => exact .handle raised

theorem step_any {mailbox : Mailbox Shared Message} {regime : Regime Own Shared Message}
    {client client' : Client Own Shared Message} (step : Step mailbox regime client client') :
    Step mailbox .any client client' :=
  step_mono (fun _ _ => trivial) (fun _ _ _ _ => trivial) step

/-- What a regime allows can happen. -/
theorem reaches_any {mailbox : Mailbox Shared Message} {regime : Regime Own Shared Message}
    {client client' : Client Own Shared Message} (reaches : Reaches mailbox regime client client') :
    Reaches mailbox .any client client' :=
  Relation.ReflTransGen.mono (fun _ _ => step_any) _ _ reaches

theorem reaches_timely {mailbox : Mailbox Shared Message}
    {accepts accepts' : Nat → Message → Message → Prop}
    (weaker : ∀ position request message, accepts position request message →
      accepts' position request message)
    {client client' : Client Own Shared Message}
    (reaches : Reaches mailbox (.timely accepts) client client') :
    Reaches mailbox (.timely accepts') client client' := by
  refine Relation.ReflTransGen.mono (fun one other step => ?_) _ _ reaches
  refine step_mono (fun _ settled => ?_) weaker step
  exact settled

theorem keeps_of_step {mailbox : Mailbox Shared Message} {regime : Regime Own Shared Message}
    {property : Own → Prop} {client client' : Client Own Shared Message}
    (keeps : property client.own ∧ ∀ statement ∈ client.rest, statement.Keeps property)
    (step : Step mailbox regime client client') :
    property client'.own ∧ ∀ statement ∈ client'.rest, statement.Keeps property := by
  obtain ⟨holds, script⟩ := keeps
  have onward : ∀ {statement : Stmt Own Shared} {rest : List (Stmt Own Shared)},
      client.rest = statement :: rest → statement.Keeps property ∧
        ∀ later ∈ rest, later.Keeps property := by
    intro statement rest next
    rw [next] at script
    exact ⟨script statement List.mem_cons_self,
      fun later member => script later (List.mem_cons_of_mem _ member)⟩
  cases step with
  | touch _ next => exact ⟨(onward next).1 _ _ holds, (onward next).2⟩
  | own _ next => exact ⟨(onward next).1 _ holds, (onward next).2⟩
  | leave => exact ⟨holds, nofun⟩
  | stay _ next => exact ⟨holds, (onward next).2⟩
  | notify _ next => exact ⟨holds, (onward next).2⟩
  | finish => exact ⟨holds, script⟩
  | reply => exact ⟨holds, script⟩
  | handle => exact ⟨holds, script⟩

theorem keeps_of_reaches {mailbox : Mailbox Shared Message} {regime : Regime Own Shared Message}
    {property : Own → Prop} {own : Own} {shared : Shared} {script : List (Stmt Own Shared)}
    {client : Client Own Shared Message} (holds : property own)
    (keeps : ∀ statement ∈ script, statement.Keeps property)
    (reaches : Reaches mailbox regime (start own shared script) client) :
    property client.own := by
  suffices both : property client.own ∧ ∀ statement ∈ client.rest, statement.Keeps property from
    both.1
  induction reaches with
  | refl => exact ⟨holds, keeps⟩
  | tail _ step ih => exact keeps_of_step ih step

def advance (mailbox : Mailbox Shared Message) (client : Client Own Shared Message) :
    Client Own Shared Message :=
  match client.result, client.rest with
  | some _, _ => client
  | none, [] => { client with result := some 0 }
  | none, .touch f :: rest =>
      { client with
        own := (f client.own client.shared).1
        shared := (f client.own client.shared).2
        rest }
  | none, .own f :: rest => { client with own := f client.own, rest }
  | none, .leaveIf condition code :: rest =>
      if condition client.own then { client with rest := [], result := some code }
      else { client with rest }
  | none, .notify :: rest =>
      { client with
        rest
        requests := client.requests ++ [mailbox.read client.shared]
        waiting := client.waiting ++ [client.requests.length] }

/-- Running the whole script with no reply at all. -/
def runAlone (mailbox : Mailbox Shared Message) :
    Nat → Client Own Shared Message → Client Own Shared Message
  | 0, client => client
  | steps + 1, client => runAlone mailbox steps (advance mailbox client)

theorem reaches_advance (mailbox : Mailbox Shared Message) (client : Client Own Shared Message) :
    Reaches mailbox .any client (advance mailbox client) := by
  unfold advance
  split
  next => exact .refl
  next running ended => exact .single (.finish running ended)
  next running next => exact .single (.touch running next trivial)
  next running next => exact .single (.own running next)
  next condition code rest running next =>
      cases holds : condition client.own with
      | true => exact .single (.leave running next holds)
      | false => exact .single (.stay running next holds)
  next running next => exact .single (.notify running next trivial)

theorem reaches_runAlone (mailbox : Mailbox Shared Message) (steps : Nat)
    (client : Client Own Shared Message) :
    Reaches mailbox .any client (runAlone mailbox steps client) := by
  induction steps generalizing client with
  | zero => exact .refl
  | succ steps ih => exact (reaches_advance mailbox client).trans (ih _)

/-- What a script makes of the memory when nothing comes from the other party. -/
def alone : List (Stmt Own Shared) → Own → Shared → Own × Shared
  | [], own, shared => (own, shared)
  | .touch f :: rest, own, shared => alone rest (f own shared).1 (f own shared).2
  | .own f :: rest, own, shared => alone rest (f own) shared
  | .leaveIf condition _ :: rest, own, shared =>
      if condition own then (own, shared) else alone rest own shared
  | .notify :: rest, own, shared => alone rest own shared

theorem exists_runAlone (mailbox : Mailbox Shared Message) (client : Client Own Shared Message)
    (running : client.result = none) :
    ∃ steps, (runAlone mailbox steps client).result ≠ none ∧
      ((runAlone mailbox steps client).own, (runAlone mailbox steps client).shared) =
        alone client.rest client.own client.shared := by
  generalize script : client.rest = rest
  induction rest generalizing client with
  | nil =>
      refine ⟨1, ?_⟩
      simp [runAlone, advance, running, script, alone]
  | cons statement rest ih =>
      have onward : (advance mailbox client).result = none → (advance mailbox client).rest = rest →
          alone rest (advance mailbox client).own (advance mailbox client).shared =
            alone (statement :: rest) client.own client.shared →
          ∃ steps, (runAlone mailbox steps client).result ≠ none ∧
            ((runAlone mailbox steps client).own, (runAlone mailbox steps client).shared) =
              alone (statement :: rest) client.own client.shared := by
        intro still behind same
        obtain ⟨steps, ended⟩ := ih (advance mailbox client) still behind
        rw [same] at ended
        exact ⟨steps + 1, ended⟩
      cases statement with
      | touch f =>
          apply onward
          · simp [advance, running, script]
          · simp [advance, running, script]
          · simp [advance, running, script, alone]
      | own f =>
          apply onward
          · simp [advance, running, script]
          · simp [advance, running, script]
          · simp [advance, running, script, alone]
      | notify =>
          apply onward
          · simp [advance, running, script]
          · simp [advance, running, script]
          · simp [advance, running, script, alone]
      | leaveIf condition code =>
          cases holds : condition client.own with
          | false =>
              apply onward
              · simp [advance, running, script, holds]
              · simp [advance, running, script, holds]
              · simp [advance, running, script, holds, alone]
          | true =>
              refine ⟨1, ?_⟩
              simp [runAlone, advance, running, script, holds, alone]

/-- This is what the client reaches when no reply comes. -/
theorem reaches_alone (mailbox : Mailbox Shared Message) (client : Client Own Shared Message)
    (running : client.result = none) :
    ∃ final, Reaches mailbox .any client final ∧ final.result ≠ none ∧
      (final.own, final.shared) = alone client.rest client.own client.shared := by
  obtain ⟨steps, ended⟩ := exists_runAlone mailbox client running
  exact ⟨_, reaches_runAlone mailbox steps client, ended⟩

structure Outcome (Own Message : Type) where
  own : Own
  result : Int
  requests : List Message

def Outcome.after (earlier : List Message) (outcome : Outcome Own Message) :
    Outcome Own Message :=
  { outcome with requests := earlier ++ outcome.requests }

/-- The outcome when the reply to each request is handled at once. -/
def settle (mailbox : Mailbox Shared Message) (replies : Nat → Message) :
    List (Stmt Own Shared) → Nat → Own → Shared → Outcome Own Message
  | [], _, own, _ => ⟨own, 0, []⟩
  | .touch f :: rest, position, own, shared =>
      settle mailbox replies rest position (f own shared).1 (f own shared).2
  | .own f :: rest, position, own, shared => settle mailbox replies rest position (f own) shared
  | .leaveIf condition code :: rest, position, own, shared =>
      if condition own then ⟨own, code, []⟩
      else settle mailbox replies rest position own shared
  | .notify :: rest, position, own, shared =>
      (settle mailbox replies rest (position + 1) own
        (mailbox.handle (mailbox.put (replies position) shared))).after [mailbox.read shared]

/-- Assignments settle at once. -/
theorem settle_assigns (mailbox : Mailbox Shared Message) (replies : Nat → Message)
    {script rest : List (Stmt Own Shared)} (assigns : ∀ statement ∈ script, statement.Assigns)
    {position : Nat} {own : Own} {shared : Shared} :
    settle mailbox replies (script ++ rest) position own shared =
      settle mailbox replies rest position (alone script own shared).1
        (alone script own shared).2 := by
  induction script generalizing own shared with
  | nil => rfl
  | cons statement script ih =>
      have here := assigns statement List.mem_cons_self
      have later := fun other member => assigns other (List.mem_cons_of_mem _ member)
      cases statement with
      | touch f => exact ih later
      | own f => exact ih later
      | leaveIf => exact here.elim
      | notify => exact here.elim

/-- The first request a script prepares, with nothing from the other party. -/
def request? (mailbox : Mailbox Shared Message) :
    List (Stmt Own Shared) → Own → Shared → Option Message
  | [], _, _ => none
  | .touch f :: rest, own, shared =>
      request? mailbox rest (f own shared).1 (f own shared).2
  | .own f :: rest, own, shared => request? mailbox rest (f own) shared
  | .leaveIf condition _ :: rest, own, shared =>
      if condition own then none else request? mailbox rest own shared
  | .notify :: _, _, shared => some (mailbox.read shared)

theorem request?_eq (mailbox : Mailbox Shared Message) (replies : Nat → Message)
    (script : List (Stmt Own Shared)) (position : Nat) (own : Own) (shared : Shared) :
    request? mailbox script own shared =
      (settle mailbox replies script position own shared).requests.head? := by
  induction script generalizing own shared with
  | nil => rfl
  | cons statement rest ih =>
      cases statement with
      | touch f => exact ih _ _
      | own f => exact ih _ _
      | leaveIf condition code =>
          simp only [request?, settle]
          split
          · rfl
          · exact ih _ _
      | notify => rfl

theorem Outcome.after_after (first second : List Message) (outcome : Outcome Own Message) :
    (outcome.after second).after first = outcome.after (first ++ second) := by
  simp [after]

end Client

end Uc1Integration.Interaction
