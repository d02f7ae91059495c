import Mathlib.Data.List.Forall2
import Uc1Integration.Interaction.Mailbox

/-!
# Two levels of a mailbox

A client that works on the raw memory, and one that works on what the memory
stands for. When every statement, the mailbox and the interrupt handler do the
same on both levels, every run of the first is a run of the second. So is a run
in which the other party writes only parts of its messages.
-/

set_option autoImplicit false

namespace Uc1Integration.Interaction

variable {Own Raw RawMessage Shared Message : Type}

/-- A statement on the raw memory, and one on what it stands for. -/
inductive Stmt.Mirrors (view : Raw → Shared) (property : Own → Prop) :
    Stmt Own Raw → Stmt Own Shared → Prop where
  | touch {f : Own → Raw → Own × Raw} {g : Own → Shared → Own × Shared} :
      (∀ own raw, property own →
        g own (view raw) = ((f own raw).1, view (f own raw).2) ∧ property (f own raw).1) →
      Mirrors view property (.touch f) (.touch g)
  | own {f : Own → Own} : (∀ own, property own → property (f own)) →
      Mirrors view property (.own f) (.own f)
  | leaveIf {condition : Own → Bool} {code : Int} :
      Mirrors view property (.leaveIf condition code) (.leaveIf condition code)
  | notify : Mirrors view property .notify .notify

structure Mailbox.Mirrors (view : Raw → Shared) (viewMessage : RawMessage → Message)
    (raw : Mailbox Raw RawMessage) (mailbox : Mailbox Shared Message) : Prop where
  read : ∀ shared, viewMessage (raw.read shared) = mailbox.read (view shared)
  put : ∀ message shared,
    view (raw.put message shared) = mailbox.put (viewMessage message) (view shared)
  handle : ∀ shared, view (raw.handle shared) = mailbox.handle (view shared)

namespace Client

/-- What a client stands for, in the middle of the other script. -/
def viewed (view : Raw → Shared) (viewMessage : RawMessage → Message)
    (client : Client Own Raw RawMessage) (rest : List (Stmt Own Shared)) :
    Client Own Shared Message where
  own := client.own
  shared := view client.shared
  rest
  result := client.result
  requests := client.requests.map viewMessage
  waiting := client.waiting
  replies := client.replies.map fun reply => (reply.1, viewMessage reply.2)
  raised := client.raised

/-- What the one regime allows, the other does. -/
structure Regime.Mirrors (view : Raw → Shared) (viewMessage : RawMessage → Message)
    (raw : Regime Own Raw RawMessage) (regime : Regime Own Shared Message) : Prop where
  mayTouch : ∀ client rest, raw.mayTouch client →
    regime.mayTouch (client.viewed view viewMessage rest)
  accepts : ∀ position request message, raw.accepts position request message →
    regime.accepts position (viewMessage request) (viewMessage message)

theorem Regime.Mirrors.any (view : Raw → Shared) (viewMessage : RawMessage → Message) :
    @Regime.Mirrors Own _ _ _ _ view viewMessage .any .any :=
  ⟨fun _ _ _ => trivial, fun _ _ _ _ => trivial⟩

theorem Regime.Mirrors.timely {view : Raw → Shared} {viewMessage : RawMessage → Message}
    {rawAccepts : Nat → RawMessage → RawMessage → Prop}
    {accepts : Nat → Message → Message → Prop}
    (mirrors : ∀ position request message, rawAccepts position request message →
      accepts position (viewMessage request) (viewMessage message)) :
    @Regime.Mirrors Own _ _ _ _ view viewMessage (.timely rawAccepts) (.timely accepts) :=
  ⟨fun _ _ settled => ⟨settled.waiting, settled.raised⟩, mirrors⟩

section Simulation

variable {view : Raw → Shared} {viewMessage : RawMessage → Message} {property : Own → Prop}
  {rawMailbox : Mailbox Raw RawMessage} {mailbox : Mailbox Shared Message}
  {rawRegime : Regime Own Raw RawMessage} {regime : Regime Own Shared Message}

theorem step_viewed (mailboxes : rawMailbox.Mirrors view viewMessage mailbox)
    (regimes : Regime.Mirrors view viewMessage rawRegime regime)
    {client client' : Client Own Raw RawMessage} {rest : List (Stmt Own Shared)}
    (step : Step rawMailbox rawRegime client client') (holds : property client.own)
    (scripts : client.rest.Forall₂ (Stmt.Mirrors view property) rest) :
    ∃ rest', Step mailbox regime (client.viewed view viewMessage rest)
        (client'.viewed view viewMessage rest') ∧
      property client'.own ∧ client'.rest.Forall₂ (Stmt.Mirrors view property) rest' := by
  -- the other script has the mirror image of the next statement ahead
  have image : ∀ {statement : Stmt Own Raw} {later : List (Stmt Own Raw)},
      client.rest = statement :: later → ∃ other otherLater,
        Stmt.Mirrors view property statement other ∧
        later.Forall₂ (Stmt.Mirrors view property) otherLater ∧ rest = other :: otherLater := by
    intro statement later next
    rw [next] at scripts
    exact List.forall₂_cons_left_iff.mp scripts
  cases step with
  | touch running next may =>
      obtain ⟨_, later, head, tail, rfl⟩ := image next
      cases head with
      | @touch f g mirrors =>
          obtain ⟨same, kept⟩ := mirrors client.own client.shared holds
          have stepped : Step mailbox regime (client.viewed view viewMessage (.touch g :: later))
              { client.viewed view viewMessage later with
                own := (g client.own (view client.shared)).1
                shared := (g client.own (view client.shared)).2 } :=
            .touch running rfl (regimes.mayTouch _ _ may)
          rw [same] at stepped
          exact ⟨later, stepped, kept, tail⟩
  | own running next =>
      obtain ⟨_, later, head, tail, rfl⟩ := image next
      cases head with
      | own keeps => exact ⟨later, .own running rfl, keeps _ holds, tail⟩
  | leave running next leaves =>
      obtain ⟨_, later, head, _, rfl⟩ := image next
      cases head with
      | leaveIf => exact ⟨[], .leave running rfl leaves, holds, .nil⟩
  | stay running next stays =>
      obtain ⟨_, later, head, tail, rfl⟩ := image next
      cases head with
      | leaveIf => exact ⟨later, .stay running rfl stays, holds, tail⟩
  | notify running next may =>
      obtain ⟨_, later, head, tail, rfl⟩ := image next
      cases head with
      | notify =>
          have stepped : Step mailbox regime (client.viewed view viewMessage (.notify :: later))
              { client.viewed view viewMessage later with
                requests := client.requests.map viewMessage ++
                  [mailbox.read (view client.shared)]
                waiting := client.waiting ++ [(client.requests.map viewMessage).length] } :=
            .notify running rfl (regimes.mayTouch _ _ may)
          refine ⟨later, ?_, holds, tail⟩
          rw [← mailboxes.read, List.length_map] at stepped
          simpa only [viewed, List.map_append, List.map_cons, List.map_nil] using stepped
  | finish running ended =>
      rw [ended] at scripts
      cases scripts with
      | nil => exact ⟨[], .finish running rfl, holds, ended ▸ .nil⟩
  | @reply before after position request message waits asked accepts =>
      have there : (client.requests.map viewMessage)[position]? = some (viewMessage request) := by
        rw [List.getElem?_map, asked, Option.map_some]
      have stepped : Step mailbox regime (client.viewed view viewMessage rest)
          { client.viewed view viewMessage rest with
            shared := mailbox.put (viewMessage message) (view client.shared)
            waiting := before ++ after
            replies := (client.viewed view viewMessage rest).replies ++
              [(position, viewMessage message)]
            raised := client.raised + 1 } :=
        .reply waits there (regimes.accepts _ _ _ accepts)
      refine ⟨rest, ?_, holds, scripts⟩
      rw [← mailboxes.put] at stepped
      simpa only [viewed, List.map_append, List.map_cons, List.map_nil] using stepped
  | @handle raised pending =>
      have stepped : Step mailbox regime (client.viewed view viewMessage rest)
          { client.viewed view viewMessage rest with
            shared := mailbox.handle (view client.shared)
            raised } := .handle pending
      refine ⟨rest, ?_, holds, scripts⟩
      rw [← mailboxes.handle] at stepped
      exact stepped

/-- A run on the raw memory is, seen through the view, a run on what it stands for. -/
theorem reaches_viewed (mailboxes : rawMailbox.Mirrors view viewMessage mailbox)
    (regimes : Regime.Mirrors view viewMessage rawRegime regime) {own : Own} {raw : Raw}
    {rawScript : List (Stmt Own Raw)} {script : List (Stmt Own Shared)}
    (scripts : rawScript.Forall₂ (Stmt.Mirrors view property) script) (holds : property own)
    {client : Client Own Raw RawMessage}
    (reaches : Reaches rawMailbox rawRegime (start own raw rawScript) client) :
    ∃ rest, Reaches mailbox regime (start own (view raw) script)
      (client.viewed view viewMessage rest) := by
  suffices ∃ rest, Reaches mailbox regime (start own (view raw) script)
        (client.viewed view viewMessage rest) ∧ property client.own ∧
      client.rest.Forall₂ (Stmt.Mirrors view property) rest by
    obtain ⟨rest, viewed, _⟩ := this
    exact ⟨rest, viewed⟩
  induction reaches with
  | refl => exact ⟨script, .refl, holds, scripts⟩
  | tail _ step ih =>
      obtain ⟨rest, before, stillHolds, onward⟩ := ih
      obtain ⟨rest', stepped, both⟩ := step_viewed mailboxes regimes step stillHolds onward
      exact ⟨rest', before.tail stepped, both⟩

/-- What the one regime allows of a client seen through the view, the other does of
the client itself. -/
structure Regime.Reflects (view : Raw → Shared) (viewMessage : RawMessage → Message)
    (raw : Regime Own Raw RawMessage) (regime : Regime Own Shared Message) : Prop where
  mayTouch : ∀ client rest, regime.mayTouch (client.viewed view viewMessage rest) →
    raw.mayTouch client
  accepts : ∀ position request message, regime.accepts position (viewMessage request) message →
    ∃ rawMessage, viewMessage rawMessage = message ∧ raw.accepts position request rawMessage

theorem step_of_viewed (mailboxes : rawMailbox.Mirrors view viewMessage mailbox)
    (regimes : Regime.Reflects view viewMessage rawRegime regime)
    {client : Client Own Raw RawMessage} {rest : List (Stmt Own Shared)}
    {next : Client Own Shared Message}
    (step : Step mailbox regime (client.viewed view viewMessage rest) next)
    (holds : property client.own)
    (scripts : client.rest.Forall₂ (Stmt.Mirrors view property) rest) :
    ∃ client' rest', Step rawMailbox rawRegime client client' ∧
      next = client'.viewed view viewMessage rest' ∧ property client'.own ∧
      client'.rest.Forall₂ (Stmt.Mirrors view property) rest' := by
  -- the raw script has the mirror image of the next statement ahead
  have image : ∀ {statement : Stmt Own Shared} {later : List (Stmt Own Shared)},
      rest = statement :: later → ∃ raw rawLater, Stmt.Mirrors view property raw statement ∧
        rawLater.Forall₂ (Stmt.Mirrors view property) later ∧ client.rest = raw :: rawLater := by
    intro statement later ahead
    rw [ahead] at scripts
    exact List.forall₂_cons_right_iff.mp scripts
  cases step with
  | touch running ahead may =>
      obtain ⟨raw, rawLater, head, tail, rawAhead⟩ := image ahead
      cases head with
      | touch mirrors =>
          obtain ⟨same, kept⟩ := mirrors client.own client.shared holds
          refine ⟨_, _, .touch running rawAhead (regimes.mayTouch _ _ may), ?_, kept, tail⟩
          dsimp only [viewed]
          rw [same]
  | own running ahead =>
      obtain ⟨raw, rawLater, head, tail, rawAhead⟩ := image ahead
      cases head with
      | own keeps => exact ⟨_, _, .own running rawAhead, rfl, keeps _ holds, tail⟩
  | leave running ahead leaves =>
      obtain ⟨raw, rawLater, head, _, rawAhead⟩ := image ahead
      cases head with
      | leaveIf => exact ⟨_, [], .leave running rawAhead leaves, rfl, holds, .nil⟩
  | stay running ahead stays =>
      obtain ⟨raw, rawLater, head, tail, rawAhead⟩ := image ahead
      cases head with
      | leaveIf => exact ⟨_, _, .stay running rawAhead stays, rfl, holds, tail⟩
  | notify running ahead may =>
      obtain ⟨raw, rawLater, head, tail, rawAhead⟩ := image ahead
      cases head with
      | notify =>
          refine ⟨_, _, .notify running rawAhead (regimes.mayTouch _ _ may), ?_, holds, tail⟩
          simp only [viewed, List.map_append, List.map_cons, List.map_nil, List.length_map,
            mailboxes.read]
  | finish running ended =>
      change rest = [] at ended
      rw [ended] at scripts
      have rawEnded := List.forall₂_nil_right_iff.mp scripts
      exact ⟨_, rest, .finish running rawEnded, rfl, holds, by rw [ended, rawEnded]; exact .nil⟩
  | @reply before after position request message waits asked accepts =>
      change (client.requests.map viewMessage)[position]? = _ at asked
      rw [List.getElem?_map, Option.map_eq_some_iff] at asked
      obtain ⟨rawRequest, there, rfl⟩ := asked
      obtain ⟨rawMessage, rfl, accepted⟩ := regimes.accepts _ _ _ accepts
      refine ⟨_, rest, .reply waits there accepted, ?_, holds, scripts⟩
      simp only [viewed, List.map_append, List.map_cons, List.map_nil, mailboxes.put]
  | @handle raised pending =>
      refine ⟨_, rest, .handle pending, ?_, holds, scripts⟩
      simp only [viewed, mailboxes.handle]

/-- A run on what the memory stands for is one on the memory. -/
theorem reaches_of_viewed (mailboxes : rawMailbox.Mirrors view viewMessage mailbox)
    (regimes : Regime.Reflects view viewMessage rawRegime regime) {own : Own} {raw : Raw}
    {rawScript : List (Stmt Own Raw)} {script : List (Stmt Own Shared)}
    (scripts : rawScript.Forall₂ (Stmt.Mirrors view property) script) (holds : property own)
    {client : Client Own Shared Message}
    (reaches : Reaches mailbox regime (start own (view raw) script) client) :
    ∃ rawClient rest, Reaches rawMailbox rawRegime (start own raw rawScript) rawClient ∧
      client = rawClient.viewed view viewMessage rest := by
  suffices ∃ rawClient rest, Reaches rawMailbox rawRegime (start own raw rawScript) rawClient ∧
        client = rawClient.viewed view viewMessage rest ∧ property rawClient.own ∧
      rawClient.rest.Forall₂ (Stmt.Mirrors view property) rest by
    obtain ⟨rawClient, rest, rawReaches, same, _⟩ := this
    exact ⟨rawClient, rest, rawReaches, same⟩
  induction reaches with
  | refl => exact ⟨start own raw rawScript, script, .refl, rfl, holds, scripts⟩
  | tail _ step ih =>
      obtain ⟨rawClient, rest, rawReaches, rfl, stillHolds, onward⟩ := ih
      obtain ⟨rawNext, rest', stepped, same, both⟩ :=
        step_of_viewed mailboxes regimes step stillHolds onward
      exact ⟨rawNext, rest', rawReaches.tail stepped, same, both⟩

end Simulation

/-!
## Parts of a message
-/

/-- A part of a message does what the message does that it leaves behind. -/
structure Completes {Part : Type} (view : Part → Message) (leaves : Part → Shared → Message)
    (parts : Mailbox Shared Part) (mailbox : Mailbox Shared Message) : Prop where
  read : ∀ shared, view (parts.read shared) = mailbox.read shared
  put : ∀ part shared, parts.put part shared = mailbox.put (leaves part shared) shared
  handle : ∀ shared, parts.handle shared = mailbox.handle shared

section Parts

variable {Part : Type} {view : Part → Message} {leaves : Part → Shared → Message}
  {parts : Mailbox Shared Part} {mailbox : Mailbox Shared Message}

/-- The client with whole messages as its replies. -/
def completed (view : Part → Message) (client : Client Own Shared Part)
    (replies : List (Nat × Message)) : Client Own Shared Message where
  own := client.own
  shared := client.shared
  rest := client.rest
  result := client.result
  requests := client.requests.map view
  waiting := client.waiting
  replies
  raised := client.raised

/-- A message is what a part of it left behind. -/
def LeftBy (leaves : Part → Shared → Message) (part : Nat × Part) (message : Nat × Message) :
    Prop :=
  message.1 = part.1 ∧ ∃ shared, message.2 = leaves part.2 shared

theorem exists_part {written : List (Nat × Part)} {replies : List (Nat × Message)}
    (left : written.Forall₂ (LeftBy leaves) replies) {position : Nat} {message : Message}
    (member : (position, message) ∈ replies) :
    ∃ part shared, (position, part) ∈ written ∧ message = leaves part shared := by
  induction left with
  | nil => cases member
  | @cons part _ _ _ here _ ih =>
      rcases List.mem_cons.mp member with rfl | later
      · obtain ⟨same, shared, rfl⟩ := here
        exact ⟨part.2, shared, by rw [← show part.1 = position from same.symm]; simp, rfl⟩
      · obtain ⟨other, shared, inside, same⟩ := ih later
        exact ⟨other, shared, List.mem_cons_of_mem _ inside, same⟩

variable {partAccepts : Nat → Part → Part → Prop} {accepts : Nat → Message → Message → Prop}

theorem step_completed (completes : Completes view leaves parts mailbox)
    (accepted : ∀ position request part shared, partAccepts position request part →
      accepts position (view request) (leaves part shared))
    {client client' : Client Own Shared Part} {replies : List (Nat × Message)}
    (step : Step parts (.timely partAccepts) client client')
    (left : client.replies.Forall₂ (LeftBy leaves) replies) :
    ∃ replies', Step mailbox (.timely accepts) (client.completed view replies)
        (client'.completed view replies') ∧
      client'.replies.Forall₂ (LeftBy leaves) replies' := by
  cases step with
  | touch running next settled =>
      exact ⟨replies, .touch running next ⟨settled.waiting, settled.raised⟩, left⟩
  | own running next => exact ⟨replies, .own running next, left⟩
  | leave running next holds => exact ⟨replies, .leave running next holds, left⟩
  | stay running next holds => exact ⟨replies, .stay running next holds, left⟩
  | finish running ended => exact ⟨replies, .finish running ended, left⟩
  | notify running next settled =>
      have stepped : Step mailbox (.timely accepts) (client.completed view replies) _ :=
        .notify running next ⟨settled.waiting, settled.raised⟩
      refine ⟨replies, ?_, left⟩
      simpa only [completed, List.map_append, List.map_cons, List.map_nil, List.length_map,
        completes.read] using stepped
  | @reply before after position request part waits asked isAccepted =>
      have there : (client.requests.map view)[position]? = some (view request) := by
        rw [List.getElem?_map, asked, Option.map_some]
      have stepped : Step mailbox (.timely accepts) (client.completed view replies) _ :=
        .reply waits there (accepted position request part client.shared isAccepted)
      refine ⟨replies ++ [(position, leaves part client.shared)], ?_,
        List.rel_append left (.cons ⟨rfl, client.shared, rfl⟩ .nil)⟩
      simpa only [completed, completes.put] using stepped
  | handle pending =>
      have stepped : Step mailbox (.timely accepts) (client.completed view replies) _ :=
        .handle pending
      refine ⟨replies, ?_, left⟩
      simpa only [completed, completes.handle] using stepped

/-- A timely run with parts of messages is one with the messages they leave behind. -/
theorem reaches_completed (completes : Completes view leaves parts mailbox)
    (accepted : ∀ position request part shared, partAccepts position request part →
      accepts position (view request) (leaves part shared))
    {own : Own} {shared : Shared} {script : List (Stmt Own Shared)}
    {client : Client Own Shared Part}
    (reaches : Reaches parts (.timely partAccepts) (start own shared script) client) :
    ∃ replies, Reaches mailbox (.timely accepts) (start own shared script)
        (client.completed view replies) ∧
      client.replies.Forall₂ (LeftBy leaves) replies := by
  induction reaches with
  | refl => exact ⟨[], .refl, .nil⟩
  | tail _ step ih =>
      obtain ⟨replies, before, left⟩ := ih
      obtain ⟨replies', stepped, left'⟩ := step_completed completes accepted step left
      exact ⟨replies', before.tail stepped, left'⟩

end Parts

end Client

end Uc1Integration.Interaction
