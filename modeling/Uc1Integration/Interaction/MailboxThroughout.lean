import Uc1Integration.Interaction.Mailbox

/-!
# What holds all through a timely run

A condition on the shared memory at every point of a script, whatever the
acceptable replies are, computed backwards from the end of the script. It then
holds in every state of every timely run.
-/

set_option autoImplicit false

namespace Uc1Integration.Interaction

variable {Own Shared Message : Type}

namespace Client

section Closed

variable (mailbox : Mailbox Shared Message) (accepts : Nat → Message → Message → Prop)
  (condition : Shared → Prop) (onward : List (Stmt Own Shared) → Own → Shared → Prop)

/-- What is said of a script and the memory it finds is still so behind a statement, and
behind a reply and its interrupt; the condition follows from it. -/
structure Closed : Prop where
  now : ∀ {script own shared}, onward script own shared → condition shared
  touch : ∀ {f rest own shared}, onward (.touch f :: rest) own shared →
    onward rest (f own shared).1 (f own shared).2
  own : ∀ {f rest own shared}, onward (.own f :: rest) own shared → onward rest (f own) shared
  stay : ∀ {leaves code rest own shared}, onward (.leaveIf leaves code :: rest) own shared →
    leaves own = false → onward rest own shared
  notify : ∀ {rest own shared}, onward (.notify :: rest) own shared →
    ∀ position message, accepts position (mailbox.read shared) message →
      condition (mailbox.put message shared) ∧
      onward rest own (mailbox.handle (mailbox.put message shared))

/-- The shared memory that the next statement may find. -/
inductive Finds (client : Client Own Shared Message) : Shared → Prop where
  | settled : client.Settled → Finds client client.shared
  | raised : client.waiting = [] → client.raised = 1 →
      Finds client (mailbox.handle client.shared)
  | waiting {position : Nat} {message : Message} : client.waiting = [position] →
      client.raised = 0 → accepts position (mailbox.read client.shared) message →
      Finds client (mailbox.handle (mailbox.put message client.shared))

/-- The condition now, after the reply that is due, and at every later point. -/
structure Upholds (client : Client Own Shared Message) : Prop where
  now : condition client.shared
  single : client.waiting.length + client.raised ≤ 1
  asked : ∀ position, client.waiting = [position] →
    client.requests[position]? = some (mailbox.read client.shared)
  replied : ∀ position message, client.waiting = [position] →
    accepts position (mailbox.read client.shared) message →
    condition (mailbox.put message client.shared)
  found : ∀ shared, Finds mailbox accepts client shared → condition shared
  onward : client.result = none → ∀ shared, Finds mailbox accepts client shared →
    onward client.rest client.own shared

end Closed

variable {mailbox : Mailbox Shared Message} {accepts : Nat → Message → Message → Prop}
  {condition : Shared → Prop} {onward : List (Stmt Own Shared) → Own → Shared → Prop}

theorem Finds.eq_of_settled {client : Client Own Shared Message} {shared : Shared}
    (finds : Finds mailbox accepts client shared) (settled : client.Settled) :
    shared = client.shared := by
  cases finds with
  | settled => rfl
  | raised _ raised =>
      rw [settled.raised] at raised
      cases raised
  | waiting waiting =>
      rw [settled.waiting] at waiting
      cases waiting

/-- A statement that leaves the shared memory alone does not change what is found. -/
theorem Finds.move {client : Client Own Shared Message} {own : Own}
    {rest : List (Stmt Own Shared)} {result : Option Int} {shared : Shared}
    (finds : Finds mailbox accepts { client with own, rest, result } shared) :
    Finds mailbox accepts client shared := by
  cases finds with
  | settled settled => exact .settled ⟨settled.waiting, settled.raised⟩
  | raised answered raised => exact .raised answered raised
  | waiting waiting quiet accepted => exact .waiting waiting quiet accepted

theorem Upholds.move {client : Client Own Shared Message} {own : Own}
    {rest : List (Stmt Own Shared)} {result : Option Int}
    (upholds : Upholds mailbox accepts condition onward client)
    (moves : result = none → ∀ shared, Finds mailbox accepts client shared →
      onward rest own shared) :
    Upholds mailbox accepts condition onward { client with own, rest, result } where
  now := upholds.now
  single := upholds.single
  asked := upholds.asked
  replied := upholds.replied
  found := fun shared finds => upholds.found shared finds.move
  onward := fun running shared finds => moves running shared finds.move

/-- The memory of a client with nothing due. -/
theorem upholds_of_settled {client : Client Own Shared Message} (settled : client.Settled)
    (holds : condition client.shared)
    (goesOn : client.result = none → onward client.rest client.own client.shared) :
    Upholds mailbox accepts condition onward client where
  now := holds
  single := by
    rw [settled.waiting, settled.raised]
    exact Nat.zero_le 1
  asked := by
    intro position waiting
    rw [settled.waiting] at waiting
    cases waiting
  replied := by
    intro position message waiting
    rw [settled.waiting] at waiting
    cases waiting
  found := by
    intro shared finds
    rw [finds.eq_of_settled settled]
    exact holds
  onward := by
    intro running shared finds
    rw [finds.eq_of_settled settled]
    exact goesOn running

/-- A client whose one request is not yet answered. -/
theorem upholds_of_waiting (closed : Closed mailbox accepts condition onward)
    {client : Client Own Shared Message} {position : Nat}
    (waiting : client.waiting = [position]) (quiet : client.raised = 0)
    (asked : client.requests[position]? = some (mailbox.read client.shared))
    (holds : condition client.shared)
    (replies : ∀ message, accepts position (mailbox.read client.shared) message →
      condition (mailbox.put message client.shared) ∧
      onward client.rest client.own (mailbox.handle (mailbox.put message client.shared))) :
    Upholds mailbox accepts condition onward client := by
  have last : ∀ {other : Nat}, client.waiting = [other] → position = other := by
    intro other same
    rw [waiting] at same
    exact (List.cons.inj same).1
  have goesOn : ∀ shared, Finds mailbox accepts client shared →
      onward client.rest client.own shared := by
    intro shared finds
    cases finds with
    | settled settled => exact absurd (waiting.symm.trans settled.waiting) (List.cons_ne_nil _ _)
    | raised answered => exact absurd (waiting.symm.trans answered) (List.cons_ne_nil _ _)
    | waiting still _ accepted =>
        cases last still
        exact (replies _ accepted).2
  constructor
  · exact holds
  · rw [waiting, quiet]
    exact Nat.le_refl 1
  · intro other same
    rw [← last same]
    exact asked
  · intro other message same accepted
    cases last same
    exact (replies message accepted).1
  · exact fun shared finds => closed.now (goesOn shared finds)
  · exact fun _ => goesOn

/-- A client whose handler has not yet run. -/
theorem upholds_of_raised {client : Client Own Shared Message} (answered : client.waiting = [])
    (raised : client.raised = 1) (holds : condition client.shared)
    (handled : condition (mailbox.handle client.shared))
    (goesOn : client.result = none →
      onward client.rest client.own (mailbox.handle client.shared)) :
    Upholds mailbox accepts condition onward client := by
  have waits : ∀ {position : Nat}, client.waiting ≠ [position] := by
    intro position same
    exact absurd (same.symm.trans answered) (List.cons_ne_nil _ _)
  have only : ∀ {shared : Shared}, Finds mailbox accepts client shared →
      shared = mailbox.handle client.shared := by
    intro shared finds
    cases finds with
    | settled settled => exact absurd (raised.symm.trans settled.raised) Nat.one_ne_zero
    | raised => rfl
    | waiting waiting => exact absurd waiting waits
  constructor
  · exact holds
  · rw [answered, raised]
    exact Nat.le_refl 1
  · exact fun _ same => absurd same waits
  · exact fun _ _ same => absurd same waits
  · intro shared finds
    rw [only finds]
    exact handled
  · intro running shared finds
    rw [only finds]
    exact goesOn running

theorem Upholds.of_step (closed : Closed mailbox accepts condition onward)
    {client client' : Client Own Shared Message}
    (upholds : Upholds mailbox accepts condition onward client)
    (step : Step mailbox (.timely accepts) client client') :
    Upholds mailbox accepts condition onward client' := by
  cases step with
  | touch running next settled =>
      have here := upholds.onward running _ (.settled settled)
      rw [next] at here
      have after := closed.touch here
      exact upholds_of_settled ⟨settled.waiting, settled.raised⟩ (closed.now after) fun _ => after
  | own running next =>
      refine upholds.move fun _ shared finds => ?_
      have here := upholds.onward running shared finds
      rw [next] at here
      exact closed.own here
  | leave => exact upholds.move nofun
  | stay running next stays =>
      refine upholds.move fun _ shared finds => ?_
      have here := upholds.onward running shared finds
      rw [next] at here
      exact closed.stay here stays
  | finish => exact upholds.move nofun
  | notify running next settled =>
      have here := upholds.onward running _ (.settled settled)
      rw [next] at here
      have alone : client.waiting ++ [client.requests.length] = [client.requests.length] := by
        rw [settled.waiting, List.nil_append]
      exact upholds_of_waiting closed alone settled.raised List.getElem?_concat_length
        (closed.now here) (closed.notify here _)
  | @reply before after position request message waits asked accepted =>
      have single := upholds.single
      rw [waits, List.length_append, List.length_cons] at single
      have lone : before = [] ∧ after = [] := by
        constructor <;> apply List.eq_nil_of_length_eq_zero <;> omega
      obtain ⟨rfl, rfl⟩ := lone
      have quiet : client.raised = 0 := by omega
      have same := upholds.asked position waits
      rw [asked] at same
      cases same
      have due : Finds mailbox accepts client
          (mailbox.handle (mailbox.put message client.shared)) := .waiting waits quiet accepted
      exact upholds_of_raised rfl (by rw [quiet]) (upholds.replied position message waits accepted)
        (upholds.found _ due) fun running => upholds.onward running _ due
  | @handle raised pending =>
      have single := upholds.single
      have none : client.waiting = [] := List.eq_nil_of_length_eq_zero (by omega)
      have one : client.raised = 1 := by omega
      have last : raised = 0 := by omega
      have due : Finds mailbox accepts client (mailbox.handle client.shared) := .raised none one
      exact upholds_of_settled ⟨none, last⟩ (upholds.found _ due)
        fun running => upholds.onward running _ due

theorem Closed.upholds (closed : Closed mailbox accepts condition onward) {own : Own}
    {shared : Shared} {script : List (Stmt Own Shared)} (begins : onward script own shared)
    {client : Client Own Shared Message}
    (reaches : Reaches mailbox (.timely accepts) (start own shared script) client) :
    Upholds mailbox accepts condition onward client := by
  induction reaches with
  | refl => exact upholds_of_settled ⟨rfl, rfl⟩ (closed.now begins) fun _ => begins
  | tail _ step ih => exact ih.of_step closed step

/-!
## Conditions on the shared memory
-/

section Throughout

variable (mailbox : Mailbox Shared Message) (accepts : Nat → Message → Message → Prop)
  (condition : Shared → Prop)

def Throughout : List (Stmt Own Shared) → Own → Shared → Prop
  | [], _, shared => condition shared
  | .touch f :: rest, own, shared =>
      condition shared ∧ Throughout rest (f own shared).1 (f own shared).2
  | .own f :: rest, own, shared => Throughout rest (f own) shared
  | .leaveIf leaves _ :: rest, own, shared =>
      condition shared ∧ (leaves own = false → Throughout rest own shared)
  | .notify :: rest, own, shared =>
      condition shared ∧ ∀ position message, accepts position (mailbox.read shared) message →
        condition (mailbox.put message shared) ∧
        Throughout rest own (mailbox.handle (mailbox.put message shared))

end Throughout

theorem Throughout.now {script : List (Stmt Own Shared)} {own : Own} {shared : Shared}
    (throughout : Throughout mailbox accepts condition script own shared) : condition shared := by
  induction script generalizing own with
  | nil => exact throughout
  | cons statement rest ih =>
      cases statement with
      | touch f => exact throughout.1
      | own f => exact ih throughout
      | leaveIf leaves code => exact throughout.1
      | notify => exact throughout.1

theorem closed_throughout (mailbox : Mailbox Shared Message)
    (accepts : Nat → Message → Message → Prop) (condition : Shared → Prop) :
    Closed mailbox accepts condition
      (Throughout mailbox accepts condition : List (Stmt Own Shared) → Own → Shared → Prop) where
  now := Throughout.now
  touch := fun throughout => throughout.2
  own := fun throughout => throughout
  stay := fun throughout stays => throughout.2 stays
  notify := fun throughout => throughout.2

/-- What holds throughout a script holds in every state of its timely runs. -/
theorem Throughout.holds {own : Own} {shared : Shared} {script : List (Stmt Own Shared)}
    (throughout : Throughout mailbox accepts condition script own shared)
    {client : Client Own Shared Message}
    (reaches : Reaches mailbox (.timely accepts) (start own shared script) client) :
    condition client.shared :=
  ((closed_throughout mailbox accepts condition).upholds throughout reaches).now

/-- A statement that keeps the condition wherever it stands. -/
def Preserves (mailbox : Mailbox Shared Message) (accepts : Nat → Message → Message → Prop)
    (condition : Shared → Prop) : Stmt Own Shared → Prop
  | .touch f => ∀ own shared, condition shared → condition (f own shared).2
  | .own _ => True
  | .leaveIf _ _ => True
  | .notify => ∀ shared, condition shared → ∀ position message,
      accepts position (mailbox.read shared) message →
      condition (mailbox.put message shared) ∧
      condition (mailbox.handle (mailbox.put message shared))

theorem throughout_append {script rest : List (Stmt Own Shared)}
    (preserves : ∀ statement ∈ script, Preserves mailbox accepts condition statement)
    (onward : ∀ own shared, condition shared →
      Throughout mailbox accepts condition rest own shared)
    {own : Own} {shared : Shared} (holds : condition shared) :
    Throughout mailbox accepts condition (script ++ rest) own shared := by
  induction script generalizing own shared with
  | nil => exact onward own shared holds
  | cons statement script ih =>
      have first := preserves statement List.mem_cons_self
      have others : ∀ {own shared}, condition shared →
          Throughout mailbox accepts condition (script ++ rest) own shared :=
        ih fun later member => preserves later (List.mem_cons_of_mem _ member)
      cases statement with
      | touch f => exact ⟨holds, others (first own shared holds)⟩
      | own f => exact others holds
      | leaveIf leaves code => exact ⟨holds, fun _ => others holds⟩
      | notify =>
          refine ⟨holds, fun position message accepted => ?_⟩
          obtain ⟨replied, handled⟩ := first shared holds position message accepted
          exact ⟨replied, others handled⟩

theorem throughout_of_preserves {script : List (Stmt Own Shared)}
    (preserves : ∀ statement ∈ script, Preserves mailbox accepts condition statement)
    {own : Own} {shared : Shared} (holds : condition shared) :
    Throughout mailbox accepts condition script own shared := by
  have appended : Throughout mailbox accepts condition (script ++ []) own shared := by
    refine throughout_append preserves (fun _ _ still => ?_) holds
    exact still
  rwa [List.append_nil] at appended

theorem alone_append {first : List (Stmt Own Shared)}
    (assigns : ∀ statement ∈ first, statement.Assigns) (rest : List (Stmt Own Shared)) (own : Own)
    (shared : Shared) :
    alone (first ++ rest) own shared =
      alone rest (alone first own shared).1 (alone first own shared).2 := by
  induction first generalizing own shared with
  | nil => rfl
  | cons statement first ih =>
      have later := ih fun other member => assigns other (List.mem_cons_of_mem _ member)
      cases statement with
      | touch f => exact later _ _
      | own f => exact later _ _
      | leaveIf leaves code => exact (assigns _ List.mem_cons_self).elim
      | notify => exact (assigns _ List.mem_cons_self).elim

/-- Assignments that keep the condition, and what they make of the memory. -/
theorem throughout_assigns {script rest : List (Stmt Own Shared)}
    (assigns : ∀ statement ∈ script, statement.Assigns)
    (preserves : ∀ statement ∈ script, Preserves mailbox accepts condition statement)
    {own : Own} {shared : Shared} (holds : condition shared)
    (onward : condition (alone script own shared).2 →
      Throughout mailbox accepts condition rest (alone script own shared).1
        (alone script own shared).2) :
    Throughout mailbox accepts condition (script ++ rest) own shared := by
  induction script generalizing own shared with
  | nil => exact onward holds
  | cons statement script ih =>
      have first := preserves statement List.mem_cons_self
      have assignsLater := fun later member => assigns later (List.mem_cons_of_mem statement member)
      have keepsLater := fun later member => preserves later (List.mem_cons_of_mem statement member)
      cases statement with
      | touch f => exact ⟨holds, ih assignsLater keepsLater (first own shared holds) onward⟩
      | own f => exact ih assignsLater keepsLater holds onward
      | leaveIf leaves code => exact (assigns _ List.mem_cons_self).elim
      | notify => exact (assigns _ List.mem_cons_self).elim

/-!
## What a statement finds
-/

section Finding

variable (mailbox : Mailbox Shared Message) (accepts : Nat → Message → Message → Prop)
  (check : (Own → Shared → Own × Shared) → Own → Shared → Prop)

/-- The statements on the shared memory, each with the memory it finds. -/
def Finding : List (Stmt Own Shared) → Own → Shared → Prop
  | [], _, _ => True
  | .touch f :: rest, own, shared =>
      check f own shared ∧ Finding rest (f own shared).1 (f own shared).2
  | .own f :: rest, own, shared => Finding rest (f own) shared
  | .leaveIf leaves _ :: rest, own, shared => leaves own = false → Finding rest own shared
  | .notify :: rest, own, shared =>
      ∀ position message, accepts position (mailbox.read shared) message →
        Finding rest own (mailbox.handle (mailbox.put message shared))

end Finding

variable {check : (Own → Shared → Own × Shared) → Own → Shared → Prop}

theorem closed_finding (mailbox : Mailbox Shared Message)
    (accepts : Nat → Message → Message → Prop)
    (check : (Own → Shared → Own × Shared) → Own → Shared → Prop) :
    Closed mailbox accepts (fun _ => True) (Finding mailbox accepts check) where
  now := fun _ => trivial
  touch := fun finding => finding.2
  own := fun finding => finding
  stay := fun finding stays => finding stays
  notify := fun finding position message accepted => ⟨trivial, finding position message accepted⟩

theorem Finding.holds {own : Own} {shared : Shared} {script : List (Stmt Own Shared)}
    (finding : Finding mailbox accepts check script own shared)
    {client : Client Own Shared Message}
    (reaches : Reaches mailbox (.timely accepts) (start own shared script) client)
    (running : client.result = none) (settled : client.Settled)
    {f : Own → Shared → Own × Shared} {rest : List (Stmt Own Shared)}
    (next : client.rest = .touch f :: rest) : check f client.own client.shared := by
  have upholds := (closed_finding mailbox accepts check).upholds finding reaches
  have here := upholds.onward running _ (.settled settled)
  rw [next] at here
  exact here.1

/-- A statement that keeps the property, and is fine wherever it holds. -/
structure Quiet (property : Own → Prop)
    (check : (Own → Shared → Own × Shared) → Own → Shared → Prop)
    (statement : Stmt Own Shared) : Prop where
  keeps : statement.Keeps property
  fine : ∀ f, statement = .touch f → ∀ own shared, property own → check f own shared

theorem finding_append {property : Own → Prop} {script rest : List (Stmt Own Shared)}
    (quiet : ∀ statement ∈ script, Quiet property check statement)
    (later : ∀ own shared, property own → Finding mailbox accepts check rest own shared)
    {own : Own} {shared : Shared} (holds : property own) :
    Finding mailbox accepts check (script ++ rest) own shared := by
  induction script generalizing own shared with
  | nil => exact later own shared holds
  | cons statement script ih =>
      obtain ⟨keeps, fine⟩ := quiet statement List.mem_cons_self
      have others : ∀ {own shared}, property own →
          Finding mailbox accepts check (script ++ rest) own shared :=
        ih fun later member => quiet later (List.mem_cons_of_mem _ member)
      cases statement with
      | touch f => exact ⟨fine f rfl own shared holds, others (keeps own shared holds)⟩
      | own f => exact others (keeps own holds)
      | leaveIf leaves code => exact fun _ => others holds
      | notify => exact fun _ _ _ => others holds

/-- Assignments, and what they make of the memory. -/
theorem finding_assigns {property : Own → Prop} {script rest : List (Stmt Own Shared)}
    (assigns : ∀ statement ∈ script, statement.Assigns)
    (quiet : ∀ statement ∈ script, Quiet property check statement)
    {own : Own} {shared : Shared} (holds : property own)
    (later : property (alone script own shared).1 →
      Finding mailbox accepts check rest (alone script own shared).1
        (alone script own shared).2) :
    Finding mailbox accepts check (script ++ rest) own shared := by
  induction script generalizing own shared with
  | nil => exact later holds
  | cons statement script ih =>
      obtain ⟨keeps, fine⟩ := quiet statement List.mem_cons_self
      have assignsLater := fun later member => assigns later (List.mem_cons_of_mem statement member)
      have quietLater := fun later member => quiet later (List.mem_cons_of_mem statement member)
      cases statement with
      | touch f =>
          exact ⟨fine f rfl own shared holds,
            ih assignsLater quietLater (keeps own shared holds) later⟩
      | own f => exact ih assignsLater quietLater (keeps own holds) later
      | leaveIf leaves code => exact (assigns _ List.mem_cons_self).elim
      | notify => exact (assigns _ List.mem_cons_self).elim

end Client

end Uc1Integration.Interaction
