import Uc1Integration.Interaction.Mailbox

/-!
# Assertions about a client of a mailbox

What one statement of a script establishes still holds at a later point of it,
whatever the other party does, when the statements between keep it and neither
replies nor interrupts break it.
-/

set_option autoImplicit false

namespace Uc1Integration.Interaction

variable {Own Shared Message : Type}

def Stmt.KeepsBoth (property : Own → Shared → Prop) : Stmt Own Shared → Prop
  | .touch f => ∀ own shared, property own shared → property (f own shared).1 (f own shared).2
  | .own f => ∀ own shared, property own shared → property (f own) shared
  | .leaveIf _ _ => True
  | .notify => True

namespace Client

/-- Neither a reply nor an interrupt breaks a property. -/
structure Stable (mailbox : Mailbox Shared Message) (property : Own → Shared → Prop) : Prop where
  put : ∀ own shared message, property own shared → property own (mailbox.put message shared)
  handle : ∀ own shared, property own shared → property own (mailbox.handle shared)

/-- A running client is at some point of its script. -/
theorem suffix_of_reaches {mailbox : Mailbox Shared Message} {regime : Regime Own Shared Message}
    {own : Own} {shared : Shared} {script : List (Stmt Own Shared)}
    {client : Client Own Shared Message}
    (reaches : Reaches mailbox regime (start own shared script) client)
    (running : client.result = none) : client.rest <:+ script := by
  induction reaches with
  | refl => exact List.suffix_refl _
  | tail _ step ih =>
      have behind : ∀ {statement : Stmt Own Shared} {rest before : List (Stmt Own Shared)},
          before = statement :: rest → before <:+ script → rest <:+ script := by
        intro statement rest before next suffix
        rw [next] at suffix
        exact (List.suffix_cons _ _).trans suffix
      cases step with
      | touch was next => exact behind next (ih was)
      | own was next => exact behind next (ih was)
      | leave => cases running
      | stay was next => exact behind next (ih was)
      | notify was next => exact behind next (ih was)
      | finish => cases running
      | reply => exact ih running
      | handle => exact ih running

theorem rest_eq_of_length {mailbox : Mailbox Shared Message} {regime : Regime Own Shared Message}
    {own : Own} {shared : Shared} {script target : List (Stmt Own Shared)}
    {client : Client Own Shared Message}
    (reaches : Reaches mailbox regime (start own shared script) client)
    (running : client.result = none) (suffix : target <:+ script)
    (length : client.rest.length = target.length) : client.rest = target :=
  (List.suffix_of_suffix_length_le (suffix_of_reaches reaches running) suffix
    (Nat.le_of_eq length)).eq_of_length length

/-- A client that returns a code its script does not leave with has executed every
statement of it. -/
theorem passes {mailbox : Mailbox Shared Message} {regime : Regime Own Shared Message}
    {own : Own} {shared : Shared} {before after : List (Stmt Own Shared)}
    {f : Own → Shared → Own × Shared} {code : Int} {client : Client Own Shared Message}
    (stays : ∀ leaves, .leaveIf leaves code ∉ before ++ .touch f :: after)
    (reaches : Reaches mailbox regime (start own shared (before ++ .touch f :: after)) client)
    (returned : client.result = some code) :
    ∃ earlier, Reaches mailbox regime (start own shared (before ++ .touch f :: after)) earlier ∧
      earlier.result = none ∧ earlier.rest = .touch f :: after ∧ regime.mayTouch earlier := by
  suffices ended : (∃ earlier,
        Reaches mailbox regime (start own shared (before ++ .touch f :: after)) earlier ∧
        earlier.result = none ∧ earlier.rest = .touch f :: after ∧ regime.mayTouch earlier) ∨
      client.result = none ∧ .touch f :: after <:+ client.rest ∨
      client.result ≠ none ∧ client.result ≠ some code by
    rcases ended with passed | ⟨running, _⟩ | ⟨_, other⟩
    · exact passed
    · rw [running] at returned
      cases returned
    · exact absurd returned other
  clear returned
  induction reaches with
  | refl => exact .inr (.inl ⟨rfl, List.suffix_append _ _⟩)
  | @tail earlier later reached step ih =>
      rcases ih with passed | ⟨running, ahead⟩ | ⟨ended, other⟩
      · exact .inl passed
      · have onward : ∀ {statement : Stmt Own Shared} {rest : List (Stmt Own Shared)},
            earlier.rest = statement :: rest → statement ≠ .touch f →
            .touch f :: after <:+ rest := by
          intro statement rest next different
          rw [next, List.suffix_cons_iff] at ahead
          exact ahead.resolve_left fun same => different (List.cons.inj same).1.symm
        cases step with
        | @touch g rest _ next may =>
            rw [next, List.suffix_cons_iff] at ahead
            rcases ahead with here | behind
            · exact .inl ⟨earlier, reached, running, next.trans here.symm, may⟩
            · exact .inr (.inl ⟨running, behind⟩)
        | own _ next => exact .inr (.inl ⟨running, onward next nofun⟩)
        | stay _ next => exact .inr (.inl ⟨running, onward next nofun⟩)
        | notify _ next => exact .inr (.inl ⟨running, onward next nofun⟩)
        | @leave leaves other rest _ next =>
            refine .inr (.inr ⟨nofun, fun same => ?_⟩)
            cases same
            refine stays leaves ((suffix_of_reaches reached running).subset ?_)
            rw [next]
            exact List.mem_cons_self
        | finish _ none =>
            rw [none] at ahead
            exact absurd (List.suffix_nil.mp ahead) (List.cons_ne_nil _ _)
        | reply => exact .inr (.inl ⟨running, ahead⟩)
        | handle => exact .inr (.inl ⟨running, ahead⟩)
      · cases step with
        | touch running => exact absurd running ended
        | own running => exact absurd running ended
        | leave running => exact absurd running ended
        | stay running => exact absurd running ended
        | notify running => exact absurd running ended
        | finish running => exact absurd running ended
        | reply => exact .inr (.inr ⟨ended, other⟩)
        | handle => exact .inr (.inr ⟨ended, other⟩)

section Outline

variable {mailbox : Mailbox Shared Message} {property : Own → Shared → Prop}
  {f : Own → Shared → Own × Shared} {before gap target : List (Stmt Own Shared)}

/-- Where a running client is in its script, and the property from `f` to `target`. -/
structure Outlined (property : Own → Shared → Prop) (script gap target : List (Stmt Own Shared))
    (client : Client Own Shared Message) : Prop where
  suffix : client.rest <:+ script
  holds : target.length ≤ client.rest.length → client.rest.length ≤ (gap ++ target).length →
    property client.own client.shared

theorem Outlined.next {client client' : Client Own Shared Message} {statement : Stmt Own Shared}
    (outlined : Outlined property (before ++ .touch f :: (gap ++ target)) gap target client)
    (next : client.rest = statement :: client'.rest)
    (establishes : statement = .touch f → property client'.own client'.shared)
    (keeps : statement ∈ gap → property client.own client.shared →
      property client'.own client'.shared) :
    Outlined property (before ++ .touch f :: (gap ++ target)) gap target client' := by
  have suffix := outlined.suffix
  rw [next] at suffix
  have length : client.rest.length = client'.rest.length + 1 := by rw [next, List.length_cons]
  refine ⟨(List.suffix_cons _ _).trans suffix, fun long short => ?_⟩
  by_cases first : client'.rest.length = (gap ++ target).length
  · have here : .touch f :: (gap ++ target) <:+ before ++ .touch f :: (gap ++ target) :=
      List.suffix_append _ _
    have same := List.IsSuffix.eq_of_length
      (List.suffix_of_suffix_length_le suffix here (by simp [first])) (by simp [first])
    exact establishes (List.cons.inj same).1
  · apply keeps
    · have inside : gap ++ target <:+ before ++ .touch f :: (gap ++ target) :=
        (List.suffix_cons _ _).trans (List.suffix_append _ _)
      have within := List.suffix_of_suffix_length_le suffix inside (by
        rw [List.length_cons]
        omega)
      obtain ⟨ahead, whole⟩ := within
      have lengths := congrArg List.length whole
      have place := congrArg (fun script => script[ahead.length]?) whole
      simp only [List.length_append, List.length_cons] at lengths
      rw [List.getElem?_append_right (Nat.le_refl _), Nat.sub_self, List.getElem?_cons_zero,
        List.getElem?_append_left (by omega)] at place
      exact List.mem_of_getElem? place.symm
    · exact outlined.holds (by omega) (by omega)

theorem Outlined.step {client client' : Client Own Shared Message}
    (stable : Stable mailbox property)
    (establishes : ∀ own shared, property (f own shared).1 (f own shared).2)
    (keeps : ∀ statement ∈ gap, statement.KeepsBoth property)
    (outlined : client.result = none →
      Outlined property (before ++ .touch f :: (gap ++ target)) gap target client)
    (step : Step mailbox .any client client') (running : client'.result = none) :
    Outlined property (before ++ .touch f :: (gap ++ target)) gap target client' := by
  cases step with
  | touch was next =>
      refine (outlined was).next next ?_ fun inside => keeps _ inside _ _
      intro same
      cases same
      exact establishes _ _
  | own was next => exact (outlined was).next next nofun fun inside => keeps _ inside _ _
  | leave => cases running
  | stay was next => exact (outlined was).next next nofun fun _ holds => holds
  | notify was next => exact (outlined was).next next nofun fun _ holds => holds
  | finish => cases running
  | reply =>
      obtain ⟨suffix, holds⟩ := outlined running
      exact ⟨suffix, fun long short => stable.put _ _ _ (holds long short)⟩
  | handle =>
      obtain ⟨suffix, holds⟩ := outlined running
      exact ⟨suffix, fun long short => stable.handle _ _ (holds long short)⟩

/-- What `f` establishes holds when the client comes to `target`. -/
theorem holds_at {script : List (Stmt Own Shared)} {own : Own} {shared : Shared}
    {client : Client Own Shared Message} (stable : Stable mailbox property)
    (shape : script = before ++ .touch f :: (gap ++ target))
    (establishes : ∀ own shared, property (f own shared).1 (f own shared).2)
    (keeps : ∀ statement ∈ gap, statement.KeepsBoth property)
    (reaches : Reaches mailbox .any (start own shared script) client)
    (running : client.result = none) (here : client.rest = target) :
    property client.own client.shared := by
  subst shape
  suffices outlined : client.result = none →
      Outlined property (before ++ .touch f :: (gap ++ target)) gap target client by
    apply (outlined running).holds
    · exact here ▸ Nat.le_refl _
    · rw [here, List.length_append]
      omega
  clear running here
  induction reaches with
  | refl =>
      refine fun _ => ⟨List.suffix_refl _, fun _ short => ?_⟩
      simp only [start, List.length_append, List.length_cons] at short
      omega
  | tail _ step ih => exact Outlined.step stable establishes keeps ih step

end Outline

end Client

end Uc1Integration.Interaction
