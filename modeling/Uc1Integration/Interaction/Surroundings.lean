import Mathlib.Order.GameAdd
import Uc1Integration.Interaction.Link
import Uc1Integration.Interaction.Runs

/-!
# Endpoints in their surroundings

A party to a reliable link that also calls operations of its own surroundings,
which answer in any way they are allowed to. When both parties talk along one
conversation, whatever the surroundings answer, they never get stuck, they do
only finitely much, and they end well.
-/

set_option autoImplicit false

namespace Uc1Integration.Interaction

open Conversation Program

variable {Byte Error E : Type} {R : E → Type} {α β : Type}

@[reducible] def PartyAnswer (Error : Type) (R : E → Type) : StreamCall Byte ⊕ E → Type
  | .inl call => StreamAnswer Byte Error call
  | .inr operation => R operation

abbrev Party (Byte Error : Type) (R : E → Type) :=
  Program (StreamCall Byte ⊕ E) (PartyAnswer Error R)

/-- The error of a read that finds nothing, and what the surroundings may answer. -/
structure Surroundings (Error : Type) (R : E → Type) where
  readBlocked : Error
  allows : (operation : E) → R operation → Prop

/-- The next byte of the conversation, if there is one, is `me`'s. -/
def Turn (me : Side) (conversation : Conversation Byte) : Prop :=
  ∀ entry ∈ conversation.head?, entry.1 = me

/-- `party` talks along the conversation. A read takes at most what the other side
says before it listens again, and what is said last may stay unread: `good` is about
the result and the bytes that do. A read that finds nothing and an answer of the
surroundings lead on, or make the party call again. -/
inductive Talks (surroundings : Surroundings Error R) (me : Side) (good : α → List Byte → Prop) :
    Conversation Byte → Party Byte Error R α → Prop where
  | done {party : Party Byte Error R α} {value : α} {unread : List Byte} :
      party.view = .done value → good value unread →
      Talks surroundings me good (saying me.other unread) party
  | write {party : Party Byte Error R α} {data : List Byte} {rest : Conversation Byte}
      {resume : WriteAnswer Error → Party Byte Error R α} :
      party.view = .call (.inl (.write data)) resume → data ≠ [] →
      Talks surroundings me good rest (resume (.accepted data.length)) →
      Talks surroundings me good (saying me data ++ rest) party
  | read {party : Party Byte Error R α} {limit : Nat} {data : List Byte}
      {rest : Conversation Byte} {resume : ReadAnswer Byte Error → Party Byte Error R α}
      (again : Prop) :
      party.view = .call (.inl (.read limit)) resume → 0 < limit → data ≠ [] →
      limit ≤ data.length ∨ Turn me rest →
      (∀ count, 0 < count → count ≤ limit → count ≤ data.length →
        Talks surroundings me good (saying me.other (data.drop count) ++ rest)
          (resume (.received (data.take count)))) →
      (again → resume (.failed surroundings.readBlocked) = party) →
      (¬ again → Talks surroundings me good (saying me.other data ++ rest)
        (resume (.failed surroundings.readBlocked))) →
      Talks surroundings me good (saying me.other data ++ rest) party
  | ask {party : Party Byte Error R α} {conversation : Conversation Byte} {operation : E}
      {resume : R operation → Party Byte Error R α} (again : R operation → Prop) :
      party.view = .call (.inr operation) resume →
      (∃ answer, surroundings.allows operation answer ∧ ¬ again answer) →
      (∀ answer, surroundings.allows operation answer → ¬ again answer →
        Talks surroundings me good conversation (resume answer)) →
      (∀ answer, again answer → resume answer = party) →
      Talks surroundings me good conversation party

/-- One step of a party that changes it, with what is left of its conversation. -/
inductive Onward (surroundings : Surroundings Error R) (me : Side) :
    Conversation Byte × Party Byte Error R α → Conversation Byte × Party Byte Error R α → Prop where
  | write {party : Party Byte Error R α} {data : List Byte} {conversation rest : Conversation Byte}
      {resume : WriteAnswer Error → Party Byte Error R α} :
      party.view = .call (.inl (.write data)) resume → conversation = saying me data ++ rest →
      Onward surroundings me (rest, resume (.accepted data.length)) (conversation, party)
  | read {party : Party Byte Error R α} {limit : Nat} {data : List Byte}
      {conversation rest : Conversation Byte} {resume : ReadAnswer Byte Error → Party Byte Error R α} :
      party.view = .call (.inl (.read limit)) resume → conversation = saying me.other data ++ rest →
      data ≠ [] → data.length ≤ limit →
      Onward surroundings me (rest, resume (.received data)) (conversation, party)
  | blocked {party : Party Byte Error R α} {limit : Nat} {conversation : Conversation Byte}
      {resume : ReadAnswer Byte Error → Party Byte Error R α} :
      party.view = .call (.inl (.read limit)) resume →
      resume (.failed surroundings.readBlocked) ≠ party →
      Onward surroundings me (conversation, resume (.failed surroundings.readBlocked))
        (conversation, party)
  | ask {party : Party Byte Error R α} {conversation : Conversation Byte} {operation : E}
      {resume : R operation → Party Byte Error R α} {answer : R operation} :
      party.view = .call (.inr operation) resume → surroundings.allows operation answer →
      resume answer ≠ party →
      Onward surroundings me (conversation, resume answer) (conversation, party)

section Talks

variable {surroundings : Surroundings Error R} {me : Side} {good : α → List Byte → Prop}

theorem speaker_of_mem_saying {one : Side} {data : List Byte} {entry : Side × Byte}
    (member : entry ∈ saying one data) : entry.1 = one := by
  obtain ⟨byte, _, rfl⟩ := List.mem_map.mp member
  rfl

/-- A read takes no more than the other side says at once. -/
theorem length_le_of_heard {limit : Nat} {data chunk : List Byte} {rest tail : Conversation Byte}
    (bounded : limit ≤ data.length ∨ Turn me rest)
    (same : saying me.other data ++ rest = saying me.other chunk ++ tail)
    (short : chunk.length ≤ limit) : chunk.length ≤ data.length := by
  by_contra longer
  obtain ⟨_, left⟩ := saying_append_inj_of_length_le (by omega) same
  have more : chunk.drop data.length ≠ [] := by
    rw [Ne, List.drop_eq_nil_iff]
    omega
  obtain ⟨byte, others, extra⟩ := List.exists_cons_of_ne_nil more
  rcases bounded with limited | turn
  · omega
  · have ahead : (me.other, byte) ∈ rest.head? := by
      rw [left, extra]
      rfl
    exact Side.other_ne me (turn _ ahead)

theorem Talks.write_inv {conversation : Conversation Byte} {party : Party Byte Error R α}
    {data : List Byte} {resume : WriteAnswer Error → Party Byte Error R α}
    (talks : Talks surroundings me good conversation party)
    (calls : party.view = .call (.inl (.write data)) resume) :
    data ≠ [] ∧ ∃ rest, conversation = saying me data ++ rest ∧
      Talks surroundings me good rest (resume (.accepted data.length)) := by
  cases talks with
  | done finished => rw [calls] at finished; cases finished
  | read _ sameCall => rw [calls] at sameCall; cases sameCall
  | ask _ sameCall => rw [calls] at sameCall; cases sameCall
  | write sameCall some onward =>
      rw [calls] at sameCall
      cases sameCall
      exact ⟨some, _, rfl, onward⟩

/-- What a party that talks does with each answer to a read. -/
structure ListensTo (surroundings : Surroundings Error R) (me : Side)
    (good : α → List Byte → Prop) (conversation : Conversation Byte) (party : Party Byte Error R α) (limit : Nat)
    (resume : ReadAnswer Byte Error → Party Byte Error R α) : Prop where
  positive : 0 < limit
  blocked : resume (.failed surroundings.readBlocked) = party ∨
    Talks surroundings me good conversation (resume (.failed surroundings.readBlocked))
  speaker : ∃ byte rest, conversation = (me.other, byte) :: rest
  hears : ∀ chunk rest, conversation = saying me.other chunk ++ rest → chunk ≠ [] →
    chunk.length ≤ limit → Talks surroundings me good rest (resume (.received chunk))

theorem Talks.read_inv {conversation : Conversation Byte} {party : Party Byte Error R α}
    {limit : Nat} {resume : ReadAnswer Byte Error → Party Byte Error R α}
    (talks : Talks surroundings me good conversation party)
    (calls : party.view = .call (.inl (.read limit)) resume) :
    ListensTo surroundings me good conversation party limit resume := by
  cases talks with
  | done finished => rw [calls] at finished; cases finished
  | write sameCall => rw [calls] at sameCall; cases sameCall
  | ask _ sameCall => rw [calls] at sameCall; cases sameCall
  | @read _ _ data rest _ again sameCall positive some bounded onward same goes =>
      rw [calls] at sameCall
      cases sameCall
      refine ⟨positive, ?_, ?_, ?_⟩
      · by_cases repeats : again
        · exact .inl (same repeats)
        · exact .inr (goes repeats)
      · obtain ⟨byte, others, rfl⟩ := List.exists_cons_of_ne_nil some
        exact ⟨byte, saying me.other others ++ rest, rfl⟩
      · intro chunk tail same chunkSome short
        have fits := length_le_of_heard bounded same short
        obtain ⟨taken, left⟩ := saying_append_inj_of_length_le fits same.symm
        rw [taken, left]
        exact onward chunk.length (List.length_pos_of_ne_nil chunkSome) short fits

/-- Every answer of the surroundings makes a talking party ask again or go on. -/
theorem Talks.ask_inv {conversation : Conversation Byte} {party : Party Byte Error R α}
    {operation : E} {resume : R operation → Party Byte Error R α}
    (talks : Talks surroundings me good conversation party)
    (calls : party.view = .call (.inr operation) resume) (answer : R operation)
    (allowed : surroundings.allows operation answer) :
    resume answer = party ∨ Talks surroundings me good conversation (resume answer) := by
  cases talks with
  | done finished => rw [calls] at finished; cases finished
  | write sameCall => rw [calls] at sameCall; cases sameCall
  | read _ sameCall => rw [calls] at sameCall; cases sameCall
  | ask again sameCall some onward same =>
      rw [calls] at sameCall
      cases sameCall
      by_cases repeats : again answer
      · exact .inl (same answer repeats)
      · exact .inr (onward answer allowed repeats)

/-- Some answer makes it go on. -/
theorem Talks.answered {conversation : Conversation Byte} {party : Party Byte Error R α}
    {operation : E} {resume : R operation → Party Byte Error R α}
    (talks : Talks surroundings me good conversation party)
    (calls : party.view = .call (.inr operation) resume) :
    ∃ answer, surroundings.allows operation answer ∧ resume answer ≠ party := by
  induction talks with
  | done finished => rw [calls] at finished; cases finished
  | write sameCall => rw [calls] at sameCall; cases sameCall
  | read _ sameCall => rw [calls] at sameCall; cases sameCall
  | @ask party _ _ _ again sameCall some onward same ih =>
      rw [calls] at sameCall
      cases sameCall
      obtain ⟨answer, allowed, settles⟩ := some
      by_cases unchanged : resume answer = party
      · have later := ih answer allowed settles
        rw [unchanged] at later
        exact later calls
      · exact ⟨answer, allowed, unchanged⟩

theorem Talks.done_inv {conversation : Conversation Byte} {party : Party Byte Error R α} {value : α}
    (talks : Talks surroundings me good conversation party) (finished : party.view = .done value) :
    ∃ unread, conversation = saying me.other unread ∧ good value unread := by
  cases talks with
  | done sameView isGood =>
      rw [finished] at sameView
      cases sameView
      exact ⟨_, rfl, isGood⟩
  | write calls => rw [finished] at calls; cases calls
  | read _ calls => rw [finished] at calls; cases calls
  | ask _ calls => rw [finished] at calls; cases calls

/-- A step that changes a talking party leads on along its conversation. -/
theorem Talks.onward {conversation conversation' : Conversation Byte}
    {party party' : Party Byte Error R α}
    (talks : Talks surroundings me good conversation party)
    (onward : Onward surroundings me (conversation', party') (conversation, party)) :
    Talks surroundings me good conversation' party' := by
  cases onward with
  | write calls said =>
      obtain ⟨_, rest, same, goes⟩ := talks.write_inv calls
      rwa [List.append_cancel_left (said.symm.trans same)]
  | read calls heard some short => exact (talks.read_inv calls).hears _ _ heard some short
  | blocked calls changes => exact (talks.read_inv calls).blocked.resolve_left changes
  | ask calls allowed changes =>
      exact (talks.ask_inv calls _ allowed).resolve_left changes

/-- A talking party changes finitely often. -/
theorem Talks.acc {conversation : Conversation Byte} {party : Party Byte Error R α}
    (talks : Talks surroundings me good conversation party) :
    Acc (Onward surroundings me) (conversation, party) := by
  induction talks with
  | done finished =>
      refine .intro _ fun next onward => ?_
      cases onward with
      | write calls => rw [finished] at calls; cases calls
      | read calls => rw [finished] at calls; cases calls
      | blocked calls => rw [finished] at calls; cases calls
      | ask calls => rw [finished] at calls; cases calls
  | write calls some _ ih =>
      refine .intro _ fun next onward => ?_
      cases onward with
      | write sameCall same =>
          rw [calls] at sameCall
          cases sameCall
          rwa [← List.append_cancel_left same]
      | read sameCall => rw [calls] at sameCall; cases sameCall
      | blocked sameCall => rw [calls] at sameCall; cases sameCall
      | ask sameCall => rw [calls] at sameCall; cases sameCall
  | @read party limit data rest resume again calls positive some bounded _ repeats _ ih stopped =>
      refine .intro _ fun next onward => ?_
      cases onward with
      | write sameCall => rw [calls] at sameCall; cases sameCall
      | ask sameCall => rw [calls] at sameCall; cases sameCall
      | blocked sameCall changes =>
          rw [calls] at sameCall
          cases sameCall
          exact stopped fun repeated => changes (repeats repeated)
      | read sameCall same chunkSome short =>
          rw [calls] at sameCall
          cases sameCall
          have fits := length_le_of_heard bounded same short
          obtain ⟨taken, left⟩ := saying_append_inj_of_length_le fits same.symm
          rw [taken, left]
          exact ih _ (List.length_pos_of_ne_nil chunkSome) short fits
  | ask again calls _ onward same ih =>
      refine .intro _ fun next onward => ?_
      cases onward with
      | write sameCall => rw [calls] at sameCall; cases sameCall
      | read sameCall => rw [calls] at sameCall; cases sameCall
      | blocked sameCall => rw [calls] at sameCall; cases sameCall
      | ask sameCall allowed changes =>
          rw [calls] at sameCall
          cases sameCall
          exact ih _ allowed fun repeats => changes (same _ repeats)

end Talks

section Lift

variable {F G : Type} {Q : F → Type} {P : G → Type}

theorem pure_eq (value : α) : (pure value : Program E R α) = .done value := rfl

theorem bind_done (program : Program E R α) : program.bind .done = program := by
  induction program with
  | done => rfl
  | loop call body next state ih => simp only [Program.bind, ih]

theorem lift_lift (first : E → F) (second : F → G)
    (inner : (operation : E) → Q (first operation) → R operation)
    (outer : (operation : F) → P (second operation) → Q operation) (program : Program E R α) :
    (program.lift first inner).lift second outer =
      program.lift (fun operation => second (first operation))
        fun operation answer => inner operation (outer (first operation) answer) := by
  induction program with
  | done => rfl
  | loop call body next state ih => simp only [lift, ih]

theorem lift_bind (rename : E → F) (back : (operation : E) → Q (rename operation) → R operation)
    (program : Program E R α) (continuation : α → Program E R β) :
    (program.bind continuation).lift rename back =
      (program.lift rename back).bind fun value => (continuation value).lift rename back := by
  induction program with
  | done => rfl
  | loop call body next state ih => simp only [Program.bind, lift, ih]

theorem lift_of_done {rename : E → F} {back : (operation : E) → Q (rename operation) → R operation}
    {program : Program E R α} {value : α} (finished : program.view = .done value) :
    program.lift rename back = .done value := by
  rw [view_eq_done finished]
  rfl

/-- An endpoint as a party that asks nothing of its surroundings. -/
def Endpoint.party (endpoint : Endpoint Byte Error α) : Party Byte Error R α :=
  endpoint.lift Sum.inl fun _ answer => answer

variable {surroundings : Surroundings Error R} {me : Side} {good : α → Prop}
  {good' : β → List Byte → Prop}

theorem Talks.of_converses {conversation rest : Conversation Byte}
    {endpoint : Endpoint Byte Error α} {continuation : α → Party Byte Error R β}
    (converses : Converses surroundings.readBlocked me good conversation endpoint)
    (next : ∀ value, good value → Talks surroundings me good' rest (continuation value)) :
    Talks surroundings me good' (conversation ++ rest) (endpoint.party.bind continuation) := by
  induction converses with
  | done finished isGood =>
      rw [Endpoint.party, lift_of_done finished]
      exact next _ isGood
  | write calls some _ ih =>
      rw [List.append_assoc]
      exact .write (view_bind_call continuation (view_lift calls)) some ih
  | read calls positive bounded _ blocked ih =>
      rw [List.append_assoc]
      refine .read True (view_bind_call continuation (view_lift calls)) positive
        (List.ne_nil_of_length_pos (by omega)) (.inl bounded) ?_ ?_ (absurd trivial)
      · intro count positive short _
        rw [← List.append_assoc]
        exact ih count positive short
      · intro _
        rw [blocked]
        rfl

theorem Talks.of_done {value : β} (isGood : good' value []) :
    Talks surroundings me good' [] (.done value : Party Byte Error R β) := by
  rw [← saying_nil me.other]
  exact .done rfl isGood

theorem Talks.of_endpoint {conversation : Conversation Byte} {endpoint : Endpoint Byte Error α}
    (converses : Converses surroundings.readBlocked me good conversation endpoint) :
    Talks surroundings me (fun value _ => good value) conversation
      (endpoint.party : Party Byte Error R α) := by
  have talks : Talks surroundings me (fun value _ => good value) (conversation ++ [])
      ((endpoint.party : Party Byte Error R α).bind .done) :=
    Talks.of_converses converses fun _ isGood => Talks.of_done isGood
  rwa [List.append_nil, bind_done] at talks

/-- A call of the surroundings that goes on whatever the answer. -/
theorem Talks.of_call {conversation : Conversation Byte} {operation : E}
    {party : Party Byte Error R β} {resume : R operation → Party Byte Error R β}
    (calls : party.view = .call (.inr operation) resume)
    (some : ∃ answer, surroundings.allows operation answer)
    (next : ∀ answer, surroundings.allows operation answer →
      Talks surroundings me good' conversation (resume answer)) :
    Talks surroundings me good' conversation party := by
  obtain ⟨answer, allowed⟩ := some
  refine .ask (fun _ => False) calls ⟨answer, allowed, id⟩ ?_ fun _ => False.elim
  exact fun other isAllowed _ => next other isAllowed

end Lift

/-- Two parties joined by a reliable link, each with results of its own. -/
structure System (Byte Error : Type) (R : E → Type) (result : Side → Type) where
  party : (side : Side) → Party Byte Error R (result side)
  flying : Side → List Byte

namespace System

variable {result : Side → Type}

def start (party : (side : Side) → Party Byte Error R (result side)) :
    System Byte Error R result :=
  ⟨party, fun _ => []⟩

inductive Step (surroundings : Surroundings Error R) :
    System Byte Error R result → System Byte Error R result → Prop where
  | write {system : System Byte Error R result} (side : Side) {data : List Byte}
      {resume : WriteAnswer Error → Party Byte Error R (result side)} :
      (system.party side).view = .call (.inl (.write data)) resume →
      Step surroundings system
        ⟨Function.update system.party side (resume (.accepted data.length)),
          Function.update system.flying side (system.flying side ++ data)⟩
  | read {system : System Byte Error R result} (side : Side) {limit : Nat} {data rest : List Byte}
      {resume : ReadAnswer Byte Error → Party Byte Error R (result side)} :
      (system.party side).view = .call (.inl (.read limit)) resume →
      system.flying side.other = data ++ rest → data ≠ [] → data.length ≤ limit →
      Step surroundings system
        ⟨Function.update system.party side (resume (.received data)),
          Function.update system.flying side.other rest⟩
  | readBlocked {system : System Byte Error R result} (side : Side) {limit : Nat}
      {resume : ReadAnswer Byte Error → Party Byte Error R (result side)} :
      (system.party side).view = .call (.inl (.read limit)) resume →
      system.flying side.other = [] →
      Step surroundings system
        ⟨Function.update system.party side (resume (.failed surroundings.readBlocked)),
          system.flying⟩
  | ask {system : System Byte Error R result} (side : Side) {operation : E} {answer : R operation}
      {resume : R operation → Party Byte Error R (result side)} :
      (system.party side).view = .call (.inr operation) resume →
      surroundings.allows operation answer →
      Step surroundings system
        ⟨Function.update system.party side (resume answer), system.flying⟩

abbrev Reaches (surroundings : Surroundings Error R) :
    System Byte Error R result → System Byte Error R result → Prop :=
  Relation.ReflTransGen (Step surroundings)

/-- A step other than an attempt that has to be repeated. -/
def Changes (surroundings : Surroundings Error R) (system system' : System Byte Error R result) :
    Prop :=
  Step surroundings system system' ∧ system' ≠ system

def Finished (system : System Byte Error R result) (side : Side) : Prop :=
  ∃ value, (system.party side).view = .done value

/-- Each party is on its way along its part of one conversation, and one side, the
speaker, is ahead by the bytes it has in flight. -/
structure Along (surroundings : Surroundings Error R)
    (good : (side : Side) → result side → List Byte → Prop) (talk : Side → Conversation Byte) (system : System Byte Error R result) : Prop where
  talks : ∀ side, Talks surroundings side (good side) (talk side) (system.party side)
  ahead : ∃ speaker, talk speaker.other = saying speaker (system.flying speaker) ++ talk speaker ∧
    system.flying speaker.other = []

variable {surroundings : Surroundings Error R}
  {good : (side : Side) → result side → List Byte → Prop} {talk : Side → Conversation Byte} {system system' : System Byte Error R result}

theorem along_start {conversation : Conversation Byte}
    {party : (side : Side) → Party Byte Error R (result side)}
    (talks : ∀ side, Talks surroundings side (good side) conversation (party side)) :
    Along surroundings good (fun _ => conversation) (start party) :=
  ⟨talks, .left, rfl, rfl⟩

/-- The party of `side` has gone on along its conversation, `rest` is left of it. -/
structure Advances (surroundings : Surroundings Error R) (talk : Side → Conversation Byte)
    (system system' : System Byte Error R result) (side : Side) (rest : Conversation Byte) :
    Prop where
  others : system'.party side.other = system.party side.other
  onward : Onward surroundings side (rest, system'.party side) (talk side, system.party side)

theorem Along.talks_update (along : Along surroundings good talk system) {side : Side}
    {rest : Conversation Byte} {party : Party Byte Error R (result side)}
    (onward : Onward surroundings side (rest, party) (talk side, system.party side)) (one : Side) :
    Talks surroundings one (good one) (Function.update talk side rest one)
      (Function.update system.party side party one) := by
  by_cases same : one = side
  · subst same
    rw [Function.update_self, Function.update_self]
    exact (along.talks one).onward onward
  · rw [Function.update_of_ne same, Function.update_of_ne same]
    exact along.talks one

theorem advances_update {side : Side} {rest : Conversation Byte}
    {party : Party Byte Error R (result side)} {flying : Side → List Byte}
    (onward : Onward surroundings side (rest, party) (talk side, system.party side)) :
    Advances surroundings talk system ⟨Function.update system.party side party, flying⟩ side
      rest := by
  constructor
  · exact Function.update_of_ne (Side.other_ne side) _ _
  · dsimp only
    rwa [Function.update_self]

private theorem along_write (along : Along surroundings good talk system) {side : Side}
    {data : List Byte} {resume : WriteAnswer Error → Party Byte Error R (result side)}
    (calls : (system.party side).view = .call (.inl (.write data)) resume) :
    ∃ rest, Onward surroundings side (rest, resume (.accepted data.length))
        (talk side, system.party side) ∧
      Along surroundings good (Function.update talk side rest)
        ⟨Function.update system.party side (resume (.accepted data.length)),
          Function.update system.flying side (system.flying side ++ data)⟩ := by
  obtain ⟨some, rest, said, _⟩ := (along.talks side).write_inv calls
  have onward : Onward surroundings side (rest, resume (.accepted data.length))
      (talk side, system.party side) := .write calls said
  refine ⟨rest, onward, along.talks_update onward, ?_⟩
  obtain ⟨speaker, behind, silent⟩ := along.ahead
  rcases Side.eq_or_eq_other side speaker with rfl | rfl
  · refine ⟨side, ?_, by simpa using silent⟩
    simpa [said, List.append_assoc] using behind
  · -- the one behind can only speak when it has heard all there is
    have quiet : system.flying speaker = [] := by
      by_contra left
      rw [said] at behind
      exact Side.other_ne speaker (speaker_eq_of_append_eq some left behind)
    refine ⟨speaker.other, ?_, by simpa using quiet⟩
    rw [quiet, saying_nil, List.nil_append] at behind
    simpa [silent, ← behind] using said

private theorem along_read (along : Along surroundings good talk system) {side : Side}
    {limit : Nat} {data rest : List Byte}
    {resume : ReadAnswer Byte Error → Party Byte Error R (result side)}
    (calls : (system.party side).view = .call (.inl (.read limit)) resume)
    (flies : system.flying side.other = data ++ rest) (some : data ≠ [])
    (short : data.length ≤ limit) :
    ∃ left, Onward surroundings side (left, resume (.received data))
        (talk side, system.party side) ∧
      Along surroundings good (Function.update talk side left)
        ⟨Function.update system.party side (resume (.received data)),
          Function.update system.flying side.other rest⟩ := by
  obtain ⟨speaker, behind, silent⟩ := along.ahead
  rcases Side.eq_or_eq_other side speaker with rfl | rfl
  · rw [silent] at flies
    simp [some] at flies
  · rw [Side.other_other] at flies
    rw [flies, saying_append, List.append_assoc] at behind
    have heard : talk speaker.other =
        saying speaker.other.other data ++ (saying speaker rest ++ talk speaker) := by
      rwa [Side.other_other]
    have onward : Onward surroundings speaker.other
        (saying speaker rest ++ talk speaker, resume (.received data))
        (talk speaker.other, system.party speaker.other) := .read calls heard some short
    refine ⟨_, onward, along.talks_update onward, speaker, ?_, by simpa using silent⟩
    simp

/-- A step changes nothing, or one party goes on. -/
theorem Along.step (along : Along surroundings good talk system)
    (step : Step surroundings system system') :
    system' = system ∨ ∃ side rest, Advances surroundings talk system system' side rest ∧
      Along surroundings good (Function.update talk side rest) system' := by
  cases step with
  | write side calls =>
      obtain ⟨rest, onward, goes⟩ := along_write along calls
      exact .inr ⟨side, rest, advances_update onward, goes⟩
  | read side calls flies some short =>
      obtain ⟨rest, onward, goes⟩ := along_read along calls flies some short
      exact .inr ⟨side, rest, advances_update onward, goes⟩
  | @readBlocked side limit resume calls quiet =>
      by_cases same : resume (.failed surroundings.readBlocked) = system.party side
      · left
        rw [same, Function.update_eq_self]
      · right
        have onward : Onward surroundings side
            (talk side, resume (.failed surroundings.readBlocked))
            (talk side, system.party side) := .blocked calls same
        refine ⟨side, talk side, advances_update onward, along.talks_update onward, ?_⟩
        rw [Function.update_eq_self]
        exact along.ahead
  | @ask side operation answer resume calls allowed =>
      by_cases same : resume answer = system.party side
      · left
        rw [same, Function.update_eq_self]
      · right
        have onward : Onward surroundings side (talk side, resume answer)
            (talk side, system.party side) := .ask calls allowed same
        refine ⟨side, talk side, advances_update onward, along.talks_update onward, ?_⟩
        rw [Function.update_eq_self]
        exact along.ahead

theorem Along.reaches (along : Along surroundings good talk system)
    (reaches : Reaches surroundings system system') :
    ∃ talk', Along surroundings good talk' system' := by
  induction reaches with
  | refl => exact ⟨talk, along⟩
  | tail _ step ih =>
      obtain ⟨earlier, before⟩ := ih
      obtain same | ⟨side, rest, _, after⟩ := before.step step
      · exact ⟨earlier, same ▸ before⟩
      · exact ⟨_, after⟩

/-- Only finitely many steps of a run change anything. -/
theorem Along.acc (along : Along surroundings good talk system) :
    Acc (fun later earlier => Changes surroundings earlier later) system := by
  have left := (along.talks .left).acc
  have right := (along.talks .right).acc
  have both := left.prod_gameAdd right
  generalize now : ((talk .left, system.party .left), (talk .right, system.party .right)) = pair
    at both
  induction both generalizing talk system with
  | intro pair _ ih =>
      subst now
      refine .intro _ fun later changes => ?_
      obtain same | ⟨side, rest, advances, after⟩ := along.step changes.1
      · exact absurd same changes.2
      · refine ih _ ?_ after (after.talks .left).acc (after.talks .right).acc rfl
        obtain ⟨others, onward⟩ := advances
        cases side with
        | left =>
            have right : Function.update talk .left rest .right = talk .right :=
              Function.update_of_ne (by decide) _ _
            rw [right, Function.update_self]
            exact others ▸ .fst onward
        | right =>
            have left : Function.update talk .right rest .left = talk .left :=
              Function.update_of_ne (by decide) _ _
            rw [left, Function.update_self]
            exact others ▸ .snd onward

theorem changes_write {side : Side} {data : List Byte}
    {resume : WriteAnswer Error → Party Byte Error R (result side)}
    (calls : (system.party side).view = .call (.inl (.write data)) resume) (some : data ≠ []) :
    ∃ system', Changes surroundings system system' := by
  refine ⟨_, .write side calls, fun same => ?_⟩
  have flying := congrFun (congrArg System.flying same) side
  dsimp only at flying
  rw [Function.update_self] at flying
  exact some (by simpa using flying)

theorem changes_read {side : Side} {limit : Nat}
    {resume : ReadAnswer Byte Error → Party Byte Error R (result side)}
    (calls : (system.party side).view = .call (.inl (.read limit)) resume) (positive : 0 < limit)
    (flies : system.flying side.other ≠ []) : ∃ system', Changes surroundings system system' := by
  obtain ⟨byte, rest, ahead⟩ := List.exists_cons_of_ne_nil flies
  have split : system.flying side.other = [byte] ++ rest := ahead
  refine ⟨_, .read side calls split (by simp) positive, fun same => ?_⟩
  have flying := congrArg List.length (congrFun (congrArg System.flying same) side.other)
  dsimp only at flying
  rw [Function.update_self, ahead, List.length_cons] at flying
  omega

theorem changes_ask {side : Side} {operation : E}
    {resume : R operation → Party Byte Error R (result side)}
    (calls : (system.party side).view = .call (.inr operation) resume)
    (talks : Talks surroundings side (good side) (talk side) (system.party side)) :
    ∃ system', Changes surroundings system system' := by
  obtain ⟨answer, allowed, changes⟩ := talks.answered calls
  refine ⟨_, .ask side calls allowed, fun same => ?_⟩
  have party := congrFun (congrArg System.party same) side
  dsimp only at party
  rw [Function.update_self] at party
  exact changes party

/-- A party that nothing can change has finished, or it listens and nothing is in flight. -/
theorem Along.stuck (along : Along surroundings good talk system) (one : Side)
    (none : ¬ ∃ system', Changes surroundings system system') :
    system.Finished one ∨
      system.flying one.other = [] ∧ ∃ byte rest, talk one = (one.other, byte) :: rest := by
  cases head : (system.party one).view with
  | done value => exact .inl ⟨value, head⟩
  | call operation resume =>
      right
      cases operation with
      | inr operation => exact absurd (changes_ask head (along.talks one)) none
      | inl operation =>
          cases operation with
          | write data =>
              obtain ⟨some, _⟩ := (along.talks one).write_inv head
              exact absurd (changes_write head some) none
          | read limit =>
              have listens := (along.talks one).read_inv head
              refine ⟨?_, listens.speaker⟩
              by_contra flies
              exact none (changes_read head listens.positive flies)

/-- Two parties on their way never get stuck before both have finished. -/
theorem Along.progress (along : Along surroundings good talk system) {side : Side}
    (unfinished : ¬ system.Finished side) : ∃ system', Changes surroundings system system' := by
  by_contra none
  -- What the listener waits for is in flight, or the speaker has yet to say it.
  obtain ⟨speaker, behind, _⟩ := along.ahead
  rcases along.stuck speaker.other none with ⟨value, finished⟩ | ⟨quiet, byte, rest, hears⟩
  · obtain ⟨unread, last, _⟩ := (along.talks speaker.other).done_inv finished
    rw [Side.other_other] at last
    rcases along.stuck speaker none with ended | ⟨_, byte, rest, hears⟩
    · rcases Side.eq_or_eq_other side speaker with rfl | rfl
      · exact unfinished ended
      · exact unfinished ⟨value, finished⟩
    · have member : (speaker.other, byte) ∈ saying speaker unread := by
        rw [← last, behind, hears]
        simp
      exact Side.other_ne speaker (speaker_of_mem_saying member)
  · rw [Side.other_other] at quiet hears
    rw [quiet, saying_nil, List.nil_append, hears] at behind
    rcases along.stuck speaker none with ⟨value, finished⟩ | ⟨_, other, tail, listens⟩
    · obtain ⟨unread, last, _⟩ := (along.talks speaker).done_inv finished
      have member : (speaker, byte) ∈ saying speaker.other unread := by
        rw [← last, ← behind]
        exact List.mem_cons_self
      exact Side.ne_other speaker (speaker_of_mem_saying member)
    · rw [listens] at behind
      exact Side.ne_other speaker (congrArg Prod.fst (List.cons.inj behind).1)

/-- Both parties can finish, whatever has happened. -/
theorem Along.exists_finished (along : Along surroundings good talk system) :
    ∃ system', Reaches surroundings system system' ∧ ∀ side, system'.Finished side := by
  have ends := along.acc
  induction ends generalizing talk with
  | intro system _ ih =>
      by_cases finished : ∀ side, system.Finished side
      · exact ⟨system, .refl, finished⟩
      · obtain ⟨side, unfinished⟩ := not_forall.mp finished
        obtain ⟨next, changes⟩ := along.progress unfinished
        obtain ⟨_, onward⟩ := along.reaches (.single changes.1)
        obtain ⟨final, reaches, ended⟩ := ih next changes onward
        exact ⟨final, .head changes.1 reaches, ended⟩

theorem Along.finished (along : Along surroundings good talk system) {side : Side}
    {value : result side} (finished : (system.party side).view = .done value) :
    ∃ unread, good side value unread := by
  obtain ⟨unread, _, isGood⟩ := (along.talks side).done_inv finished
  exact ⟨unread, isGood⟩

/-- What is in flight when both have finished is what they leave unread. -/
theorem Along.unread (along : Along surroundings good talk system)
    (finished : ∀ side, system.Finished side) {side : Side} {value : result side}
    (returned : (system.party side).view = .done value) :
    good side value (system.flying side.other) := by
  obtain ⟨unread, rest, isGood⟩ := (along.talks side).done_inv returned
  obtain ⟨_, returned'⟩ := finished side.other
  obtain ⟨unread', rest', _⟩ := (along.talks side.other).done_inv returned'
  obtain ⟨speaker, behind, silent⟩ := along.ahead
  have said := congrArg (saidBy side.other) behind
  have same : unread = system.flying side.other := by
    rcases Side.eq_or_eq_other side speaker with rfl | rfl
    · simpa [rest, rest', silent] using said.symm
    · rw [Side.other_other] at rest'
      simpa [rest, rest'] using said
  rwa [← same]

end System

end Uc1Integration.Interaction
