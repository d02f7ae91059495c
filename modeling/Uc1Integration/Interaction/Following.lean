import Uc1Integration.Interaction.Conversation

/-!
# Following a conversation over an unreliable stream

An endpoint follows a conversation when every answer a working medium may give
leads on along it or makes the endpoint give up at once, and every answer of a
broken one leads to a bad result.
-/

set_option autoImplicit false

namespace Uc1Integration.Interaction

open Conversation

variable {Byte Error α γ : Type}

/-- The failures a medium reports: the two that only ask for another attempt,
and those that come from a broken connection. -/
structure Medium (Error : Type) where
  readBlocked : Error
  writeBlocked : Error
  fatal : Error → Prop

/-- The answer of a broken connection, which transfers nothing. -/
inductive Medium.Refuses {Byte Error : Type} (medium : Medium Error) :
    (operation : StreamCall Byte) → StreamAnswer Byte Error operation → Prop where
  | read {limit : Nat} {error : Error} :
      medium.fatal error → Refuses medium (.read limit) (.failed error)
  | write {data : List Byte} {error : Error} :
      medium.fatal error → Refuses medium (.write data) (.failed error)

inductive RefusedRun (medium : Medium Error) :
    Endpoint Byte Error α → Endpoint Byte Error α → Prop where
  | refl {program : Endpoint Byte Error α} : RefusedRun medium program program
  | step {program final : Endpoint Byte Error α} {operation : StreamCall Byte}
      {resume : StreamAnswer Byte Error operation → Endpoint Byte Error α}
      {answer : StreamAnswer Byte Error operation} :
      program.view = .call operation resume → medium.Refuses operation answer →
      RefusedRun medium (resume answer) final → RefusedRun medium program final

/-- On a broken connection the program never finishes other than badly. -/
def Doomed (medium : Medium Error) (bad : α → Prop) (program : Endpoint Byte Error α) : Prop :=
  ∀ final value, RefusedRun medium program final → final.view = .done value → bad value

theorem Doomed.of_done {medium : Medium Error} {bad : α → Prop}
    {program : Endpoint Byte Error α} {value : α}
    (finished : program.view = .done value) (isBad : bad value) : Doomed medium bad program := by
  intro final result run resultView
  cases run with
  | refl =>
      rw [finished] at resultView
      cases resultView
      exact isBad
  | step calls =>
      rw [finished] at calls
      cases calls

theorem Doomed.resume {medium : Medium Error} {bad : α → Prop}
    {program : Endpoint Byte Error α} {operation : StreamCall Byte}
    {resume : StreamAnswer Byte Error operation → Endpoint Byte Error α}
    {answer : StreamAnswer Byte Error operation}
    (doomed : Doomed medium bad program) (calls : program.view = .call operation resume)
    (refused : medium.Refuses operation answer) : Doomed medium bad (resume answer) :=
  fun final value run finished => doomed final value (.step calls refused run) finished

theorem Doomed.of_call {medium : Medium Error} {bad : α → Prop}
    {program : Endpoint Byte Error α} {operation : StreamCall Byte}
    {resume : StreamAnswer Byte Error operation → Endpoint Byte Error α}
    (calls : program.view = .call operation resume)
    (refused : ∀ answer, medium.Refuses operation answer →
      resume answer = program ∨ Doomed medium bad (resume answer)) :
    Doomed medium bad program := by
  intro final value run finished
  induction run with
  | refl =>
      rw [calls] at finished
      cases finished
  | step sameCall refusal tail ih =>
      rw [calls] at sameCall
      cases sameCall
      rcases refused _ refusal with again | doomed
      · rw [again] at ih tail
        exact ih calls refused finished
      · exact doomed _ _ tail finished

theorem Doomed.bind {medium : Medium Error} {bad : α → Prop} {bad' : γ → Prop}
    {program : Endpoint Byte Error α} {continuation : α → Endpoint Byte Error γ}
    (doomed : Doomed medium bad program)
    (next : ∀ value, bad value → Doomed medium bad' (continuation value)) :
    Doomed medium bad' (program.bind continuation) := by
  intro final value run finished
  generalize start : program.bind continuation = whole at run
  induction run generalizing program with
  | refl =>
      cases head : program.view with
      | done result =>
          have isBad := doomed _ _ .refl head
          rw [Program.view_bind_done continuation head] at start
          exact next result isBad _ _ .refl (by rw [start]; exact finished)
      | call operation resume =>
          rw [← start, Program.view_bind_call continuation head] at finished
          cases finished
  | step calls refusal tail ih =>
      cases head : program.view with
      | done result =>
          have isBad := doomed _ _ .refl head
          rw [Program.view_bind_done continuation head] at start
          exact next result isBad _ _ (.step (by rw [start]; exact calls) refusal tail) finished
      | call operation resume =>
          rw [← start, Program.view_bind_call continuation head] at calls
          cases calls
          exact ih (doomed.resume head refusal) finished rfl

/-- The results an endpoint may reach: along the whole conversation, after a
broken connection, or by giving up on a write of a working one. -/
structure Results (α : Type) where
  good : α → Prop
  bad : α → Prop
  quit : α → Prop

/-- `program` says and hears the conversation as the endpoint `me`. A read may
be answered in any chunks, a write may be accepted in parts. -/
inductive Follows (medium : Medium Error) (me : Side) (results : Results α) :
    Conversation Byte → Endpoint Byte Error α → Prop where
  | done {program : Endpoint Byte Error α} {value : α} :
      program.view = .done value → results.good value → Follows medium me results [] program
  | write {program : Endpoint Byte Error α} {data : List Byte} {rest : Conversation Byte}
      {resume : WriteAnswer Error → Endpoint Byte Error α} (carriesOn : Nat → Prop) :
      program.view = .call (.write data) resume → data ≠ [] → carriesOn data.length →
      (∀ count, 0 < count → count ≤ data.length → carriesOn count →
        Follows medium me results (saying me (data.drop count) ++ rest)
          (resume (.accepted count))) →
      (∀ count, 0 < count → count ≤ data.length → ¬ carriesOn count →
        ∃ value, (resume (.accepted count)).view = .done value ∧ results.quit value) →
      (resume (.failed medium.writeBlocked) = program ∨
        ∃ value, (resume (.failed medium.writeBlocked)).view = .done value ∧
          results.quit value) →
      (∀ error, medium.fatal error → Doomed medium results.bad (resume (.failed error))) →
      Follows medium me results (saying me data ++ rest) program
  | read {program : Endpoint Byte Error α} {limit : Nat} {data : List Byte}
      {rest : Conversation Byte} {resume : ReadAnswer Byte Error → Endpoint Byte Error α} :
      program.view = .call (.read limit) resume → 0 < limit → limit ≤ data.length →
      (∀ count, 0 < count → count ≤ limit →
        Follows medium me results (saying me.other (data.drop count) ++ rest)
          (resume (.received (data.take count)))) →
      resume (.failed medium.readBlocked) = program →
      (∀ error, medium.fatal error → Doomed medium results.bad (resume (.failed error))) →
      Follows medium me results (saying me.other data ++ rest) program

theorem Follows.weaken {medium : Medium Error} {me : Side} {results : Results α}
    {conversation : Conversation Byte} {program : Endpoint Byte Error α} {good : α → Prop}
    (follows : Follows medium me results conversation program)
    (implies : ∀ value, results.good value → good value) :
    Follows medium me { results with good } conversation program := by
  induction follows with
  | done finished isGood => exact .done finished (implies _ isGood)
  | write carriesOn calls some full _ partially blocked broken ih =>
      exact .write carriesOn calls some full ih partially blocked broken
  | read calls positive bounded _ blocked broken ih =>
      exact .read calls positive bounded ih blocked broken

theorem Follows.converses {medium : Medium Error} {me : Side} {results : Results α}
    {conversation : Conversation Byte} {program : Endpoint Byte Error α}
    (follows : Follows medium me results conversation program) :
    Converses medium.readBlocked me results.good conversation program := by
  induction follows with
  | done finished isGood => exact .done finished isGood
  | @write program data rest resume carriesOn calls some full _ _ _ _ ih =>
      have whole := ih data.length (List.length_pos_of_ne_nil some) (Nat.le_refl _) full
      exact .write calls some (by simpa using whole)
  | read calls positive bounded _ blocked _ ih =>
      exact .read calls positive bounded ih blocked

theorem Follows.bind {medium : Medium Error} {me : Side} {results : Results α}
    {results' : Results γ} {first second : Conversation Byte}
    {program : Endpoint Byte Error α} {continuation : α → Endpoint Byte Error γ}
    (follows : Follows medium me results first program)
    (good : ∀ value, results.good value →
      Follows medium me results' second (continuation value))
    (bad : ∀ value, results.bad value → Doomed medium results'.bad (continuation value))
    (quit : ∀ value, results.quit value →
      ∃ result, (continuation value).view = .done result ∧ results'.quit result) :
    Follows medium me results' (first ++ second) (program.bind continuation) := by
  induction follows with
  | done finished isGood =>
      rw [Program.view_bind_done continuation finished]
      exact good _ isGood
  | @write program data rest resume carriesOn calls some full onward partially blocked broken ih =>
      have quits : ∀ answer : WriteAnswer Error,
          (∃ value, (resume answer).view = .done value ∧ results.quit value) →
          ∃ result, ((resume answer).bind continuation).view = .done result ∧
            results'.quit result := by
        rintro answer ⟨value, finished, isQuit⟩
        rw [Program.view_bind_done continuation finished]
        exact quit value isQuit
      rw [List.append_assoc]
      refine .write carriesOn (Program.view_bind_call continuation calls) some full ?_ ?_ ?_ ?_
      · intro count positive bounded carries
        rw [← List.append_assoc]
        exact ih count positive bounded carries
      · exact fun count positive bounded stops => quits _ (partially count positive bounded stops)
      · rcases blocked with again | quitting
        · exact .inl (by rw [again])
        · exact .inr (quits _ quitting)
      · exact fun error fatal => (broken error fatal).bind bad
  | @read program limit data rest resume calls positive bounded onward blocked broken ih =>
      rw [List.append_assoc]
      refine .read (Program.view_bind_call continuation calls) positive bounded ?_ ?_ ?_
      · intro count positive bounded
        rw [← List.append_assoc]
        exact ih count positive bounded
      · rw [blocked]
      · exact fun error fatal => (broken error fatal).bind bad

theorem Follows.done_inv {medium : Medium Error} {me : Side} {results : Results α}
    {conversation : Conversation Byte} {program : Endpoint Byte Error α} {value : α}
    (follows : Follows medium me results conversation program)
    (finished : program.view = .done value) : conversation = [] ∧ results.good value := by
  cases follows with
  | done sameView isGood =>
      rw [finished] at sameView
      cases sameView
      exact ⟨rfl, isGood⟩
  | write _ calls => rw [finished] at calls; cases calls
  | read calls => rw [finished] at calls; cases calls

/-- What an endpoint that follows a conversation does with each answer to a write. -/
structure WriteSpec (medium : Medium Error) (me : Side) (results : Results α)
    (conversation : Conversation Byte) (program : Endpoint Byte Error α) (data : List Byte)
    (resume : WriteAnswer Error → Endpoint Byte Error α) (rest : Conversation Byte) : Prop where
  said : conversation = saying me data ++ rest
  some : data ≠ []
  accepted : Follows medium me results rest (resume (.accepted data.length))
  partially : ∀ count, 0 < count → count ≤ data.length →
    Follows medium me results (saying me (data.drop count) ++ rest) (resume (.accepted count)) ∨
      count < data.length ∧
        ∃ value, (resume (.accepted count)).view = .done value ∧ results.quit value
  blocked : resume (.failed medium.writeBlocked) = program ∨
    ∃ value, (resume (.failed medium.writeBlocked)).view = .done value ∧ results.quit value
  broken : ∀ error, medium.fatal error → Doomed medium results.bad (resume (.failed error))

theorem Follows.write_inv {medium : Medium Error} {me : Side} {results : Results α}
    {conversation : Conversation Byte} {program : Endpoint Byte Error α} {data : List Byte}
    {resume : WriteAnswer Error → Endpoint Byte Error α}
    (follows : Follows medium me results conversation program)
    (calls : program.view = .call (.write data) resume) :
    ∃ rest, WriteSpec medium me results conversation program data resume rest := by
  cases follows with
  | done finished => rw [calls] at finished; cases finished
  | read sameCall => rw [calls] at sameCall; cases sameCall
  | @write _ _ rest _ carriesOn sameCall some full onward partially blocked broken =>
      rw [calls] at sameCall
      cases sameCall
      refine ⟨rest, rfl, some, ?_, ?_, blocked, broken⟩
      · have all := onward data.length (List.length_pos_of_ne_nil some) (Nat.le_refl _) full
        simpa using all
      · intro count positive bounded
        by_cases carries : carriesOn count
        · exact .inl (onward count positive bounded carries)
        · refine .inr ⟨Nat.lt_of_le_of_ne bounded ?_, partially count positive bounded carries⟩
          intro whole
          exact carries (whole ▸ full)

/-- What an endpoint that follows a conversation does with each answer to a read. -/
structure ReadSpec (medium : Medium Error) (me : Side) (results : Results α)
    (conversation : Conversation Byte) (program : Endpoint Byte Error α) (limit : Nat)
    (resume : ReadAnswer Byte Error → Endpoint Byte Error α) (data : List Byte)
    (rest : Conversation Byte) : Prop where
  heard : conversation = saying me.other data ++ rest
  positive : 0 < limit
  bounded : limit ≤ data.length
  received : ∀ count, 0 < count → count ≤ limit →
    Follows medium me results (saying me.other (data.drop count) ++ rest)
      (resume (.received (data.take count)))
  blocked : resume (.failed medium.readBlocked) = program
  broken : ∀ error, medium.fatal error → Doomed medium results.bad (resume (.failed error))

theorem Follows.read_inv {medium : Medium Error} {me : Side} {results : Results α}
    {conversation : Conversation Byte} {program : Endpoint Byte Error α} {limit : Nat}
    {resume : ReadAnswer Byte Error → Endpoint Byte Error α}
    (follows : Follows medium me results conversation program)
    (calls : program.view = .call (.read limit) resume) :
    ∃ data rest, ReadSpec medium me results conversation program limit resume data rest := by
  cases follows with
  | done finished => rw [calls] at finished; cases finished
  | write _ sameCall => rw [calls] at sameCall; cases sameCall
  | @read _ _ data rest _ sameCall positive bounded onward blocked broken =>
      rw [calls] at sameCall
      cases sameCall
      exact ⟨data, rest, rfl, positive, bounded, onward, blocked, broken⟩

theorem ReadSpec.data_ne_nil {medium : Medium Error} {me : Side} {results : Results α}
    {conversation : Conversation Byte} {program : Endpoint Byte Error α} {limit : Nat}
    {resume : ReadAnswer Byte Error → Endpoint Byte Error α} {data : List Byte}
    {rest : Conversation Byte}
    (spec : ReadSpec medium me results conversation program limit resume data rest) :
    data ≠ [] :=
  List.ne_nil_of_length_pos (Nat.lt_of_lt_of_le spec.positive spec.bounded)

theorem ReadSpec.hears {medium : Medium Error} (me : Side) {results : Results α}
    {program : Endpoint Byte Error α} {limit : Nat}
    {resume : ReadAnswer Byte Error → Endpoint Byte Error α} {chunk tail data : List Byte}
    {rest remaining : Conversation Byte}
    (spec : ReadSpec medium me results (saying me.other (chunk ++ tail) ++ remaining) program
      limit resume data rest)
    (some : chunk ≠ []) (short : chunk.length ≤ limit) :
    Follows medium me results (saying me.other tail ++ remaining) (resume (.received chunk)) := by
  have same : saying me.other chunk ++ (saying me.other tail ++ remaining) =
      saying me.other data ++ rest := by
    rw [← List.append_assoc, ← saying_append]
    exact spec.heard
  obtain ⟨taken, left⟩ := saying_append_inj_of_length_le (Nat.le_trans short spec.bounded) same
  have onward := spec.received chunk.length (List.length_pos_of_ne_nil some) short
  rw [← taken] at onward
  rw [left]
  exact onward

end Uc1Integration.Interaction
