import Mathlib.Data.List.Infix
import Mathlib.Logic.Function.Basic
import Mathlib.Logic.Relation
import Uc1Integration.Interaction.Following

/-!
# A link whose connections may break

Writes may be accepted in part or put off, reads come in any chunks. From any
moment on the connection of a side may be broken for good: its calls are then
refused, and of what it has in flight only a prefix need still arrive.
-/

set_option autoImplicit false

namespace Uc1Integration.Interaction

open Conversation

variable {Byte Error α : Type}

structure FailingLink (Byte Error α : Type) where
  program : Side → Endpoint Byte Error α
  flying : Side → List Byte
  broken : Side → Bool
  heard : Side → List Byte

namespace FailingLink

def start (program : Side → Endpoint Byte Error α) : FailingLink Byte Error α :=
  ⟨program, fun _ => [], fun _ => false, fun _ => []⟩

inductive Step (medium : Medium Error) :
    FailingLink Byte Error α → FailingLink Byte Error α → Prop where
  | write {link : FailingLink Byte Error α} (side : Side) {data : List Byte} {count : Nat}
      {resume : WriteAnswer Error → Endpoint Byte Error α} :
      link.broken side = false → (link.program side).view = .call (.write data) resume →
      0 < count → count ≤ data.length →
      Step medium link
        { link with
          program := Function.update link.program side (resume (.accepted count))
          flying := Function.update link.flying side (link.flying side ++ data.take count) }
  | writeBlocked {link : FailingLink Byte Error α} (side : Side) {data : List Byte}
      {resume : WriteAnswer Error → Endpoint Byte Error α} :
      link.broken side = false → (link.program side).view = .call (.write data) resume →
      Step medium link
        { link with
          program := Function.update link.program side (resume (.failed medium.writeBlocked)) }
  | read {link : FailingLink Byte Error α} (side : Side) {limit : Nat} {data rest : List Byte}
      {resume : ReadAnswer Byte Error → Endpoint Byte Error α} :
      link.broken side = false → (link.program side).view = .call (.read limit) resume →
      link.flying side.other = data ++ rest → data ≠ [] → data.length ≤ limit →
      Step medium link
        { link with
          program := Function.update link.program side (resume (.received data))
          flying := Function.update link.flying side.other rest
          heard := Function.update link.heard side (link.heard side ++ data) }
  | readBlocked {link : FailingLink Byte Error α} (side : Side) {limit : Nat}
      {resume : ReadAnswer Byte Error → Endpoint Byte Error α} :
      link.broken side = false → (link.program side).view = .call (.read limit) resume →
      Step medium link
        { link with
          program := Function.update link.program side (resume (.failed medium.readBlocked)) }
  | fail {link : FailingLink Byte Error α} (side : Side) :
      Step medium link { link with broken := Function.update link.broken side true }
  | refuse {link : FailingLink Byte Error α} (side : Side) {operation : StreamCall Byte}
      {resume : StreamAnswer Byte Error operation → Endpoint Byte Error α}
      {answer : StreamAnswer Byte Error operation} :
      link.broken side = true → (link.program side).view = .call operation resume →
      medium.Refuses operation answer →
      Step medium link { link with program := Function.update link.program side (resume answer) }
  | lose {link : FailingLink Byte Error α} (side : Side) (kept : Nat) :
      link.broken side = true →
      Step medium link
        { link with flying := Function.update link.flying side ((link.flying side).take kept) }

abbrev Reaches (medium : Medium Error) :
    FailingLink Byte Error α → FailingLink Byte Error α → Prop :=
  Relation.ReflTransGen (Step medium)

/-- One turn of a side that works: a write goes through, a read takes at most `chunk` bytes. -/
def turn (link : FailingLink Byte Error α) (side : Side) (chunk : Nat) :
    FailingLink Byte Error α :=
  if link.broken side then link
  else
    match (link.program side).view with
    | .done _ => link
    | .call (.write data) resume =>
        if data = [] then link
        else
          { link with
            program := Function.update link.program side (resume (.accepted data.length))
            flying := Function.update link.flying side (link.flying side ++ data) }
    | .call (.read limit) resume =>
        let data := (link.flying side.other).take (min limit chunk)
        if data = [] then link
        else
          { link with
            program := Function.update link.program side (resume (.received data))
            flying := Function.update link.flying side.other
              ((link.flying side.other).drop (min limit chunk))
            heard := Function.update link.heard side (link.heard side ++ data) }

def turns (link : FailingLink Byte Error α) : List (Side × Nat) → FailingLink Byte Error α
  | [] => link
  | (side, chunk) :: rest => turns (turn link side chunk) rest

theorem reaches_turn (medium : Medium Error) (link : FailingLink Byte Error α) (side : Side)
    (chunk : Nat) : Reaches medium link (turn link side chunk) := by
  unfold turn
  split
  next => exact .refl
  next working =>
      rw [Bool.not_eq_true] at working
      split
      next => exact .refl
      next data resume calls =>
          split
          next => exact .refl
          next some =>
              have whole : Step medium link _ := .write side working calls
                (List.length_pos_of_ne_nil some) (Nat.le_refl _)
              rw [List.take_length] at whole
              exact .single whole
      next limit resume calls =>
          dsimp only
          split
          next => exact .refl
          next some =>
              refine .single (.read side working calls (List.take_append_drop _ _).symm some ?_)
              exact Nat.le_trans (List.length_take_le _ _) (Nat.min_le_left limit chunk)

theorem reaches_turns (medium : Medium Error) (link : FailingLink Byte Error α)
    (order : List (Side × Nat)) : Reaches medium link (turns link order) := by
  induction order generalizing link with
  | nil => exact .refl
  | cons entry rest ih =>
      exact (reaches_turn medium link entry.1 entry.2).trans (ih _)

/-- A side that left the conversation before its end, with a bad result or none. -/
inductive Left (medium : Medium Error) (results : Results α) (broken : Bool)
    (program : Endpoint Byte Error α) : Prop where
  | quit {value : α} : program.view = .done value → results.quit value →
      Left medium results broken program
  | doomed : broken = true → Doomed medium results.bad program →
      Left medium results broken program

/-- A side stands where `conversation` remains, whether it still follows it or not. -/
def Stands (medium : Medium Error) (me : Side) (results : Results α)
    (conversation : Conversation Byte) (broken : Bool) (program : Endpoint Byte Error α) : Prop :=
  Follows medium me results conversation program ∨
    conversation ≠ [] ∧ Left medium results broken program

/-- The conversation is heard up to `said` by both sides; the speaker alone is
ahead, by `data`, of which what it has in flight is a prefix. -/
structure Position (medium : Medium Error) (results : Side → Results α)
    (conversation : Conversation Byte) (link : FailingLink Byte Error α)
    (speaker : Side) (said : Conversation Byte) (data : List Byte)
    (rest : Conversation Byte) : Prop where
  whole : conversation = said ++ (saying speaker data ++ rest)
  ahead : Stands medium speaker (results speaker) rest (link.broken speaker)
    (link.program speaker)
  behind : Stands medium speaker.other (results speaker.other) (saying speaker data ++ rest)
    (link.broken speaker.other) (link.program speaker.other)
  silent : link.flying speaker.other = []
  flies : link.flying speaker <+: data
  intact : link.broken speaker = false → link.flying speaker = data
  heard : ∀ side, link.heard side = saidBy side.other said

def Along (medium : Medium Error) (results : Side → Results α)
    (conversation : Conversation Byte) (link : FailingLink Byte Error α) : Prop :=
  ∃ speaker said data rest, Position medium results conversation link speaker said data rest

theorem along_start {medium : Medium Error} {results : Side → Results α}
    {conversation : Conversation Byte} {program : Side → Endpoint Byte Error α}
    (follows : ∀ side, Follows medium side (results side) conversation (program side)) :
    Along medium results conversation (start program) :=
  ⟨.left, [], [], conversation, by simp, .inl (follows _), .inl (by simpa [start] using follows _),
    rfl, by simp [start], by simp [start], by simp [start]⟩

theorem Stands.working {medium : Medium Error} {me : Side} {results : Results α}
    {conversation : Conversation Byte} {program : Endpoint Byte Error α}
    {operation : StreamCall Byte}
    {resume : StreamAnswer Byte Error operation → Endpoint Byte Error α}
    (stands : Stands medium me results conversation false program)
    (calls : program.view = .call operation resume) :
    Follows medium me results conversation program := by
  rcases stands with follows | ⟨_, left⟩
  · exact follows
  · cases left with
    | quit finished => rw [calls] at finished; cases finished
    | doomed broken => cases broken

theorem Stands.breaks {medium : Medium Error} {me : Side} {results : Results α}
    {conversation : Conversation Byte} {program : Endpoint Byte Error α} {broken : Bool}
    (stands : Stands medium me results conversation broken program) :
    Stands medium me results conversation true program := by
  rcases stands with follows | ⟨some, left⟩
  · exact .inl follows
  · refine .inr ⟨some, ?_⟩
    cases left with
    | quit finished isQuit => exact .quit finished isQuit
    | doomed _ doomed => exact .doomed rfl doomed

theorem Stands.refused {medium : Medium Error} {me : Side} {results : Results α}
    {conversation : Conversation Byte} {program : Endpoint Byte Error α}
    {operation : StreamCall Byte}
    {resume : StreamAnswer Byte Error operation → Endpoint Byte Error α}
    {answer : StreamAnswer Byte Error operation}
    (stands : Stands medium me results conversation true program)
    (calls : program.view = .call operation resume) (refused : medium.Refuses operation answer) :
    Stands medium me results conversation true (resume answer) := by
  rcases stands with follows | ⟨some, left⟩
  · cases refused with
    | read fatal =>
        obtain ⟨data, rest, spec⟩ := follows.read_inv calls
        refine .inr ⟨?_, .doomed rfl (spec.broken _ fatal)⟩
        rw [spec.heard]
        simp [spec.data_ne_nil]
    | write fatal =>
        obtain ⟨rest, spec⟩ := follows.write_inv calls
        refine .inr ⟨?_, .doomed rfl (spec.broken _ fatal)⟩
        rw [spec.said]
        simp [spec.some]
  · refine .inr ⟨some, ?_⟩
    cases left with
    | quit finished => rw [calls] at finished; cases finished
    | doomed _ doomed => exact .doomed rfl (doomed.resume calls refused)

theorem WriteSpec.stands {medium : Medium Error} {me : Side} {results : Results α}
    {conversation : Conversation Byte} {program : Endpoint Byte Error α} {data : List Byte}
    {resume : WriteAnswer Error → Endpoint Byte Error α} {rest : Conversation Byte}
    (spec : WriteSpec medium me results conversation program data resume rest) {count : Nat}
    (positive : 0 < count) (bounded : count ≤ data.length) (broken : Bool) :
    Stands medium me results (saying me (data.drop count) ++ rest) broken
      (resume (.accepted count)) := by
  rcases spec.partially count positive bounded with onward | ⟨short, value, finished, isQuit⟩
  · exact .inl onward
  · refine .inr ⟨?_, .quit finished isQuit⟩
    have some : data.drop count ≠ [] := by
      rw [Ne, List.drop_eq_nil_iff]
      omega
    simp [some]

private theorem Position.replace {medium : Medium Error} {results : Side → Results α}
    {conversation : Conversation Byte} {link : FailingLink Byte Error α} {speaker : Side}
    {said : Conversation Byte} {data : List Byte} {rest : Conversation Byte}
    (position : Position medium results conversation link speaker said data rest) (side : Side)
    {program : Endpoint Byte Error α}
    (same : ∀ remaining,
      Stands medium side (results side) remaining (link.broken side) (link.program side) →
      Stands medium side (results side) remaining (link.broken side) program) :
    Position medium results conversation
      { link with program := Function.update link.program side program } speaker said data rest := by
  rcases Side.eq_or_eq_other side speaker with rfl | rfl
  · exact { position with
      ahead := by simpa using same _ position.ahead
      behind := by simpa using position.behind }
  · exact { position with
      ahead := by simpa using position.ahead
      behind := by simpa using same _ position.behind }

private theorem along_failing_write {medium : Medium Error} {results : Side → Results α}
    {conversation : Conversation Byte} {link : FailingLink Byte Error α}
    (along : Along medium results conversation link) {side : Side} {sent : List Byte}
    {count : Nat} {resume : WriteAnswer Error → Endpoint Byte Error α}
    (working : link.broken side = false)
    (calls : (link.program side).view = .call (.write sent) resume)
    (positive : 0 < count) (bounded : count ≤ sent.length) :
    Along medium results conversation
      { link with
        program := Function.update link.program side (resume (.accepted count))
        flying := Function.update link.flying side (link.flying side ++ sent.take count) } := by
  obtain ⟨speaker, said, data, rest, position⟩ := along
  rcases Side.eq_or_eq_other side speaker with rfl | rfl
  · obtain ⟨tail, spec⟩ := (working ▸ position.ahead).working calls |>.write_inv calls
    have split : rest = saying side (sent.take count) ++
        (saying side (sent.drop count) ++ tail) := by
      rw [← List.append_assoc, ← saying_append, List.take_append_drop]
      exact spec.said
    have intact := position.intact working
    refine ⟨side, said, data ++ sent.take count, saying side (sent.drop count) ++ tail, ?_⟩
    exact {
      whole := by simpa [← split] using position.whole
      ahead := by simpa using WriteSpec.stands spec positive bounded _
      behind := by simpa [← split] using position.behind
      silent := by simpa using position.silent
      flies := by simp [intact]
      intact := by simp [intact]
      heard := position.heard }
  · obtain ⟨tail, spec⟩ := (working ▸ position.behind).working calls |>.write_inv calls
    have quiet : data = [] := by
      by_contra some
      exact Side.ne_other speaker (speaker_eq_of_append_eq some spec.some spec.said)
    subst quiet
    have split : rest = saying speaker.other (sent.take count) ++
        (saying speaker.other (sent.drop count) ++ tail) := by
      rw [← List.append_assoc, ← saying_append, List.take_append_drop]
      simpa using spec.said
    have nothing : link.flying speaker = [] := List.prefix_nil.mp position.flies
    refine ⟨speaker.other, said, sent.take count, saying speaker.other (sent.drop count) ++ tail, ?_⟩
    exact {
      whole := by simpa [← split] using position.whole
      ahead := by simpa using WriteSpec.stands spec positive bounded _
      behind := by simpa [← split] using position.ahead
      silent := by simpa using nothing
      flies := by simp [position.silent]
      intact := by simp [position.silent]
      heard := position.heard }

private theorem along_failing_read {medium : Medium Error} {results : Side → Results α}
    {conversation : Conversation Byte} {link : FailingLink Byte Error α}
    (along : Along medium results conversation link) {side : Side} {limit : Nat}
    {chunk tail : List Byte} {resume : ReadAnswer Byte Error → Endpoint Byte Error α}
    (working : link.broken side = false)
    (calls : (link.program side).view = .call (.read limit) resume)
    (flying : link.flying side.other = chunk ++ tail) (some : chunk ≠ [])
    (short : chunk.length ≤ limit) :
    Along medium results conversation
      { link with
        program := Function.update link.program side (resume (.received chunk))
        flying := Function.update link.flying side.other tail
        heard := Function.update link.heard side (link.heard side ++ chunk) } := by
  obtain ⟨speaker, said, data, rest, position⟩ := along
  rcases Side.eq_or_eq_other side speaker with rfl | rfl
  · rw [position.silent] at flying
    simp [some] at flying
  · rw [Side.other_other] at flying
    -- What was lost is a suffix, so the chunk read is what comes next.
    obtain ⟨lost, remains⟩ := position.flies
    rw [flying, List.append_assoc] at remains
    subst remains
    obtain ⟨ahead, remaining, spec⟩ := (working ▸ position.behind).working calls |>.read_inv calls
    have onward := ReadSpec.hears speaker.other (by simpa using spec) some short
    refine ⟨speaker, said ++ saying speaker chunk, tail ++ lost, rest, ?_⟩
    exact {
      whole := by simpa using position.whole
      ahead := by simpa using position.ahead
      behind := .inl (by simpa using onward)
      silent := by simpa using position.silent
      flies := by simp
      intact := by
        intro intact
        have same := position.intact (by simpa using intact)
        rw [flying] at same
        simpa using same
      heard := by
        intro one
        rcases Side.eq_or_eq_other one speaker with rfl | rfl
        · simpa using position.heard one
        · simp [position.heard] }

theorem Along.step {medium : Medium Error} {results : Side → Results α}
    {conversation : Conversation Byte} {link link' : FailingLink Byte Error α}
    (along : Along medium results conversation link) (step : Step medium link link') :
    Along medium results conversation link' := by
  cases step with
  | write side working calls positive bounded =>
      exact along_failing_write along working calls positive bounded
  | read side working calls flying some short =>
      exact along_failing_read along working calls flying some short
  | writeBlocked side working calls =>
      obtain ⟨speaker, said, data, rest, position⟩ := along
      refine ⟨speaker, said, data, rest, position.replace side ?_⟩
      intro remaining stands
      obtain ⟨tail, spec⟩ := (working ▸ stands).working calls |>.write_inv calls
      rcases spec.blocked with again | ⟨value, finished, isQuit⟩
      · rw [again]
        exact stands
      · refine .inr ⟨?_, .quit finished isQuit⟩
        rw [spec.said]
        simp [spec.some]
  | readBlocked side working calls =>
      obtain ⟨speaker, said, data, rest, position⟩ := along
      refine ⟨speaker, said, data, rest, position.replace side ?_⟩
      intro remaining stands
      obtain ⟨_, _, spec⟩ := (working ▸ stands).working calls |>.read_inv calls
      rw [spec.blocked]
      exact stands
  | refuse side isBroken calls refused =>
      obtain ⟨speaker, said, data, rest, position⟩ := along
      refine ⟨speaker, said, data, rest, position.replace side ?_⟩
      intro remaining stands
      rw [isBroken] at stands ⊢
      exact stands.refused calls refused
  | fail side =>
      obtain ⟨speaker, said, data, rest, position⟩ := along
      refine ⟨speaker, said, data, rest, ?_⟩
      rcases Side.eq_or_eq_other side speaker with rfl | rfl
      · exact { position with
          ahead := by simpa using position.ahead.breaks
          behind := by simpa using position.behind
          intact := by simp }
      · exact { position with
          ahead := by simpa using position.ahead
          behind := by simpa using position.behind.breaks
          intact := by simpa using position.intact }
  | lose side kept isBroken =>
      obtain ⟨speaker, said, data, rest, position⟩ := along
      refine ⟨speaker, said, data, rest, ?_⟩
      rcases Side.eq_or_eq_other side speaker with rfl | rfl
      · exact { position with
          silent := by simpa using position.silent
          flies := by simpa using (List.take_prefix kept _).trans position.flies
          intact := by simp [isBroken] }
      · exact { position with
          silent := by simp [position.silent]
          flies := by simpa using position.flies
          intact := by simpa using position.intact }

theorem Along.reaches {medium : Medium Error} {results : Side → Results α}
    {conversation : Conversation Byte} {link link' : FailingLink Byte Error α}
    (along : Along medium results conversation link) (reaches : Reaches medium link link') :
    Along medium results conversation link' := by
  induction reaches with
  | refl => exact along
  | tail _ step ih => exact ih.step step

/-- Whatever has been heard, there is one place of the conversation both sides
have heard everything up to and nothing beyond. -/
theorem Along.heard {medium : Medium Error} {results : Side → Results α}
    {conversation : Conversation Byte} {link : FailingLink Byte Error α}
    (along : Along medium results conversation link) :
    ∃ said, said <+: conversation ∧ ∀ side, link.heard side = saidBy side.other said := by
  obtain ⟨speaker, said, data, rest, position⟩ := along
  exact ⟨said, ⟨_, position.whole.symm⟩, position.heard⟩

/-- If a conversation ends with a word of the listener, a side that finished it
properly leaves the listener nothing to say or hear. -/
theorem Along.agreement {medium : Medium Error} {results : Side → Results α}
    {conversation : Conversation Byte} {link : FailingLink Byte Error α}
    (along : Along medium results conversation link) {side : Side} {value value' : α}
    (lastWord : ∃ before byte, conversation = before ++ saying side.other [byte])
    (finished : (link.program side).view = .done value)
    (proper : ¬ (results side).bad value ∧ ¬ (results side).quit value)
    (otherFinished : (link.program side.other).view = .done value') :
    (results side).good value ∧ (results side.other).good value' := by
  obtain ⟨speaker, said, data, rest, position⟩ := along
  have atEnd : ∀ remaining,
      Stands medium side (results side) remaining (link.broken side) (link.program side) →
      remaining = [] ∧ (results side).good value := by
    rintro remaining (follows | ⟨_, left⟩)
    · exact follows.done_inv finished
    · cases left with
      | quit sameView isQuit =>
          rw [finished] at sameView
          cases sameView
          exact absurd isQuit proper.2
      | doomed _ doomed => exact absurd (doomed _ _ .refl finished) proper.1
  have otherGood : Stands medium side.other (results side.other) [] (link.broken side.other)
      (link.program side.other) → (results side.other).good value' := by
    rintro (follows | ⟨some, _⟩)
    · exact (follows.done_inv otherFinished).2
    · exact absurd rfl some
  rcases Side.eq_or_eq_other side speaker with rfl | rfl
  · obtain ⟨nothing, isGood⟩ := atEnd rest position.ahead
    refine ⟨isGood, otherGood ?_⟩
    have whole := position.whole
    obtain ⟨before, byte, ending⟩ := lastWord
    -- The speaker's own bytes cannot be last, so none of them is still in flight.
    have quiet : data = [] := by
      rcases List.eq_nil_or_concat data with empty | ⟨front, last, shape⟩
      · exact empty
      · rw [ending, nothing, shape, List.append_nil, List.concat_eq_append, saying_append,
          ← List.append_assoc] at whole
        have lasts := List.append_inj_right' whole (by simp [saying])
        simp [saying] at lasts
    simpa [nothing, quiet] using position.behind
  · obtain ⟨nothing, isGood⟩ := atEnd _ position.behind
    refine ⟨isGood, otherGood ?_⟩
    have ended : rest = [] := by
      have := congrArg List.length nothing
      simp at this
      exact this.2
    simpa [ended] using position.ahead

end FailingLink

end Uc1Integration.Interaction
