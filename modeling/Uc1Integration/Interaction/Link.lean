import Mathlib.Logic.Function.Basic
import Mathlib.Logic.Relation
import Uc1Integration.Interaction.Conversation

/-!
# A reliable link

Two endpoints joined by two FIFO byte channels. Writes are accepted in full, a
read takes any positive number of the bytes in flight up to its limit, and a
read of an empty channel is told to try again.
-/

set_option autoImplicit false

namespace Uc1Integration.Interaction

open Conversation

variable {Byte Error α : Type}

/-- The programs of the two sides, and the bytes each has written that the
other has not read yet. -/
structure Link (Byte Error α : Type) where
  program : Side → Endpoint Byte Error α
  flying : Side → List Byte

namespace Link

def start (program : Side → Endpoint Byte Error α) : Link Byte Error α :=
  ⟨program, fun _ => []⟩

inductive Step (readBlocked : Error) : Link Byte Error α → Link Byte Error α → Prop where
  | write {link : Link Byte Error α} (side : Side) {data : List Byte}
      {resume : WriteAnswer Error → Endpoint Byte Error α} :
      (link.program side).view = .call (.write data) resume →
      Step readBlocked link
        ⟨Function.update link.program side (resume (.accepted data.length)),
          Function.update link.flying side (link.flying side ++ data)⟩
  | read {link : Link Byte Error α} (side : Side) {limit : Nat} {data rest : List Byte}
      {resume : ReadAnswer Byte Error → Endpoint Byte Error α} :
      (link.program side).view = .call (.read limit) resume →
      link.flying side.other = data ++ rest → data ≠ [] → data.length ≤ limit →
      Step readBlocked link
        ⟨Function.update link.program side (resume (.received data)),
          Function.update link.flying side.other rest⟩
  | readBlocked {link : Link Byte Error α} (side : Side) {limit : Nat}
      {resume : ReadAnswer Byte Error → Endpoint Byte Error α} :
      (link.program side).view = .call (.read limit) resume →
      link.flying side.other = [] →
      Step readBlocked link
        ⟨Function.update link.program side (resume (.failed readBlocked)), link.flying⟩

abbrev Reaches (readBlocked : Error) :
    Link Byte Error α → Link Byte Error α → Prop :=
  Relation.ReflTransGen (Step readBlocked)

/-- One turn of a side whose reads take at most `chunk` bytes. -/
def turn (readBlocked : Error) (link : Link Byte Error α) (side : Side) (chunk : Nat) :
    Link Byte Error α :=
  match (link.program side).view with
  | .done _ => link
  | .call (.write data) resume =>
      ⟨Function.update link.program side (resume (.accepted data.length)),
        Function.update link.flying side (link.flying side ++ data)⟩
  | .call (.read limit) resume =>
      let data := (link.flying side.other).take (min limit chunk)
      if link.flying side.other = [] then
        ⟨Function.update link.program side (resume (.failed readBlocked)), link.flying⟩
      else if data = [] then link
      else
        ⟨Function.update link.program side (resume (.received data)),
          Function.update link.flying side.other
            ((link.flying side.other).drop (min limit chunk))⟩

def turns (readBlocked : Error) (link : Link Byte Error α) : List (Side × Nat) → Link Byte Error α
  | [] => link
  | (side, chunk) :: rest => turns readBlocked (turn readBlocked link side chunk) rest

theorem reaches_turn (readBlocked : Error) (link : Link Byte Error α) (side : Side)
    (chunk : Nat) : Reaches readBlocked link (turn readBlocked link side chunk) := by
  unfold turn
  split
  next => exact .refl
  next calls => exact .single (.write side calls)
  next limit resume calls =>
      dsimp only
      split
      next quiet => exact .single (.readBlocked side calls quiet)
      next =>
          split
          next => exact .refl
          next some =>
              refine .single (.read side calls (List.take_append_drop _ _).symm some ?_)
              exact Nat.le_trans (List.length_take_le _ _) (Nat.min_le_left limit chunk)

theorem reaches_turns (readBlocked : Error) (link : Link Byte Error α)
    (order : List (Side × Nat)) : Reaches readBlocked link (turns readBlocked link order) := by
  induction order generalizing link with
  | nil => exact .refl
  | cons entry rest ih =>
      exact (reaches_turn readBlocked link entry.1 entry.2).trans (ih _)

def Finished (link : Link Byte Error α) (side : Side) : Prop :=
  ∃ value, (link.program side).view = .done value

instance (link : Link Byte Error α) (side : Side) : Decidable (link.Finished side) :=
  decidable_of_iff ((link.program side).result?.isSome = true) (by
    simp only [Finished, Program.view_eq_done_iff, Option.isSome_iff_exists])

/-- The side can take a step other than being told to try its read again. -/
inductive Moves (link : Link Byte Error α) (side : Side) : Prop where
  | write {data : List Byte} {resume : WriteAnswer Error → Endpoint Byte Error α} :
      (link.program side).view = .call (.write data) resume → Moves link side
  | read {limit : Nat} {resume : ReadAnswer Byte Error → Endpoint Byte Error α} :
      (link.program side).view = .call (.read limit) resume → 0 < limit →
      link.flying side.other ≠ [] → Moves link side

/-- One side, the speaker, is ahead by the bytes it has in flight; nothing else is. -/
def Along (readBlocked : Error) (good : Side → α → Prop) (link : Link Byte Error α) :
    Prop :=
  ∃ speaker rest,
    Converses readBlocked speaker (good speaker) rest (link.program speaker) ∧
    Converses readBlocked speaker.other (good speaker.other)
      (saying speaker (link.flying speaker) ++ rest) (link.program speaker.other) ∧
    link.flying speaker.other = []

theorem along_start {readBlocked : Error} {good : Side → α → Prop}
    {conversation : Conversation Byte} {program : Side → Endpoint Byte Error α}
    (converses : ∀ side, Converses readBlocked side (good side) conversation (program side)) :
    Along readBlocked good (start program) :=
  ⟨.left, conversation, converses _, by simpa [start] using converses _, rfl⟩

private theorem along_write {readBlocked : Error} {good : Side → α → Prop}
    {link : Link Byte Error α} (along : Along readBlocked good link) {side : Side}
    {data : List Byte} {resume : WriteAnswer Error → Endpoint Byte Error α}
    (calls : (link.program side).view = .call (.write data) resume) :
    Along readBlocked good
      ⟨Function.update link.program side (resume (.accepted data.length)),
        Function.update link.flying side (link.flying side ++ data)⟩ := by
  obtain ⟨speaker, rest, ahead, behind, silent⟩ := along
  rcases Side.eq_or_eq_other side speaker with rfl | rfl
  · obtain ⟨tail, said, _, onward⟩ := ahead.write_inv calls
    refine ⟨side, tail, by simpa using onward, ?_, by simpa using silent⟩
    subst said
    simpa [List.append_assoc] using behind
  · obtain ⟨tail, said, some, onward⟩ := behind.write_inv calls
    -- The one behind can only speak when it has heard all there is.
    have quiet : link.flying speaker = [] := by
      by_contra left
      exact Side.ne_other speaker (speaker_eq_of_append_eq left some said)
    rw [quiet, saying_nil, List.nil_append] at said
    subst said
    refine ⟨speaker.other, tail, by simpa using onward, ?_, by simpa using quiet⟩
    simpa [silent] using ahead

private theorem along_read {readBlocked : Error} {good : Side → α → Prop}
    {link : Link Byte Error α} (along : Along readBlocked good link) {side : Side} {limit : Nat}
    {data tail : List Byte} {resume : ReadAnswer Byte Error → Endpoint Byte Error α}
    (calls : (link.program side).view = .call (.read limit) resume)
    (flies : link.flying side.other = data ++ tail) (some : data ≠ [])
    (short : data.length ≤ limit) :
    Along readBlocked good
      ⟨Function.update link.program side (resume (.received data)),
        Function.update link.flying side.other tail⟩ := by
  obtain ⟨speaker, rest, ahead, behind, silent⟩ := along
  rcases Side.eq_or_eq_other side speaker with rfl | rfl
  · rw [silent] at flies
    simp [some] at flies
  · rw [Side.other_other] at flies
    rw [flies] at behind
    have onward := Converses.hears speaker.other (by simpa using behind) calls some short
    refine ⟨speaker, rest, by simpa using ahead, ?_, by simpa using silent⟩
    simpa using onward

theorem Along.step {readBlocked : Error} {good : Side → α → Prop}
    {link link' : Link Byte Error α} (along : Along readBlocked good link)
    (step : Step readBlocked link link') : Along readBlocked good link' := by
  cases step with
  | write side calls => exact along_write along calls
  | read side calls flies some short => exact along_read along calls flies some short
  | @readBlocked side limit resume calls quiet =>
      have unchanged : ∀ {conversation},
          Converses readBlocked side (good side) conversation (link.program side) →
          Along readBlocked good ⟨Function.update link.program side
            (resume (.failed readBlocked)), link.flying⟩ := by
        intro conversation converses
        obtain ⟨_, blocked, _⟩ := converses.read_inv calls
        rw [blocked, Function.update_eq_self]
        exact along
      obtain ⟨speaker, rest, ahead, behind, silent⟩ := id along
      rcases Side.eq_or_eq_other side speaker with rfl | rfl
      · exact unchanged ahead
      · exact unchanged behind

theorem Along.reaches {readBlocked : Error} {good : Side → α → Prop}
    {link link' : Link Byte Error α} (along : Along readBlocked good link)
    (reaches : Reaches readBlocked link link') : Along readBlocked good link' := by
  induction reaches with
  | refl => exact along
  | tail _ step ih => exact ih.step step

/-- On the way along a conversation some unfinished side can always move. -/
theorem Along.moves {readBlocked : Error} {good : Side → α → Prop}
    {link : Link Byte Error α} (along : Along readBlocked good link) {side : Side}
    (unfinished : ¬ link.Finished side) : ∃ mover, link.Moves mover := by
  obtain ⟨speaker, rest, ahead, behind, silent⟩ := along
  by_cases quiet : link.flying speaker = []
  · rw [quiet, saying_nil, List.nil_append] at behind
    have both : ∀ one, Converses readBlocked one (good one) rest (link.program one) := by
      intro one
      rcases Side.eq_or_eq_other one speaker with rfl | rfl
      · exact ahead
      · exact behind
    cases rest with
    | nil =>
        obtain ⟨value, finished⟩ := (both side).finished_of_nil
        exact absurd ⟨value, finished⟩ unfinished
    | cons entry rest =>
        -- The next byte has a speaker, and that side is about to write.
        obtain ⟨mover, byte⟩ := entry
        cases head : (link.program mover).view with
        | done value => exact absurd ((both mover).done_inv head).1 (by simp)
        | call operation resume =>
            cases operation with
            | write data => exact ⟨mover, .write head⟩
            | read limit =>
                obtain ⟨positive, _, data, tail, heard, bounded, _⟩ := (both mover).read_inv head
                have same : saying mover [byte] ++ rest = saying mover.other data ++ tail :=
                  heard
                have some : data ≠ [] :=
                  List.ne_nil_of_length_pos (Nat.lt_of_lt_of_le positive bounded)
                exact absurd (speaker_eq_of_append_eq (by simp) some same) (Side.ne_other mover)
  · refine ⟨speaker.other, ?_⟩
    cases head : (link.program speaker.other).view with
    | done value =>
        have ended := (behind.done_inv head).1
        simp [quiet] at ended
    | call operation resume =>
        cases operation with
        | read limit =>
            obtain ⟨positive, _⟩ := behind.read_inv head
            exact .read head positive (by simpa using quiet)
        | write data =>
            obtain ⟨tail, said, some, _⟩ := behind.write_inv head
            exact absurd (speaker_eq_of_append_eq quiet some said) (Side.ne_other speaker)

theorem Along.finished {readBlocked : Error} {good : Side → α → Prop}
    {link : Link Byte Error α} (along : Along readBlocked good link) {value : Side → α}
    (finished : ∀ side, (link.program side).view = .done (value side)) :
    (∀ side, good side (value side)) ∧ ∀ side, link.flying side = [] := by
  obtain ⟨speaker, rest, ahead, behind, silent⟩ := along
  obtain ⟨atEnd, aheadGood⟩ := ahead.done_inv (finished speaker)
  obtain ⟨otherAtEnd, behindGood⟩ := behind.done_inv (finished speaker.other)
  have quiet : link.flying speaker = [] := by simpa [atEnd] using otherAtEnd
  constructor <;> intro side <;> rcases Side.eq_or_eq_other side speaker with rfl | rfl
  · exact aheadGood
  · exact behindGood
  · exact quiet
  · exact silent

end Link

end Uc1Integration.Interaction
