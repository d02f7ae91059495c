import Mathlib.Data.List.Basic
import Uc1Integration.Interaction.Program

/-!
# Conversations over byte streams

A conversation fixes the bytes two endpoints exchange and their order. An
endpoint converses along it when, over a reliable stream, every chunking of its
reads leads on along the conversation to a good result.
-/

set_option autoImplicit false

namespace Uc1Integration.Interaction

inductive Side where
  | left
  | right
  deriving DecidableEq, Repr

def Side.other : Side → Side
  | .left => .right
  | .right => .left

@[simp] theorem Side.other_other (side : Side) : side.other.other = side := by
  cases side <;> rfl

@[simp] theorem Side.other_ne (side : Side) : side.other ≠ side := by
  cases side <;> decide

@[simp] theorem Side.ne_other (side : Side) : side ≠ side.other := by
  cases side <;> decide

theorem Side.eq_or_eq_other (side one : Side) : side = one ∨ side = one.other := by
  cases side <;> cases one <;> decide

inductive StreamCall (Byte : Type) where
  | read (limit : Nat)
  | write (data : List Byte)

inductive ReadAnswer (Byte Error : Type) where
  | received (data : List Byte)
  | failed (error : Error)

inductive WriteAnswer (Error : Type) where
  | accepted (count : Nat)
  | failed (error : Error)

@[reducible] def StreamAnswer (Byte Error : Type) : StreamCall Byte → Type
  | .read _ => ReadAnswer Byte Error
  | .write _ => WriteAnswer Error

abbrev Endpoint (Byte Error : Type) := Program (StreamCall Byte) (StreamAnswer Byte Error)

namespace Endpoint

variable {Byte Error : Type}

def read (limit : Nat) : Endpoint Byte Error (ReadAnswer Byte Error) :=
  Program.perform (StreamCall.read limit)

def write (data : List Byte) : Endpoint Byte Error (WriteAnswer Error) :=
  Program.perform (StreamCall.write data)

end Endpoint

variable {Byte Error α γ : Type}

/-- A conversation: the bytes in the order they are said, each with its speaker. -/
abbrev Conversation (Byte : Type) := List (Side × Byte)

namespace Conversation

def saying (speaker : Side) (data : List Byte) : Conversation Byte :=
  data.map fun byte => (speaker, byte)

def saidBy (speaker : Side) (conversation : Conversation Byte) : List Byte :=
  (conversation.filter fun entry => entry.1 = speaker).map Prod.snd

@[simp] theorem saying_nil (speaker : Side) :
    saying speaker ([] : List Byte) = [] := rfl

@[simp] theorem saying_append (speaker : Side) (first second : List Byte) :
    saying speaker (first ++ second) = saying speaker first ++ saying speaker second := by
  simp [saying]

@[simp] theorem saying_eq_nil (speaker : Side) (data : List Byte) :
    saying speaker data = [] ↔ data = [] := by
  simp [saying]

@[simp] theorem saidBy_nil (speaker : Side) :
    saidBy speaker ([] : Conversation Byte) = [] := rfl

@[simp] theorem saidBy_append (speaker : Side) (first second : Conversation Byte) :
    saidBy speaker (first ++ second) = saidBy speaker first ++ saidBy speaker second := by
  simp [saidBy]

@[simp] theorem saidBy_saying (speaker : Side) (data : List Byte) :
    saidBy speaker (saying speaker data) = data := by
  simp [saidBy, saying, List.filter_map, Function.comp_def]

theorem saidBy_saying_of_ne {speaker listener : Side} (different : speaker ≠ listener)
    (data : List Byte) : saidBy listener (saying speaker data) = [] := by
  simp [saidBy, saying, List.filter_map, Function.comp_def, different]

@[simp] theorem saidBy_saying_other (speaker : Side) (data : List Byte) :
    saidBy speaker.other (saying speaker data) = [] :=
  saidBy_saying_of_ne (Side.ne_other speaker) data

@[simp] theorem saidBy_other_saying (speaker : Side) (data : List Byte) :
    saidBy speaker (saying speaker.other data) = [] :=
  saidBy_saying_of_ne (Side.other_ne speaker) data

/-- Two readings of one conversation that both begin with the same speaker:
the shorter run of bytes is a prefix of the longer one. -/
theorem saying_append_inj_of_length_le {speaker : Side} {first second : List Byte}
    {rest tail : Conversation Byte} (shorter : first.length ≤ second.length)
    (same : saying speaker first ++ rest = saying speaker second ++ tail) :
    first = second.take first.length ∧
      rest = saying speaker (second.drop first.length) ++ tail := by
  induction first generalizing second with
  | nil => exact ⟨rfl, by simpa using same⟩
  | cons byte first ih =>
      cases second with
      | nil => simp at shorter
      | cons other second =>
          simp only [saying, List.map_cons, List.cons_append, List.cons.injEq, Prod.mk.injEq,
            true_and] at same
          obtain ⟨taken, left⟩ := ih (by simpa using shorter) same.2
          simp only [List.length_cons, List.take_succ_cons, List.drop_succ_cons, List.cons.injEq]
          exact ⟨⟨same.1, taken⟩, left⟩

theorem speaker_eq_of_append_eq {one two : Side} {first second : List Byte}
    {rest tail : Conversation Byte} (firstSome : first ≠ []) (secondSome : second ≠ [])
    (same : saying one first ++ rest = saying two second ++ tail) : one = two := by
  cases first with
  | nil => exact absurd rfl firstSome
  | cons byte first =>
      cases second with
      | nil => exact absurd rfl secondSome
      | cons other second =>
          simp only [saying, List.map_cons, List.cons_append, List.cons.injEq,
            Prod.mk.injEq] at same
          exact same.1.1

end Conversation

open Conversation

/-- `program` says and hears the conversation as the endpoint `me`, whatever
chunks its reads are answered in; a read told to try again is repeated. -/
inductive Converses (readBlocked : Error) (me : Side) (good : α → Prop) :
    Conversation Byte → Endpoint Byte Error α → Prop where
  | done {program : Endpoint Byte Error α} {value : α} :
      program.view = .done value → good value → Converses readBlocked me good [] program
  | write {program : Endpoint Byte Error α} {data : List Byte} {rest : Conversation Byte}
      {resume : WriteAnswer Error → Endpoint Byte Error α} :
      program.view = .call (.write data) resume → data ≠ [] →
      Converses readBlocked me good rest (resume (.accepted data.length)) →
      Converses readBlocked me good (saying me data ++ rest) program
  | read {program : Endpoint Byte Error α} {limit : Nat} {data : List Byte}
      {rest : Conversation Byte} {resume : ReadAnswer Byte Error → Endpoint Byte Error α} :
      program.view = .call (.read limit) resume → 0 < limit → limit ≤ data.length →
      (∀ count, 0 < count → count ≤ limit →
        Converses readBlocked me good (saying me.other (data.drop count) ++ rest)
          (resume (.received (data.take count)))) →
      resume (.failed readBlocked) = program →
      Converses readBlocked me good (saying me.other data ++ rest) program

theorem Converses.bind {readBlocked : Error} {me : Side} {good : α → Prop} {good' : γ → Prop}
    {first second : Conversation Byte} {program : Endpoint Byte Error α}
    {continuation : α → Endpoint Byte Error γ}
    (converses : Converses readBlocked me good first program)
    (next : ∀ value, good value → Converses readBlocked me good' second (continuation value)) :
    Converses readBlocked me good' (first ++ second) (program.bind continuation) := by
  induction converses with
  | done finished isGood =>
      rw [Program.view_bind_done continuation finished]
      exact next _ isGood
  | write calls some _ ih =>
      rw [List.append_assoc]
      exact .write (Program.view_bind_call continuation calls) some ih
  | read calls positive bounded _ blocked ih =>
      rw [List.append_assoc]
      refine .read (Program.view_bind_call continuation calls) positive bounded ?_ ?_
      · intro count positive bounded
        rw [← List.append_assoc]
        exact ih count positive bounded
      · rw [blocked]

theorem Converses.done_inv {readBlocked : Error} {me : Side} {good : α → Prop}
    {conversation : Conversation Byte} {program : Endpoint Byte Error α} {value : α}
    (converses : Converses readBlocked me good conversation program)
    (finished : program.view = .done value) : conversation = [] ∧ good value := by
  cases converses with
  | done sameView isGood =>
      rw [finished] at sameView
      cases sameView
      exact ⟨rfl, isGood⟩
  | write calls => rw [finished] at calls; cases calls
  | read calls => rw [finished] at calls; cases calls

theorem Converses.write_inv {readBlocked : Error} {me : Side} {good : α → Prop}
    {conversation : Conversation Byte} {program : Endpoint Byte Error α} {data : List Byte}
    {resume : WriteAnswer Error → Endpoint Byte Error α}
    (converses : Converses readBlocked me good conversation program)
    (calls : program.view = .call (.write data) resume) :
    ∃ rest, conversation = saying me data ++ rest ∧ data ≠ [] ∧
      Converses readBlocked me good rest (resume (.accepted data.length)) := by
  cases converses with
  | done finished => rw [calls] at finished; cases finished
  | read sameCall => rw [calls] at sameCall; cases sameCall
  | write sameCall some onward =>
      rw [calls] at sameCall
      cases sameCall
      exact ⟨_, rfl, some, onward⟩

theorem Converses.read_inv {readBlocked : Error} {me : Side} {good : α → Prop}
    {conversation : Conversation Byte} {program : Endpoint Byte Error α} {limit : Nat}
    {resume : ReadAnswer Byte Error → Endpoint Byte Error α}
    (converses : Converses readBlocked me good conversation program)
    (calls : program.view = .call (.read limit) resume) :
    0 < limit ∧ resume (.failed readBlocked) = program ∧
      ∃ data rest, conversation = saying me.other data ++ rest ∧ limit ≤ data.length ∧
        ∀ count, 0 < count → count ≤ limit →
          Converses readBlocked me good (saying me.other (data.drop count) ++ rest)
            (resume (.received (data.take count))) := by
  cases converses with
  | done finished => rw [calls] at finished; cases finished
  | write sameCall => rw [calls] at sameCall; cases sameCall
  | read sameCall positive bounded onward blocked =>
      rw [calls] at sameCall
      cases sameCall
      exact ⟨positive, blocked, _, _, rfl, bounded, onward⟩

theorem Converses.finished_of_nil {readBlocked : Error} {me : Side} {good : α → Prop}
    {program : Endpoint Byte Error α} (converses : Converses readBlocked me good [] program) :
    ∃ value, program.view = .done value := by
  cases head : program.view with
  | done value => exact ⟨value, rfl⟩
  | call operation resume =>
      cases operation with
      | write data =>
          obtain ⟨rest, said, some, _⟩ := converses.write_inv head
          simp [some] at said
      | read limit =>
          obtain ⟨positive, _, data, rest, heard, bounded, _⟩ := converses.read_inv head
          have nothing : data = [] := by
            have both := heard.symm
            rw [List.append_eq_nil_iff, saying_eq_nil] at both
            exact both.1
          simp only [nothing, List.length_nil] at bounded
          omega

/-- An endpoint that hears the next bytes of its conversation goes on along the rest. -/
theorem Converses.hears {readBlocked : Error} (me : Side) {good : α → Prop}
    {program : Endpoint Byte Error α} {limit : Nat}
    {resume : ReadAnswer Byte Error → Endpoint Byte Error α} {chunk tail : List Byte}
    {remaining : Conversation Byte}
    (converses : Converses readBlocked me good
      (saying me.other (chunk ++ tail) ++ remaining) program)
    (calls : program.view = .call (.read limit) resume)
    (some : chunk ≠ []) (short : chunk.length ≤ limit) :
    Converses readBlocked me good (saying me.other tail ++ remaining)
      (resume (.received chunk)) := by
  obtain ⟨_, _, data, rest, heard, bounded, onward⟩ := converses.read_inv calls
  rw [saying_append, List.append_assoc] at heard
  obtain ⟨taken, left⟩ := saying_append_inj_of_length_le (Nat.le_trans short bounded) heard
  have goes := onward chunk.length (List.length_pos_of_ne_nil some) short
  rw [← taken] at goes
  rw [left]
  exact goes

end Uc1Integration.Interaction
