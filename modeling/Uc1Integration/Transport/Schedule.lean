import Mathlib.Data.List.Forall2
import Mathlib.Tactic.Choose
import Uc1Integration.Interaction.Link
import Uc1Integration.Transport.Transfer

/-!
# Schedules of transfers

Two endpoints, each with a memory of call records, work through one schedule of
transfers in both directions. What the schedule does to the memories as a
sequence of copies is what the two endpoints do over a reliable link.
-/

set_option autoImplicit false

namespace Uc1Integration.Transport

open Interaction Conversation

variable {Name : Type} [DecidableEq Name]

/-- An endpoint's log of a schedule. It goes on whatever a transfer returns. -/
def runSchedule (me : Side) :
    List (Transfer Name) → (Name → FuncCall) → Ssl (List (Int × FuncCall))
  | [], _ => .done []
  | transfer :: schedule, memory =>
      (transfer.run me memory).bind fun result =>
        (runSchedule me schedule (Function.update memory (transfer.record me) result.2)).bind
          fun log => .done (result :: log)

/-- A transfer as a copy of the sent record over the kept one. -/
def Transfer.settle (transfer : Transfer Name) (memories : Side → Name → FuncCall) :
    Side → Name → FuncCall :=
  Function.update memories transfer.sender.other
    (Function.update (memories transfer.sender.other) transfer.kept
      (memories transfer.sender transfer.sent))

/-- The record each transfer of a schedule carries. -/
def carried : List (Transfer Name) → (Side → Name → FuncCall) → List FuncCall
  | [], _ => []
  | transfer :: schedule, memories =>
      memories transfer.sender transfer.sent :: carried schedule (transfer.settle memories)

def talk : List (Transfer Name) → (Side → Name → FuncCall) → Conversation UInt8
  | [], _ => []
  | transfer :: schedule, memories =>
      exchanges transfer.sender (memories transfer.sender transfer.sent).items ++
        talk schedule (transfer.settle memories)

/-- The two records of each transfer have the same shape. -/
def Shaped (schedule : List (Transfer Name)) (memories : Side → Name → FuncCall) : Prop :=
  ∀ transfer ∈ schedule,
    (memories transfer.sender transfer.sent).SameShape
      (memories transfer.sender.other transfer.kept)

instance (schedule : List (Transfer Name)) (memories : Side → Name → FuncCall) :
    Decidable (Shaped schedule memories) :=
  inferInstanceAs (Decidable (∀ transfer ∈ schedule, (memories transfer.sender transfer.sent).SameShape
    (memories transfer.sender.other transfer.kept)))

theorem Transfer.length_settle {transfer : Transfer Name} {memories : Side → Name → FuncCall}
    (shape : (memories transfer.sender transfer.sent).SameShape
      (memories transfer.sender.other transfer.kept))
    (side : Side) (name : Name) (i : Fin dataPortions) :
    ((transfer.settle memories side name).contents.portion i).length =
      ((memories side name).contents.portion i).length := by
  unfold settle
  by_cases receives : side = transfer.sender.other
  · subst receives
    by_cases kept : name = transfer.kept
    · subst kept
      rw [Function.update_self, Function.update_self]
      exact (FuncCall.sameShape_iff _ _).mp shape i
    · rw [Function.update_self, Function.update_of_ne kept]
  · rw [Function.update_of_ne receives]

theorem Shaped.settle {transfer : Transfer Name} {schedule : List (Transfer Name)}
    {memories : Side → Name → FuncCall} (shaped : Shaped (transfer :: schedule) memories) :
    Shaped schedule (transfer.settle memories) := by
  have here := shaped transfer List.mem_cons_self
  intro later member
  exact (shaped later (List.mem_cons_of_mem transfer member)).congr
    (Transfer.length_settle here _ _) (Transfer.length_settle here _ _)

theorem Transfer.stands_settle {transfer : Transfer Name} {memories : Side → Name → FuncCall}
    {me : Side} {memory : Name → FuncCall} {result : Int × FuncCall}
    (stands : ∀ name, (memory name).contents = (memories me name).contents)
    (carries : Carries (memories transfer.sender transfer.sent) result) (name : Name) :
    (Function.update memory (transfer.record me) result.2 name).contents =
      (transfer.settle memories me name).contents := by
  obtain ⟨_, contents⟩ := carries
  unfold record settle
  rcases Side.eq_or_eq_other me transfer.sender with rfl | rfl
  · rw [if_pos rfl, Function.update_of_ne (Side.ne_other transfer.sender)]
    by_cases sent : name = transfer.sent
    · subst sent
      rw [Function.update_self, contents]
    · rw [Function.update_of_ne sent, stands name]
  · rw [if_neg (Side.other_ne transfer.sender), Function.update_self]
    by_cases kept : name = transfer.kept
    · subst kept
      rw [Function.update_self, Function.update_self, contents]
    · rw [Function.update_of_ne kept, Function.update_of_ne kept, stands name]

theorem converses_runSchedule {schedule : List (Transfer Name)}
    {memories : Side → Name → FuncCall} (shaped : Shaped schedule memories) (me : Side)
    {memory : Name → FuncCall}
    (stands : ∀ name, (memory name).contents = (memories me name).contents) :
    Converses sslMedium.readBlocked me (List.Forall₂ Carries (carried schedule memories))
      (talk schedule memories) (runSchedule me schedule memory) := by
  induction schedule generalizing memories memory with
  | nil => exact .done rfl .nil
  | cons transfer schedule ih =>
      have here := shaped transfer List.mem_cons_self
      apply (Transfer.follows_run here me stands).converses.bind
      intro result carries
      have later := ih shaped.settle (Transfer.stands_settle stands carries)
      rw [← List.append_nil (talk schedule (transfer.settle memories))]
      apply later.bind
      intro log delivered
      exact .done rfl (.cons carries delivered)

/-- The logs of the two sides agree on a transfer: both calls returned 0, and the
records have the same id and the same bytes in every portion. -/
structure Agrees (one two : Int × FuncCall) : Prop where
  left : one.1 = 0
  right : two.1 = 0
  func : one.2.func = two.2.func
  content : ∀ i, (one.2.dataP i).content = (two.2.dataP i).content

theorem Carries.agrees {sent : FuncCall} {one two : Int × FuncCall} (left : Carries sent one)
    (right : Carries sent two) : Agrees one two := by
  have same : one.2.contents = two.2.contents := left.2.trans right.2.symm
  refine ⟨left.1, right.1, ?_, ?_⟩
  · exact congrArg Contents.func same
  · exact congrFun (congrArg Contents.portion same)

private theorem agrees_of_carries {sent : List FuncCall} {left right : List (Int × FuncCall)}
    (delivered : List.Forall₂ Carries sent left) (other : List.Forall₂ Carries sent right) :
    List.Forall₂ Agrees left right := by
  induction delivered generalizing right with
  | nil =>
      cases other
      exact .nil
  | cons carries _ ih =>
      cases other with
      | cons otherCarries rest => exact .cons (carries.agrees otherCarries) (ih rest)

theorem runSchedule_delivers {schedule : List (Transfer Name)}
    {memories : Side → Name → FuncCall} (shaped : Shaped schedule memories)
    {link : Link UInt8 SslFailure (List (Int × FuncCall))}
    (reaches : Link.Reaches sslMedium.readBlocked
      (Link.start fun side => runSchedule side schedule (memories side)) link) :
    (∀ side, ¬ link.Finished side → ∃ mover, link.Moves mover) ∧
      ∀ log : Side → List (Int × FuncCall),
        (∀ side, (link.program side).view = .done (log side)) →
        (∀ side, link.flying side = []) ∧ List.Forall₂ Agrees (log .left) (log .right) ∧
          ∀ side, List.Forall₂ Carries (carried schedule memories) (log side) := by
  have along := (Link.along_start fun side =>
    converses_runSchedule shaped side fun _ => rfl).reaches reaches
  refine ⟨fun side unfinished => along.moves unfinished, ?_⟩
  intro log finished
  obtain ⟨delivered, quiet⟩ := along.finished finished
  refine ⟨quiet, ?_, delivered⟩
  exact agrees_of_carries (delivered .left) (delivered .right)

/-- A challenge whose payload is made of delimiters is sent and sent back. -/
theorem runSchedule_delivers_delimiters :
    ∃ link : Link UInt8 SslFailure (List (Int × FuncCall)),
      ∃ log : Side → List (Int × FuncCall),
        (∀ side, (link.program side).view = .done (log side)) ∧
          List.Forall₂ Agrees (log .left) (log .right) := by
  let schedule : List (Transfer Unit) :=
    [⟨.left, .challenge, .challenge, (), ()⟩, ⟨.right, .response, .response, (), ()⟩]
  let order : List (Side × Nat) := (List.replicate 60 [(.left, 3), (.right, 3)]).flatten
  let link := Link.turns sslMedium.readBlocked
    (Link.start fun side => runSchedule side schedule (delimiterMemories side)) order
  have finished : ∀ side, link.Finished side := by
    intro side
    cases side <;> decide +kernel
  have shaped : Shaped schedule delimiterMemories := by decide
  choose log values using finished
  refine ⟨link, log, values, ?_⟩
  have reaches : Link.Reaches sslMedium.readBlocked
      (Link.start fun side => runSchedule side schedule (delimiterMemories side)) link :=
    Link.reaches_turns _ _ order
  exact ((runSchedule_delivers shaped reaches).2 log values).2.1

end Uc1Integration.Transport
