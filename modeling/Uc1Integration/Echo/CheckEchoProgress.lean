import Uc1Integration.Echo.CheckEchoProperties

/-!
# The check goes on

The board enables the reception before it polls, reads what was written and echoes it,
so that the line the script waits for arrives.
-/

set_option autoImplicit false

namespace Uc1Integration.Echo.CheckEcho

open Interaction Text TwoUarts

section Board

variable {ready : Uart → Bool} {txBuf : Message} {bench bench' : Bench}

/-- The script adds nothing to what the board can do. -/
theorem exists_run (reaches : Reaches ready (.boot txBuf) bench) :
    ∃ actions, bench.board = run ready txBuf actions := by
  induction reaches with
  | refl => exact ⟨[], rfl⟩
  | tail _ step ih =>
      obtain ⟨actions, board⟩ := ih
      have acts : ∀ action, run ready txBuf (actions ++ [action]) =
          TwoUarts.step ready (run ready txBuf actions) action := fun _ => List.foldl_concat ..
      cases step with
      | main => exact ⟨actions ++ [.main], by rw [acts, ← board]; rfl⟩
      | interrupt | otherInterrupt => exact ⟨actions ++ [.interrupt _], by rw [acts, ← board]⟩
      | openPort | write | timeout => exact ⟨actions, board⟩
      | read reading next =>
          refine ⟨actions, ?_⟩
          rw [Bench.hear]
          split <;> exact board

theorem enabled_mainStep {state : State} (both : ∀ uart, ready uart = true)
    (enabled : state.main = .start ∨ state.rxEnabled .uart1 = true) :
    (mainStep ready state).rxEnabled .uart1 = true := by
  rw [mainStep]
  cases here : state.main with
  | start =>
      dsimp only
      rw [State.begin, both, both, if_neg (by decide)]
      have updated : Function.update state.rxEnabled .uart1 true .uart1 = true :=
        Function.update_self ..
      exact updated
  | printing call position =>
      have before := enabled.resolve_left (by rw [here]; rintro ⟨⟩)
      dsimp only
      rw [State.printUart]
      split
      next => exact before
      next => split <;> exact before
  | polling =>
      have before := enabled.resolve_left (by rw [here]; rintro ⟨⟩)
      dsimp only
      rw [State.poll]
      split <;> exact before
  | returned | overrun => exact enabled.resolve_left (by rw [here]; rintro ⟨⟩)

theorem enabled_run (both : ∀ uart, ready uart = true) (actions : List Action) :
    (run ready txBuf actions).main = .start ∨
      (run ready txBuf actions).rxEnabled .uart1 = true := by
  induction actions using List.reverseRecOn with
  | nil => exact .inl rfl
  | append_singleton actions action ih =>
      rw [run, List.foldl_concat]
      cases action with
      | main => exact .inr (enabled_mainStep both ih)
      | interrupt raised =>
          rw [TwoUarts.step]
          split <;> exact ih

theorem reaches_mains (count : Nat) (bench : Bench) :
    Reaches ready bench
      { bench with
        board := (List.replicate count Action.main).foldl (TwoUarts.step ready) bench.board } := by
  induction count generalizing bench with
  | zero => exact .refl
  | succ count ih => exact .head .main (ih _)

/-- All that is on the wire is read, and every message that is not dropped is echoed. -/
theorem exists_answered (both : ∀ uart, ready uart = true)
    (reaches : Reaches ready (.boot txBuf) bench) :
    ∃ (board : State) (kept : List RandomString),
      Reaches ready bench { bench with board, wire := [] } ∧
      greeting ++ (kept.map replyLine).flatten <+: board.output .uart1 ∧
      bench.messages.length ≤ kept.length + (bench.timeouts - 8) := by
  obtain ⟨actions, board⟩ := exists_run reaches
  have enabled : (mainStep ready bench.board).rxEnabled .uart1 = true := by
    rw [board]
    exact enabled_mainStep both (enabled_run both actions)
  have read : bench.wire = (Reception.mk true true bench.wire).read ++ [] :=
    (List.append_nil _).symm
  have served : Reaches ready bench
      { bench with
        board := step ready (mainStep ready bench.board)
          (.interrupt ⟨some .uart1, true, true, bench.wire⟩)
        wire := [] } :=
    .head .main (.single (.interrupt enabled read))
  generalize step ready (mainStep ready bench.board) _ = board at served
  obtain ⟨taken, inStep⟩ := inStep_of_reaches (reaches.trans served)
  obtain ⟨actions, ran⟩ := exists_run (reaches.trans served)
  have promised := promised_run both txBuf actions
  rw [← ran] at promised
  have arrived := inStep.arrived
  rw [List.append_nil] at arrived
  have cut := congrArg Segments.done (segmentsFrom_written [] bench.messages)
  rw [List.nil_append] at cut
  have done : (segments isTerminator board.uarts.port1.received).done =
      bench.messages.map (encode ·.text) := by
    rw [arrived]
    exact cut
  obtain ⟨kept, _, texts⟩ := exists_kept inStep.echoing.sound (done_begins inStep.arrived)
  refine ⟨_, kept, served.trans (reaches_mains (111 * (board.uarts.port1.msgq.items.length + 1)) _),
    ?_, ?_⟩
  · rw [← flatMap_echo_of_texts texts]
    exact promised.echoed both (by
      rw [List.countP_replicate]
      exact Nat.le_refl _)
  · have few : board.uarts.port1.dropped ≤ bench.timeouts - 8 := inStep.dropped
    have submitted := inStep.echoing.sound.carries.length_eq
    have accepted := length_accepted board.uarts.port1
    have length := congrArg List.length texts
    have all := congrArg List.length done
    rw [List.length_map] at all
    rw [List.length_map, List.length_map] at length
    dsimp only at submitted length
    omega

end Board

section Script

variable {ready : Uart → Bool} {txBuf : Message} {bench : Bench}

/-- The script goes on to its next message through these exchanges, without a timeout. -/
structure GoesOn (ready : Uart → Bool) (bench bench' : Bench) (later : List Exchange) : Prop where
  reaches : Reaches ready bench bench'
  writing : bench'.script = .writing
  lost : bench.script ≠ .closed → bench'.lost = bench.lost
  exchanges : bench'.exchanges = bench.exchanges ++ later
  lines : ∀ exchange ∈ later, newline ∈ exchange.line

theorem GoesOn.refl (writing : bench.script = .writing) : GoesOn ready bench bench [] :=
  ⟨.refl, writing, fun _ => rfl, (List.append_nil _).symm, nofun⟩

theorem GoesOn.trans {bench' bench'' : Bench} {first second : List Exchange}
    (one : GoesOn ready bench bench' first) (two : GoesOn ready bench' bench'' second) :
    GoesOn ready bench bench'' (first ++ second) where
  reaches := one.reaches.trans two.reaches
  writing := two.writing
  lost := by
    intro opened
    have still : bench'.script ≠ .closed := by
      rw [one.writing]
      exact nofun
    exact (two.lost still).trans (one.lost opened)
  exchanges := by rw [two.exchanges, one.exchanges, List.append_assoc]
  lines := List.forall_mem_append.mpr ⟨one.lines, two.lines⟩

/-- The rest of a line is read byte by byte. -/
theorem exists_read {rest line : List UInt8} {message : RandomString} (clean : newline ∉ rest)
    (reading : bench.script = .reading message line)
    (available : rest ++ [newline] <+:
      (bench.board.output .uart1).drop (bench.lost + bench.heard)) :
    ∃ bench', GoesOn ready bench bench' [⟨message, line ++ (rest ++ [newline])⟩] := by
  induction rest generalizing bench line with
  | nil =>
      obtain ⟨later, here⟩ := available
      have next : (bench.board.output .uart1)[bench.lost + bench.heard]? = some newline := by
        rw [← Nat.add_zero (bench.lost + bench.heard), ← List.getElem?_drop, ← here]
        rfl
      have hears : bench.hear message line newline =
          { bench with
            script := .writing
            heard := bench.heard + 1
            exchanges := bench.exchanges ++ [⟨message, line ++ [newline]⟩] } := if_pos rfl
      have reads : Step ready bench (bench.hear message line newline) := .read reading next
      rw [hears] at reads
      exact ⟨_, .single reads, rfl, fun _ => rfl, rfl, List.forall_mem_singleton.mpr (by simp)⟩
  | cons byte rest ih =>
      obtain ⟨later, here⟩ := available
      have next : (bench.board.output .uart1)[bench.lost + bench.heard]? = some byte := by
        rw [← Nat.add_zero (bench.lost + bench.heard), ← List.getElem?_drop, ← here]
        rfl
      have inside : byte ≠ newline := fun ends => clean (ends ▸ List.mem_cons_self)
      have hears : bench.hear message line byte =
          { bench with script := .reading message (line ++ [byte]), heard := bench.heard + 1 } :=
        if_neg inside
      have rest' : rest ++ [newline] <+:
          (bench.board.output .uart1).drop (bench.lost + (bench.heard + 1)) := by
        rw [← Nat.add_assoc, ← List.drop_drop, ← here]
        exact ⟨later, rfl⟩
      have reads : Step ready bench (bench.hear message line byte) := .read reading next
      rw [hears] at reads
      have reading' : ({ bench with
          script := .reading message (line ++ [byte])
          heard := bench.heard + 1 } : Bench).script = .reading message (line ++ [byte]) := rfl
      obtain ⟨bench', goesOn⟩ :=
        ih (fun member => clean (List.mem_cons_of_mem _ member)) reading' rest'
      rw [List.append_assoc, List.singleton_append, ← List.cons_append] at goesOn
      exact ⟨bench', .head reads goesOn.reaches, goesOn.writing, fun _ => goesOn.lost nofun,
        goesOn.exchanges, goesOn.lines⟩

/-- The line that the script waits for arrives, whatever timeouts there were. -/
theorem exists_exchange {message : RandomString} {line : List UInt8}
    (both : ∀ uart, ready uart = true) (reaches : Reaches ready (.boot txBuf) bench)
    (reading : bench.script = .reading message line) :
    ∃ bench' line', GoesOn ready bench bench' [⟨message, line'⟩] := by
  obtain ⟨board, kept, answered, shows, length⟩ := exists_answered both reaches
  obtain ⟨taken, inStep⟩ := inStep_of_reaches (reaches.trans answered)
  have holds : (staleLines bench.lost ++ kept.map replyLine).flatten <+:
      (board.output .uart1).drop bench.lost := by
    rw [List.flatten_append, flatten_staleLines, ← List.drop_append_of_le_length inStep.lost]
    exact shows.drop bench.lost
  have lines := holds.sublist.count_le newline
  rw [count_flatten (isLine_replies _ _), List.length_append, List.length_map] at lines
  -- Each line is one of the messages' that are left when those dropped are taken off.
  have read : bench.read.count newline + bench.timeouts = bench.exchanges.length :=
    inStep.count_read
  have more : bench.read.count newline < ((board.output .uart1).drop bench.lost).count newline := by
    rw [Bench.messages, reading] at length
    simp only [Script.message, List.length_append, List.length_map, List.length_singleton]
      at length
    omega
  obtain ⟨rest, clean, later, ahead⟩ := exists_rest_of_line inStep.read more
  have goesOn : ({ bench with board, wire := [] } : Bench).script = .reading message line :=
    reading
  have available : rest ++ [newline] <+:
      (board.output .uart1).drop (bench.lost + bench.heard) := by
    have heard : bench.heard = bench.read.length := inStep.heard
    rw [← List.drop_drop, ← ahead, heard, List.append_assoc]
    exact ⟨later, (List.drop_left ..).symm⟩
  obtain ⟨bench', exchanged⟩ := exists_read clean goesOn available
  exact ⟨bench', _, answered.trans exchanged.reaches, exchanged.writing, exchanged.lost,
    exchanged.exchanges, exchanged.lines⟩

theorem exists_writing (both : ∀ uart, ready uart = true)
    (reaches : Reaches ready (.boot txBuf) bench) :
    ∃ bench' later, GoesOn ready bench bench' later ∧
      later.map Exchange.message = bench.script.message := by
  cases here : bench.script with
  | closed =>
      refine ⟨_, [], ⟨.single (.openPort here), rfl, fun opened => absurd here opened, ?_, nofun⟩,
        rfl⟩
      exact (List.append_nil _).symm
  | writing => exact ⟨bench, [], .refl here, rfl⟩
  | reading message line =>
      obtain ⟨bench', line', goesOn⟩ := exists_exchange both reaches here
      exact ⟨bench', _, goesOn, rfl⟩

theorem exists_onward (both : ∀ uart, ready uart = true)
    (reaches : Reaches ready (.boot txBuf) bench) (writing : bench.script = .writing)
    (messages : List RandomString) :
    ∃ bench' later, GoesOn ready bench bench' later ∧ later.map Exchange.message = messages := by
  induction messages generalizing bench with
  | nil => exact ⟨bench, [], .refl writing, rfl⟩
  | cons message messages ih =>
      have writes : Step ready bench _ := .write message writing
      obtain ⟨next, line, exchanged⟩ := exists_exchange both (reaches.tail writes) rfl
      have goesOn : GoesOn ready bench next [⟨message, line⟩] :=
        ⟨.head writes exchanged.reaches, exchanged.writing, fun _ => exchanged.lost nofun,
          exchanged.exchanges, exchanged.lines⟩
      obtain ⟨last, later, onward, same⟩ := ih (reaches.trans goesOn.reaches) goesOn.writing
      exact ⟨last, _, goesOn.trans onward, congrArg (message :: ·) same⟩

/-- Whatever timeouts there were, and whatever messages the script generates next. -/
theorem exists_exchanges (both : ∀ uart, ready uart = true)
    (reaches : Reaches ready (.boot txBuf) bench) (messages : List RandomString) :
    ∃ bench' later, GoesOn ready bench bench' later ∧
      later.map Exchange.message = bench.script.message ++ messages := by
  obtain ⟨middle, first, goesOn, current⟩ := exists_writing both reaches
  obtain ⟨last, second, onward, next⟩ :=
    exists_onward both (reaches.trans goesOn.reaches) goesOn.writing messages
  exact ⟨last, first ++ second, goesOn.trans onward, by rw [List.map_append, current, next]⟩

/-- Sixty times the same letter. -/
def sample : RandomString :=
  ⟨List.replicate 60 'a', List.length_replicate, fun _ member => by
    rw [List.eq_of_mem_replicate member]
    decide⟩

/-- The first message is answered by nothing in time, and still two follow. -/
theorem exists_exchanges_twice :
    ∃ bench bench' later, bench.exchanges = [⟨sample, []⟩] ∧
      GoesOn (fun _ => true) bench bench' later ∧
      later.map Exchange.message = [sample, sample] := by
  have opens : Reaches (fun _ => true) (.boot (Vector.replicate 64 0)) _ :=
    .tail (.tail (.single (.openPort rfl)) (.write sample rfl)) (.timeout rfl)
  obtain ⟨bench', later, goesOn, messages⟩ :=
    exists_exchanges (fun _ => rfl) opens [sample, sample]
  exact ⟨_, bench', later, rfl, goesOn, messages⟩

end Script

end Uc1Integration.Echo.CheckEcho
