import Uc1Integration.Echo.CheckEchoProgress

/-!
# What the check finds

What the script reads are the lines of the board, cut where a read timed out. Without
timeouts it finds its messages exactly when the banner was over before it opened the
port; otherwise it stays one line behind for good.
-/

set_option autoImplicit false

namespace Uc1Integration.Echo.CheckEcho

open Interaction Text TwoUarts

/-- What a line is as a response. -/
def asResponse (line : List UInt8) : List Char :=
  strip (decode line)

theorem decode_append (first second : List UInt8) :
    decode (first ++ second) = decode first ++ decode second :=
  List.map_append

def label : List Char :=
  ['U', 'A', 'R', 'T', '1', ':', ' ']

theorem expectedResponse_eq (message : RandomString) :
    expectedResponse message = label ++ message.text :=
  congrArg (· ++ message.text) (by decide)

theorem length_expectedResponse (message : RandomString) :
    (expectedResponse message).length = 67 := by
  rw [expectedResponse_eq, List.length_append, message.length]
  rfl

theorem solid_expectedResponse (message : RandomString) : Solid (expectedResponse message) := by
  have some : message.text ≠ [] := by
    intro none
    have length := message.length
    rw [none] at length
    cases length
  have last := alphabet_chars (message.chars _ (List.getLast_mem some))
  rw [expectedResponse_eq]
  constructor
  · rfl
  · rw [List.getLast?_append_of_ne_nil _ some, List.getLast?_eq_some_getLast some,
      Option.map_some, last.2.2.1]

theorem blank_lineEnd : ['\r', '\n'].rdropWhile isSpace = [] := by
  decide

theorem decode_replyLine (message : RandomString) :
    decode (replyLine message) = expectedResponse message ++ ['\r', '\n'] := by
  have lineEnd : decode (ascii "\r\n") = ['\r', '\n'] := by decide
  have begins : decode (ascii "UART1: ") = label := by decide
  rw [replyLine, decode_append, decode_append, begins, decode_encode, lineEnd,
    expectedResponse_eq]

theorem asResponse_replyLine (message : RandomString) :
    asResponse (replyLine message) = expectedResponse message := by
  have stripped := strip_solid (fun c member => absurd member List.not_mem_nil)
    (solid_expectedResponse message) ['\r', '\n']
  rw [blank_lineEnd, List.append_nil, List.nil_append] at stripped
  rw [asResponse, decode_replyLine]
  exact stripped

theorem length_strip_le (text : List Char) : (strip text).length ≤ text.length :=
  Nat.le_trans (List.rdropWhile_prefix _ _).length_le (List.dropWhile_sublist _).length_le

/-- What is left of the banner is too short for an answer. -/
theorem asResponse_stale_ne (lost : Nat) (message : RandomString) :
    asResponse (greeting.drop lost) ≠ expectedResponse message := by
  have banner : greeting.length = 30 := by decide
  have short : (asResponse (greeting.drop lost)).length ≤ 30 := by
    refine Nat.le_trans (length_strip_le _) ?_
    rw [decode, List.length_map, List.length_drop, banner]
    exact Nat.sub_le _ _
  intro same
  rw [same, length_expectedResponse] at short
  exact absurd short (by decide)

/-- What the script has read begins these lines. A response that is read from the beginning
of a line is the next of them, or earlier by one for each timeout that came before. -/
structure Bench.Reads (bench : Bench) (lines : List (List UInt8)) : Prop where
  begins : bench.read <+: lines.flatten
  inOrder : ∀ {before after : List Exchange} {exchange : Exchange},
    bench.exchanges = before ++ exchange :: after → newline ∈ exchange.line →
    (∀ last ∈ before.getLast?, newline ∈ last.line) →
    lines[before.length - before.countP (newline ∉ ·.line)]? = some exchange.line

section Verdicts

variable {ready : Uart → Bool} {txBuf : Message} {bench : Bench} {taken : List Message}

/-- As many lines have ended before a response as were not cut off by a timeout. -/
theorem InStep.line_after (inStep : InStep bench taken) {lines : List (List UInt8)}
    (all : ∀ line ∈ lines, IsLine newline line) (begins : bench.read <+: lines.flatten)
    {before after : List Exchange} {exchange : Exchange}
    (here : bench.exchanges = before ++ exchange :: after) (whole : newline ∈ exchange.line)
    (fresh : ∀ last ∈ before.getLast?, newline ∈ last.line) :
    lines[before.length - before.countP (newline ∉ ·.line)]? = some exchange.line := by
  have shapes := inStep.lines
  rw [here, List.forall_mem_append, List.forall_mem_cons] at shapes
  have counted := count_lines shapes.1
  have isLine := shapes.2.1.resolve_right (not_not.mpr whole)
  have ends : ∀ item ∈ (before.map Exchange.line).flatten.getLast?, item = newline := by
    rcases List.eq_nil_or_concat before with rfl | ⟨earlier, last, rfl⟩
    · exact nofun
    · have ended : newline ∈ last.line := fresh last (by simp)
      obtain ⟨body, _, same⟩ :=
        (shapes.1 last (by simp)).resolve_right (not_not.mpr ended)
      intro item member
      rw [List.concat_eq_append, List.map_append, List.flatten_append, List.map_singleton,
        List.flatten_singleton, same, ← List.append_assoc, List.getLast?_concat] at member
      exact (Option.mem_some_iff.mp member).symm
  have part : (before.map Exchange.line).flatten ++ exchange.line <+: lines.flatten := by
    refine List.IsPrefix.trans ?_ begins
    rw [Bench.read, here]
    simp [List.append_assoc]
  rw [← line_of_flatten all isLine ends part]
  congr 1
  omega

/-- All that was read goes on line by line with the replies to what the board kept. -/
theorem InStep.exists_reads (inStep : InStep bench taken) :
    ∃ kept : List RandomString, kept.Sublist bench.messages ∧
      (bench.timeouts ≤ 8 → kept <+: bench.messages) ∧
      bench.Reads (staleLines bench.lost ++ kept.map replyLine) := by
  obtain ⟨kept, some, _, shown⟩ := inStep.exists_replies
  have begins := inStep.read.trans shown
  refine ⟨kept, some.sublist, fun few => some.first ?_, begins, fun here whole fresh =>
    inStep.line_after (isLine_replies _ _) begins here whole fresh⟩
  have dropped := inStep.dropped
  omega

theorem InStep.exchanges_begin (inStep : InStep bench taken) (none : bench.timeouts = 0) :
    bench.exchanges.map Exchange.line <+:
      staleLines bench.lost ++ bench.messages.map replyLine := by
  obtain ⟨kept, _, first, reads⟩ := inStep.exists_reads
  have own : ∀ line ∈ bench.exchanges.map Exchange.line, IsLine newline line := by
    intro line member
    obtain ⟨exchange, inside, rfl⟩ := List.mem_map.mp member
    refine (inStep.lines exchange inside).resolve_right fun cut => ?_
    exact List.countP_eq_zero.mp none exchange inside (decide_eq_true cut)
  refine (lines_prefix_of_flatten own (isLine_replies _ _) reads.begins).trans ?_
  rw [List.prefix_append_right_inj]
  exact (first (none ▸ Nat.zero_le 8)).map replyLine

theorem InStep.responses (inStep : InStep bench taken) (none : bench.timeouts = 0) :
    bench.exchanges.map Exchange.response =
      ((staleLines bench.lost).map asResponse ++
        bench.exchanges.map fun exchange => expectedResponse exchange.message).take
          bench.exchanges.length := by
  have lines := List.prefix_iff_eq_take.mp (inStep.exchanges_begin none)
  have enough : (bench.exchanges.map Exchange.line).length ≤
      (staleLines bench.lost ++
        (bench.exchanges.map Exchange.message).map replyLine).length := by
    simp only [List.length_append, List.length_map]
    omega
  rw [Bench.messages, List.map_append, ← List.append_assoc,
    List.take_append_of_le_length enough] at lines
  have responses := congrArg (List.map asResponse) lines
  rw [List.map_take, List.map_append, List.map_map, List.map_map, List.map_map,
    List.length_map] at responses
  refine responses.trans ?_
  congr 2
  exact List.map_congr_left fun exchange _ => asResponse_replyLine exchange.message

theorem InStep.all_match_iff (inStep : InStep bench taken) (none : bench.timeouts = 0) :
    (∀ exchange ∈ bench.exchanges, exchange.Matches) ↔
      bench.exchanges = [] ∨ greeting.length ≤ bench.lost := by
  have responses := inStep.responses none
  rw [staleLines] at responses
  split at responses
  next behind =>
      cases exchanges : bench.exchanges with
      | nil => exact ⟨fun _ => .inl rfl, fun _ _ member => absurd member List.not_mem_nil⟩
      | cons exchange others =>
          rw [exchanges, List.map_cons, List.map_singleton, List.singleton_append,
            List.length_cons, List.take_succ_cons] at responses
          have first := List.head_eq_of_cons_eq responses
          constructor
          · intro all
            have found := all exchange List.mem_cons_self
            rw [Exchange.Matches, first] at found
            exact absurd found (asResponse_stale_ne _ _)
          · intro past
            exact absurd (past.resolve_left (List.cons_ne_nil _ _)) (Nat.not_le_of_lt behind)
  next past =>
      refine ⟨fun _ => .inr (Nat.not_lt.mp past), fun _ => ?_⟩
      rw [List.map_nil, List.nil_append, List.take_of_length_le (by rw [List.length_map])]
        at responses
      exact List.map_inj_left.mp responses

/-- At most as many messages are dropped as there were timeouts beyond eight, and what the
script has read begins what is left of the banner and the replies to the others. Without
timeouts each response is one of these lines, and the script finds all its messages exactly
when the banner was over. -/
theorem exchanges_found (reaches : Reaches ready (.boot txBuf) bench) :
    bench.board.uarts.port1.dropped ≤ bench.timeouts - 8 ∧
      (∃ kept : List RandomString, kept.Sublist bench.messages ∧
        (bench.timeouts ≤ 8 → kept <+: bench.messages) ∧
        bench.Reads (staleLines bench.lost ++ kept.map replyLine)) ∧
      (bench.timeouts = 0 →
        bench.exchanges.map Exchange.response =
          ((staleLines bench.lost).map asResponse ++
            bench.exchanges.map fun exchange => expectedResponse exchange.message).take
              bench.exchanges.length ∧
        ((∀ exchange ∈ bench.exchanges, exchange.Matches) ↔
          bench.exchanges = [] ∨ greeting.length ≤ bench.lost)) := by
  obtain ⟨taken, inStep⟩ := inStep_of_reaches reaches
  exact ⟨inStep.dropped, inStep.exists_reads, fun none =>
    ⟨inStep.responses none, inStep.all_match_iff none⟩⟩

/-- The port is opened as soon as the board boots. -/
theorem exchanges_found_sample :
    ∃ bench : Bench, bench.exchanges.map Exchange.message = [sample] ∧ bench.lost = 0 ∧
      bench.timeouts = 0 ∧ ¬ ∀ exchange ∈ bench.exchanges, exchange.Matches := by
  have opens : Reaches (fun _ => true) (.boot (Vector.replicate 64 0)) _ :=
    .tail (.single (.openPort rfl)) (.write sample rfl)
  obtain ⟨bench, line, goesOn⟩ := exists_exchange (fun _ => rfl) opens rfl
  have exchanges : bench.exchanges = [⟨sample, line⟩] := goesOn.exchanges
  have lost : bench.lost = 0 := goesOn.lost nofun
  have none : bench.timeouts = 0 := by
    rw [Bench.timeouts, exchanges, List.countP_singleton, if_neg]
    simpa using goesOn.lines _ (List.mem_singleton_self _)
  refine ⟨bench, by rw [exchanges]; rfl, lost, none, ?_⟩
  rw [((exchanges_found (opens.trans goesOn.reaches)).2.2 none).2, lost, exchanges]
  rintro (nothing | past)
  · cases nothing
  · exact absurd past (by decide)

end Verdicts

end Uc1Integration.Echo.CheckEcho
