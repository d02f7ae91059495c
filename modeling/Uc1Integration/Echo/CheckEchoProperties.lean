import Uc1Integration.Echo.CheckEcho
import Uc1Integration.Echo.Draining
import Uc1Integration.Echo.LineSplitting
import Uc1Integration.Text.Lines

/-!
# The board and the script together

Without timeouts the script has at most two messages under way. Each timeout may add
one, so that the board drops at most as many as there were timeouts beyond eight. What
the script reads goes on where its last read ended.
-/

set_option autoImplicit false

namespace Uc1Integration.Echo.CheckEcho

open Interaction Text TwoUarts

theorem alphabet_chars {c : Char} (member : c ∈ alphabet) :
    isTerminator c.toUInt8 = false ∧ c.toUInt8 ≠ 0 ∧ isSpace c = false ∧
      Char.ofNat c.toUInt8.toNat = c := by
  have all : alphabet.all (fun c => !isTerminator c.toUInt8 && c.toUInt8 != 0 && !isSpace c &&
      Char.ofNat c.toUInt8.toNat == c) = true := by
    decide +kernel
  have here := List.all_eq_true.mp all c member
  simpa only [Bool.and_eq_true, Bool.not_eq_true', bne_iff_ne, beq_iff_eq, and_assoc] using here

section Messages

variable (message : RandomString)

theorem length_encode : (encode message.text).length = 60 :=
  (List.length_map _).trans message.length

theorem mem_encode {byte : UInt8} (member : byte ∈ encode message.text) :
    isTerminator byte = false ∧ byte ≠ 0 := by
  obtain ⟨c, inside, rfl⟩ := List.mem_map.mp member
  have facts := alphabet_chars (message.chars c inside)
  exact ⟨facts.1, facts.2.1⟩

theorem decode_encode : decode (encode message.text) = message.text := by
  rw [decode, encode, List.map_map]
  conv => rhs; rw [← List.map_id message.text]
  exact List.map_congr_left fun c inside => (alphabet_chars (message.chars c inside)).2.2.2

theorem written_eq : written message = encode message.text ++ ['\n'.toUInt8] := by
  rw [written, encode, List.map_append]
  rfl

theorem segmentsFrom_written (done : List (List UInt8)) (messages : List RandomString) :
    segmentsFrom isTerminator ⟨done, []⟩ (messages.flatMap written) =
      ⟨done ++ messages.map (encode ·.text), []⟩ := by
  induction messages generalizing done with
  | nil => rw [List.map_nil, List.append_nil]; rfl
  | cons message messages ih =>
      have some : encode message.text ≠ [] := by
        intro none
        have length := length_encode message
        rw [none] at length
        cases length
      rw [List.flatMap_cons, written_eq, List.append_assoc, segmentsFrom_append,
        segmentsFrom_items fun byte member => (mem_encode message member).1, List.nil_append,
        List.singleton_append, segmentsFrom_cut rfl some, ih, List.map_cons, List.append_assoc,
        List.singleton_append]

/-- What has been cut from a part of the messages are the first of them. -/
theorem done_begins {received wire : List UInt8} {messages : List RandomString}
    (whole : received ++ wire = messages.flatMap written) :
    (segments isTerminator received).done <+: messages.map (encode ·.text) := by
  have cut := congrArg Segments.done (segmentsFrom_written [] messages)
  rw [← whole, segmentsFrom_append] at cut
  change (segmentsFrom isTerminator (segments isTerminator received) wire).done = _ at cut
  rw [done_segmentsFrom, List.nil_append] at cut
  exact ⟨_, cut⟩

end Messages

section Port

variable {port : Port msgSize} {taken : List Message} {messages : List RandomString}

theorem length_items (sound : port.Sound) (queued : port.Queued taken) :
    taken.length + port.msgq.items.length + port.dropped =
      (segments isTerminator port.received).done.length := by
  rw [← List.length_append, queued, length_accepted, sound.carries.length_eq]

/-- The board has taken the texts as they were written. -/
theorem texts_of_done (sound : port.Sound)
    (cut : (segments isTerminator port.received).done <+: messages.map (encode ·.text)) :
    port.messages.map text = (segments isTerminator port.received).done := by
  have own : ∀ segment ∈ (segments isTerminator port.received).done,
      cString (segment.take (msgSize - 1)) = segment := by
    intro segment member
    obtain ⟨message, _, rfl⟩ := List.mem_map.mp (cut.subset member)
    have short : (encode message.text).length ≤ msgSize - 1 := by
      rw [length_encode]
      decide
    rw [List.take_of_length_le short, cString, List.takeWhile_eq_self_iff]
    exact fun byte inside => decide_eq_true (mem_encode message inside).2
  have both := (List.forall₂_and_left _ _).mpr ⟨own, sound.carries⟩
  have same : List.Forall₂ (· = ·) (segments isTerminator port.received).done
      (port.messages.map text) := by
    rw [List.forall₂_map_right_iff]
    exact both.imp fun segment message carries => by rw [text_of_carries carries.2, carries.1]
  exact (List.forall₂_eq_eq_eq ▸ same : _ = _).symm

/-- Some of the messages, in their order: the first of them when none was dropped. -/
structure Kept (port : Port msgSize) (messages kept : List RandomString) : Prop where
  sublist : kept.Sublist messages
  first : port.dropped = 0 → kept <+: messages

theorem Kept.take {kept : List RandomString} (some : Kept port messages kept) (count : Nat) :
    Kept port messages (kept.take count) :=
  ⟨(List.take_sublist _ _).trans some.sublist,
    fun none => (List.take_prefix _ _).trans (some.first none)⟩

theorem exists_kept (sound : port.Sound)
    (cut : (segments isTerminator port.received).done <+: messages.map (encode ·.text)) :
    ∃ kept, Kept port messages kept ∧ port.accepted.map text = kept.map (encode ·.text) := by
  have texts := texts_of_done sound cut
  rw [← texts] at cut
  by_cases none : port.dropped = 0
  · rw [accepted_of_none_dropped none]
    obtain ⟨kept, first, same⟩ := List.prefix_map_iff.mp cut
    exact ⟨kept, ⟨first.sublist, fun _ => first⟩, same⟩
  · have accepted : (port.accepted.map text).Sublist (port.messages.map text) :=
      (List.filter_sublist.map _).map _
    obtain ⟨kept, sublist, same⟩ := List.sublist_map_iff.mp (accepted.trans cut.sublist)
    exact ⟨kept, ⟨sublist, fun nothing => absurd nothing none⟩, same⟩

/-- With at most so many messages behind those that were taken. -/
theorem dropped_serve {timeouts : Nat} (few : port.dropped ≤ timeouts - 8) (sound : port.Sound)
    (queued : port.Queued taken) (reception : Reception) {rest : List UInt8}
    (whole : port.received ++ (reception.read ++ rest) = messages.flatMap written)
    (behind : messages.length ≤ taken.length + timeouts + 2) :
    (port.serve reception).dropped ≤ timeouts - 8 := by
  rw [Reception.read] at whole
  rw [Port.serve]
  split at whole
  next quiet =>
      rw [if_pos quiet]
      exact few
  next reads =>
      rw [if_neg reads]
      generalize reception.bytes = bytes at whole ⊢
      induction bytes generalizing port with
      | nil => exact few
      | cons c bytes ih =>
          have read : (port.receive c).received ++ (bytes ++ rest) = messages.flatMap written := by
            rw [received_receive, List.append_assoc]
            exact whole
          refine ih ?_ (sound.receive (by decide) c) (queued.receive c) read
          rcases dropped_receive port c with same | full
          · rw [same]
            exact few
          · have items := length_items (sound.receive (by decide) c) (queued.receive c)
            have cut := (done_begins read).length_le
            rw [List.length_map] at cut
            omega

end Port

/-- The line the board answers a message with. -/
def replyLine (message : RandomString) : List UInt8 :=
  ascii "UART1: " ++ encode message.text ++ ascii "\r\n"

/-- What is left of the banner when the port is opened. -/
def staleLines (lost : Nat) : List (List UInt8) :=
  if lost < greeting.length then [greeting.drop lost] else []

section Lines

theorem isLine_replyLine (message : RandomString) : IsLine newline (replyLine message) := by
  refine ⟨ascii "UART1: " ++ encode message.text ++ ascii "\r", ?_, ?_⟩
  · intro member
    rcases List.mem_append.mp member with inside | last
    · rcases List.mem_append.mp inside with label | body
      · exact absurd label (by decide)
      · exact absurd (mem_encode message body).1 (by decide)
    · exact absurd last (by decide)
  · rw [List.append_assoc (ascii "UART1: " ++ encode message.text)]
    rfl

theorem isLine_staleLines (lost : Nat) : ∀ line ∈ staleLines lost, IsLine newline line := by
  have banner : IsLine newline greeting :=
    ⟨ascii "UART1 ready. Type something:\r", by decide, rfl⟩
  intro line member
  rw [staleLines] at member
  split at member
  next inside =>
      rw [List.mem_singleton.mp member]
      exact banner.drop inside
  next => cases member

theorem flatten_staleLines {lost : Nat} : (staleLines lost).flatten = greeting.drop lost := by
  rw [staleLines]
  split
  next => exact List.append_nil _
  next past => exact (List.drop_eq_nil_of_le (by omega)).symm

theorem isLine_replies (lost : Nat) (messages : List RandomString) :
    ∀ line ∈ staleLines lost ++ messages.map replyLine, IsLine newline line := by
  intro line member
  rcases List.mem_append.mp member with stale | reply
  · exact isLine_staleLines _ line stale
  · obtain ⟨message, _, rfl⟩ := List.mem_map.mp reply
    exact isLine_replyLine message

/-- `uart1` shows no more than the banner and the echoes of what was taken. -/
theorem output_begins {txBuf : Message} {place : Main} {taken : List Message}
    {output : List UInt8} (shown : Shown txBuf place taken output) :
    output <+: greeting ++ taken.flatMap echo := by
  obtain ⟨echoed, current, prints, rfl⟩ := shown.prints
  cases prints with
  | banner part => exact part.trans (List.prefix_append _ _)
  | echoes => rw [List.append_nil]
  | echo part =>
      rw [List.flatMap_append, List.flatMap_singleton, List.append_assoc,
        List.prefix_append_right_inj, List.prefix_append_right_inj]
      exact part

theorem flatMap_echo_of_texts {taken : List Message} {messages : List RandomString}
    (texts : taken.map text = messages.map (encode ·.text)) :
    taken.flatMap echo = (messages.map replyLine).flatten := by
  have echoes : taken.map echo = messages.map replyLine := by
    have labelled := congrArg (List.map fun text => ascii "UART1: " ++ text ++ ascii "\r\n") texts
    rwa [List.map_map, List.map_map] at labelled
  rw [List.flatMap_def, echoes]

end Lines

def Script.message : Script → List RandomString
  | .reading message _ => [message]
  | _ => []

def Script.part : Script → List UInt8
  | .reading _ line => line
  | _ => []

/-- All that was written, the message in hand included. -/
def Bench.messages (bench : Bench) : List RandomString :=
  bench.exchanges.map Exchange.message ++ bench.script.message

/-- The lines that were read, and the part of the one in hand. -/
def Bench.read (bench : Bench) : List UInt8 :=
  (bench.exchanges.map Exchange.line).flatten ++ bench.script.part

/-- The exchanges that a timeout ended. -/
def Bench.timeouts (bench : Bench) : Nat :=
  bench.exchanges.countP (newline ∉ ·.line)

/-- The script has nothing before it opened the port. -/
def Bench.Opened (bench : Bench) : Prop :=
  bench.script = .closed → bench.exchanges = [] ∧ bench.heard = 0

/-- The invariant of the board and the script together. -/
structure InStep (bench : Bench) (taken : List Message) : Prop where
  echoing : Echoing bench.board taken
  arrived : bench.board.uarts.port1.received ++ bench.wire = bench.messages.flatMap written
  dropped : bench.board.uarts.port1.dropped ≤ bench.timeouts - 8
  opened : bench.Opened
  lost : bench.lost ≤ greeting.length
  read : bench.read <+: (bench.board.output .uart1).drop bench.lost
  heard : bench.heard = bench.read.length
  lines : ∀ exchange ∈ bench.exchanges, IsLine newline exchange.line ∨ newline ∉ exchange.line
  part : newline ∉ bench.script.part

theorem inStep_boot (txBuf : Message) : InStep (.boot txBuf) [] where
  echoing := echoing_boot txBuf
  arrived := rfl
  dropped := Nat.zero_le _
  opened := fun _ => ⟨rfl, rfl⟩
  lost := Nat.zero_le _
  read := List.nil_prefix
  heard := rfl
  lines := fun _ member => absurd member List.not_mem_nil
  part := List.not_mem_nil

/-- Each exchange has read a newline, or ended by a timeout. -/
theorem count_lines {exchanges : List Exchange}
    (lines : ∀ exchange ∈ exchanges, IsLine newline exchange.line ∨ newline ∉ exchange.line) :
    (exchanges.map Exchange.line).flatten.count newline +
      exchanges.countP (newline ∉ ·.line) = exchanges.length := by
  induction exchanges with
  | nil => rfl
  | cons exchange exchanges ih =>
      rw [List.forall_mem_cons] at lines
      have later := ih lines.2
      rw [List.map_cons, List.flatten_cons, List.count_append, List.countP_cons, List.length_cons]
      rcases lines.1 with whole | cut
      · have inside : newline ∈ exchange.line :=
          List.count_pos_iff.mp (by rw [whole.count]; exact Nat.one_pos)
        rw [whole.count, if_neg (by simpa using inside)]
        omega
      · rw [List.count_eq_zero.mpr cut, if_pos (by simpa using cut)]
        omega

section InStep

variable {bench : Bench} {taken : List Message}

/-- What the board has shown since the port was opened are the lines that are left of the
banner, and those of the replies. -/
theorem InStep.exists_replies (inStep : InStep bench taken) :
    ∃ kept, Kept bench.board.uarts.port1 bench.messages kept ∧ kept.length = taken.length ∧
      (bench.board.output .uart1).drop bench.lost <+:
        (staleLines bench.lost ++ kept.map replyLine).flatten := by
  obtain ⟨kept, some, texts⟩ :=
    exists_kept inStep.echoing.sound (done_begins inStep.arrived)
  rw [← inStep.echoing.queued, List.map_append] at texts
  have length := congrArg List.length texts
  simp only [List.length_append, List.length_map] at length
  have front := congrArg (List.take taken.length) texts
  rw [List.take_left' (List.length_map _), ← List.map_take] at front
  refine ⟨kept.take taken.length, some.take _, by rw [List.length_take]; omega, ?_⟩
  have shown := (output_begins inStep.echoing.shown).drop bench.lost
  rw [List.drop_append_of_le_length inStep.lost, flatMap_echo_of_texts front] at shown
  rwa [List.flatten_append, flatten_staleLines]

theorem InStep.count_read (inStep : InStep bench taken) :
    bench.read.count newline + bench.timeouts = bench.exchanges.length := by
  rw [Bench.read, List.count_append, List.count_eq_zero.mpr inStep.part, Nat.add_zero]
  exact count_lines inStep.lines

/-- At most two messages are under way, and one more for each timeout. -/
theorem InStep.few (inStep : InStep bench taken) :
    bench.messages.length ≤ taken.length + bench.timeouts + 2 := by
  obtain ⟨kept, _, length, shown⟩ := inStep.exists_replies
  have read := (inStep.read.trans shown).sublist.count_le newline
  rw [count_flatten (isLine_replies _ _)] at read
  have all := inStep.count_read
  have stale : (staleLines bench.lost).length ≤ 1 := by
    rw [staleLines]
    split
    · exact Nat.le_refl 1
    · exact Nat.zero_le 1
  have current : bench.script.message.length ≤ 1 := by
    cases bench.script <;> simp [Script.message]
  simp only [Bench.messages, List.length_append, List.length_map] at read ⊢
  omega

/-- A step of the board that leaves what it received and goes on with what it sent. -/
theorem InStep.board (inStep : InStep bench taken) {board : State} {after : List Message}
    (echoing : Echoing board after)
    (received : board.uarts.port1.received = bench.board.uarts.port1.received)
    (submitted : board.uarts.port1.submitted = bench.board.uarts.port1.submitted)
    (output : bench.board.output .uart1 <+: board.output .uart1) :
    InStep { bench with board } after where
  echoing := echoing
  arrived := by
    dsimp only
    rw [received]
    exact inStep.arrived
  dropped := by
    rw [Port.dropped, submitted]
    exact inStep.dropped
  opened := inStep.opened
  lost := inStep.lost
  read := inStep.read.trans (output.drop _)
  heard := inStep.heard
  lines := inStep.lines
  part := inStep.part

theorem InStep.main (inStep : InStep bench taken) (ready : Uart → Bool) :
    ∃ after, InStep { bench with board := mainStep ready bench.board } after := by
  obtain ⟨after, echoing⟩ := inStep.echoing.mainStep ready
  obtain ⟨received, submitted, output⟩ := mainStep_keeps ready bench.board
  exact ⟨after, inStep.board echoing received submitted output⟩

theorem InStep.otherInterrupt (inStep : InStep bench taken) (ready : Uart → Bool)
    {raised : Interrupt} (other : raised.dev ≠ some .uart1) :
    ∃ after, InStep { bench with board := step ready bench.board (.interrupt raised) } after := by
  obtain ⟨after, echoing⟩ := inStep.echoing.step ready (.interrupt raised)
  have same : (serialCb bench.board.uarts raised).port1 = bench.board.uarts.port1 := by
    have port := port_serialCb bench.board.uarts raised .uart1
    rwa [if_neg other] at port
  refine ⟨after, inStep.board echoing ?_ ?_ ?_⟩
  · rw [step]
    split
    · exact congrArg Port.received same
    · rfl
  · rw [step]
    split
    · exact congrArg Port.submitted same
    · rfl
  · rw [step]
    split <;> exact List.prefix_refl _

theorem InStep.interrupt (inStep : InStep bench taken) (ready : Uart → Bool)
    {reception : Reception} {rest : List UInt8} (enabled : bench.board.rxEnabled .uart1 = true)
    (arrives : bench.wire = reception.read ++ rest) :
    ∃ after, InStep
      { bench with
        board := step ready bench.board (.interrupt ⟨some .uart1, reception⟩)
        wire := rest } after := by
  have serves : step ready bench.board (.interrupt ⟨some .uart1, reception⟩) =
      { bench.board with uarts := serialCb bench.board.uarts ⟨some .uart1, reception⟩ } := by
    have raises : (some Uart.uart1).any bench.board.rxEnabled = true := enabled
    exact if_pos raises
  have arrived := inStep.arrived
  rw [arrives] at arrived
  rw [serves]
  refine ⟨taken, inStep.echoing.interrupt _, ?_, ?_, inStep.opened, inStep.lost, inStep.read,
    inStep.heard, inStep.lines, inStep.part⟩
  · change (bench.board.uarts.port1.serve reception).received ++ rest = _
    rw [received_serve, List.append_assoc]
    exact arrived
  · exact dropped_serve inStep.dropped inStep.echoing.sound inStep.echoing.queued reception
      arrived inStep.few

/-- Before the port is opened nothing was written, so the board shows its banner only. -/
theorem InStep.openPort (inStep : InStep bench taken) (closed : bench.script = .closed) :
    InStep { bench with script := .writing, lost := (bench.board.output .uart1).length } taken := by
  obtain ⟨noExchanges, nothing⟩ := inStep.opened closed
  have noMessages : bench.messages = [] := by
    rw [Bench.messages, noExchanges, closed]
    rfl
  obtain ⟨kept, some, length, _⟩ := inStep.exists_replies
  rw [noMessages] at some
  rw [List.sublist_nil.mp some.sublist, List.length_nil] at length
  have shown := output_begins inStep.echoing.shown
  rw [List.eq_nil_of_length_eq_zero length.symm, List.flatMap_nil, List.append_nil] at shown
  constructor
  · exact inStep.echoing
  · exact inStep.arrived.trans (by rw [noMessages, Bench.messages, noExchanges]; rfl)
  · exact inStep.dropped
  · exact nofun
  · exact shown.length_le
  · rw [Bench.read, noExchanges]
    exact List.nil_prefix
  · rw [Bench.read, noExchanges]
    exact nothing
  · exact inStep.lines
  · exact List.not_mem_nil

theorem InStep.write (inStep : InStep bench taken) (message : RandomString)
    (writing : bench.script = .writing) :
    InStep
      { bench with
        script := .reading message []
        wire := bench.wire ++ written message } taken := by
  have messages : bench.messages = bench.exchanges.map Exchange.message := by
    rw [Bench.messages, writing]
    exact List.append_nil _
  have read : bench.read = (bench.exchanges.map Exchange.line).flatten := by
    rw [Bench.read, writing]
    exact List.append_nil _
  refine ⟨inStep.echoing, ?_, inStep.dropped, nofun, inStep.lost, ?_, ?_, inStep.lines,
    List.not_mem_nil⟩
  · have arrived := inStep.arrived
    rw [messages] at arrived
    rw [← List.append_assoc, arrived, Bench.messages, List.flatMap_append]
    exact congrArg _ (List.append_nil _).symm
  · have begun := inStep.read
    rw [read] at begun
    rw [Bench.read]
    exact (List.append_nil _).symm ▸ begun
  · have heard := inStep.heard
    rw [read] at heard
    rw [Bench.read]
    exact (List.append_nil _).symm ▸ heard

theorem prefix_concat {α : Type} {front whole : List α} {item : α} (begins : front <+: whole)
    (next : whole[front.length]? = some item) : front ++ [item] <+: whole := by
  obtain ⟨rest, rfl⟩ := begins
  rw [List.getElem?_append_right (Nat.le_refl _), Nat.sub_self] at next
  cases rest with
  | nil => cases next
  | cons other rest =>
      cases next
      exact ⟨rest, by rw [List.append_assoc, List.singleton_append]⟩

theorem Bench.read_of_reading {message : RandomString} {line : List UInt8}
    (reading : bench.script = .reading message line) :
    bench.read = (bench.exchanges.map Exchange.line).flatten ++ line := by
  rw [Bench.read, reading]
  rfl

theorem InStep.read_concat (inStep : InStep bench taken) {byte : UInt8}
    (next : (bench.board.output .uart1)[bench.lost + bench.heard]? = some byte) :
    bench.read ++ [byte] <+: (bench.board.output .uart1).drop bench.lost := by
  apply prefix_concat inStep.read
  rw [List.getElem?_drop, ← inStep.heard]
  exact next

/-- The line in hand ends, by a newline or a timeout, and is then an exchange. -/
theorem InStep.exchange (inStep : InStep bench taken) {message : RandomString}
    {line bytes : List UInt8} (reading : bench.script = .reading message line)
    (more : bench.read ++ bytes <+: (bench.board.output .uart1).drop bench.lost)
    (ends : bytes = [newline] ∨ bytes = []) :
    InStep
      { bench with
        heard := bench.heard + bytes.length
        exchanges := bench.exchanges ++ [⟨message, line ++ bytes⟩]
        script := .writing } taken := by
  have flat : ((bench.exchanges ++ [Exchange.mk message (line ++ bytes)]).map
      Exchange.line).flatten ++ [] = bench.read ++ bytes := by
    rw [List.append_nil, List.map_append, List.flatten_append, List.map_singleton,
      List.flatten_singleton, ← List.append_assoc, ← Bench.read_of_reading reading]
  refine ⟨inStep.echoing, ?_, ?_, nofun, inStep.lost, ?_, ?_, ?_, List.not_mem_nil⟩
  · have arrived := inStep.arrived
    rw [Bench.messages, reading] at arrived
    rw [Bench.messages, List.map_append]
    exact arrived.trans (congrArg _ (List.append_nil _).symm)
  · have before := inStep.dropped
    rw [Bench.timeouts] at before ⊢
    rw [List.countP_append]
    exact before.trans (Nat.sub_le_sub_right (Nat.le_add_right _ _) 8)
  · change _ ++ [] <+: _
    rw [flat]
    exact more
  · change bench.heard + bytes.length = (_ ++ []).length
    rw [flat, List.length_append, inStep.heard]
  · intro exchange member
    rcases List.mem_append.mp member with before | here
    · exact inStep.lines exchange before
    · rw [List.mem_singleton.mp here]
      have part := inStep.part
      rw [reading] at part
      rcases ends with rfl | rfl
      · exact .inl ⟨line, part, rfl⟩
      · right
        rwa [List.append_nil]

theorem InStep.hear_inside (inStep : InStep bench taken) {message : RandomString}
    {line : List UInt8} {byte : UInt8} (reading : bench.script = .reading message line)
    (next : (bench.board.output .uart1)[bench.lost + bench.heard]? = some byte)
    (inside : byte ≠ newline) :
    InStep
      { bench with
        heard := bench.heard + 1
        script := .reading message (line ++ [byte]) } taken := by
  have longer : (bench.exchanges.map Exchange.line).flatten ++ (line ++ [byte]) =
      bench.read ++ [byte] := by
    rw [Bench.read_of_reading reading, List.append_assoc]
  refine ⟨inStep.echoing, ?_, inStep.dropped, nofun, inStep.lost, ?_, ?_, inStep.lines, ?_⟩
  · have arrived := inStep.arrived
    rw [Bench.messages, reading] at arrived
    exact arrived
  · rw [Bench.read]
    exact longer ▸ inStep.read_concat next
  · rw [Bench.read]
    change bench.heard + 1 = (_ ++ (line ++ [byte])).length
    rw [longer, List.length_append, inStep.heard]
    rfl
  · intro member
    have part := inStep.part
    rw [reading] at part
    rcases List.mem_append.mp member with before | here
    · exact part before
    · exact inside (List.mem_singleton.mp here).symm

theorem InStep.hear (inStep : InStep bench taken) {message : RandomString} {line : List UInt8}
    {byte : UInt8} (reading : bench.script = .reading message line)
    (next : (bench.board.output .uart1)[bench.lost + bench.heard]? = some byte) :
    InStep (bench.hear message line byte) taken := by
  rw [Bench.hear]
  split
  next ends =>
      subst ends
      exact inStep.exchange reading (inStep.read_concat next) (.inl rfl)
  next inside => exact inStep.hear_inside reading next inside

theorem InStep.timeout (inStep : InStep bench taken) {message : RandomString}
    {line : List UInt8} (reading : bench.script = .reading message line) :
    InStep
      { bench with
        script := .writing
        exchanges := bench.exchanges ++ [⟨message, line⟩] } taken := by
  have nothing : bench.read ++ [] <+: (bench.board.output .uart1).drop bench.lost := by
    rw [List.append_nil]
    exact inStep.read
  have ended := inStep.exchange reading nothing (.inr rfl)
  rwa [List.append_nil] at ended

theorem InStep.step (inStep : InStep bench taken) {ready : Uart → Bool} {bench' : Bench}
    (step : Step ready bench bench') : ∃ after, InStep bench' after := by
  cases step with
  | main => exact inStep.main ready
  | interrupt enabled arrives => exact inStep.interrupt ready enabled arrives
  | otherInterrupt other => exact inStep.otherInterrupt ready other
  | openPort closed => exact ⟨taken, inStep.openPort closed⟩
  | write message writing => exact ⟨taken, inStep.write message writing⟩
  | read reading next => exact ⟨taken, inStep.hear reading next⟩
  | timeout reading => exact ⟨taken, inStep.timeout reading⟩

theorem inStep_of_reaches {ready : Uart → Bool} {txBuf : Message}
    (reaches : Reaches ready (.boot txBuf) bench) : ∃ taken, InStep bench taken := by
  induction reaches with
  | refl => exact ⟨[], inStep_boot txBuf⟩
  | tail _ step ih =>
      obtain ⟨taken, inStep⟩ := ih
      exact inStep.step step

end InStep

end Uc1Integration.Echo.CheckEcho
