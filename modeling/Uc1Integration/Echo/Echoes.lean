import Uc1Integration.Echo.TwoUarts

/-!
# What is echoed

The messages that found room in the queue are taken from it in their order, and each
is printed whole before the next is taken.
-/

set_option autoImplicit false

namespace Uc1Integration.Echo

open Interaction Text

section Queued

variable {size : Nat} {port : Port size} {taken : List (Vector UInt8 size)}

/-- The messages that were not submitted to ten pending ones. -/
def Port.accepted (port : Port size) : List (Vector UInt8 size) :=
  (port.submitted.filter (·.pending ≠ 10)).map Submission.message

/-- How many messages were. -/
def Port.dropped (port : Port size) : Nat :=
  port.submitted.countP (·.pending = 10)

theorem length_accepted (port : Port size) :
    port.accepted.length + port.dropped = port.messages.length := by
  have both := List.length_eq_countP_add_countP (·.pending = 10) (l := port.submitted)
  rw [Port.accepted, Port.messages, List.length_map, List.length_map,
    ← List.countP_eq_length_filter, Port.dropped, both, Nat.add_comm]
  simp

theorem accepted_of_none_dropped {port : Port size} (none : port.dropped = 0) :
    port.accepted = port.messages := by
  rw [Port.dropped, List.countP_eq_zero] at none
  rw [Port.accepted, Port.messages, List.filter_eq_self.mpr]
  exact fun submission member => by simpa using none submission member

/-- A byte makes the port drop a message only when the queue is full. -/
theorem dropped_receive (port : Port size) (c : UInt8) :
    (port.receive c).dropped = port.dropped ∨ (port.receive c).msgq.items.length = 10 := by
  rw [Port.receive]
  dsimp only
  split
  · by_cases full : port.msgq.items.length = 10
    · right
      rw [Port.submit]
      dsimp only
      rw [BoundedQueue.items_put, if_pos full, List.append_nil]
      exact full
    · left
      rw [Port.dropped, Port.submit, List.countP_append, List.countP_singleton,
        if_neg (by simpa using full)]
      rfl
  · left
    split <;> rfl

/-- Every accepted message was taken or is still queued. -/
def Port.Queued (port : Port size) (taken : List (Vector UInt8 size)) : Prop :=
  taken ++ port.msgq.items = port.accepted

theorem queued_boot (pos : 0 < size) : (Port.boot pos).Queued [] :=
  rfl

theorem accepted_submit (port : Port size) :
    port.submit.accepted =
      port.accepted ++
        if port.msgq.items.length = 10 then []
        else [port.rxBuf.set port.rxPos.val 0 port.rxPos.isLt] := by
  rw [Port.accepted, Port.accepted, Port.submit, List.filter_append, List.map_append]
  congr 1
  by_cases full : port.msgq.items.length = 10
  · rw [if_pos full, List.filter_cons, if_neg (by simp [full])]
    rfl
  · rw [if_neg full, List.filter_cons, if_pos (by simp [full])]
    rfl

theorem Port.Queued.submit (queued : port.Queued taken) : port.submit.Queued taken := by
  have items := BoundedQueue.items_put port.msgq (port.rxBuf.set port.rxPos.val 0 port.rxPos.isLt)
  rw [Port.Queued, accepted_submit, ← queued, List.append_assoc, ← items]
  rfl

theorem Port.Queued.receive (queued : port.Queued taken) (c : UInt8) :
    (port.receive c).Queued taken := by
  have read : ({ port with received := port.received ++ [c] } : Port size).Queued taken := queued
  rw [Port.receive]
  dsimp only
  split
  · exact read.submit
  · split
    · exact queued
    · exact queued

theorem Port.Queued.serve (queued : port.Queued taken) (reception : Reception) :
    (port.serve reception).Queued taken :=
  Port.keeps_serve (Port.Queued · taken) (fun _ c before => before.receive c) queued reception

theorem Port.Queued.get (queued : port.Queued taken) {message : Vector UInt8 size}
    {msgq : BoundedQueue 10 (Vector UInt8 size)} (got : port.msgq.get = some (message, msgq)) :
    ({ port with msgq } : Port size).Queued (taken ++ [message]) := by
  rw [Port.Queued, List.append_assoc, List.singleton_append, ← BoundedQueue.items_of_get got]
  exact queued

/-- What was taken has its NUL. -/
theorem Port.Queued.nul_mem (queued : port.Queued taken) (sound : port.Sound)
    {message : Vector UInt8 size} (member : message ∈ taken) : 0 ∈ message.toList := by
  have accepted : message ∈ port.accepted := by
    rw [← queued]
    exact List.mem_append_left _ member
  obtain ⟨submission, kept, rfl⟩ := List.mem_map.mp accepted
  obtain ⟨segment, _, carries⟩ := exists_left_of_mem sound.submitted (List.mem_of_mem_filter kept)
  exact nul_mem_of_carries carries

end Queued

section Reading

variable {memory : List UInt8} {position : Nat}

theorem split_cString (ends : 0 ∈ memory) : ∃ rest, memory = cString memory ++ 0 :: rest := by
  induction memory with
  | nil => cases ends
  | cons c memory ih =>
      by_cases nul : c = 0
      · exact ⟨memory, by rw [nul]; rfl⟩
      · have later : 0 ∈ memory := (List.mem_cons.mp ends).resolve_left (Ne.symm nul)
        obtain ⟨rest, split⟩ := ih later
        refine ⟨rest, ?_⟩
        rw [cString, List.takeWhile_cons, if_pos (decide_eq_true nul), List.cons_append]
        exact congrArg (c :: ·) split

/-- A character of the string is read, or the NUL that ends it. -/
theorem read_cString (ends : 0 ∈ memory) (inside : position ≤ (cString memory).length) :
    (∃ c, memory[position]? = some c ∧ c ≠ 0 ∧ position < (cString memory).length ∧
      (cString memory).take (position + 1) = (cString memory).take position ++ [c]) ∨
    (memory[position]? = some 0 ∧ (cString memory).take position = cString memory) := by
  obtain ⟨rest, split⟩ := split_cString ends
  rcases Nat.lt_or_eq_of_le inside with room | last
  · left
    have member : (cString memory)[position] ∈ memory.takeWhile (· ≠ 0) := List.getElem_mem room
    refine ⟨(cString memory)[position], ?_, ?_, room, ?_⟩
    · conv => lhs; rw [split]
      rw [List.getElem?_append_left room, List.getElem?_eq_getElem room]
    · have visible := List.mem_takeWhile_imp member
      exact of_decide_eq_true visible
    · exact List.take_succ_eq_append_getElem room
  · right
    constructor
    · conv => lhs; rw [split]
      rw [last, List.getElem?_append_right (Nat.le_refl _), Nat.sub_self]
      rfl
    · rw [last]
      exact List.take_length

end Reading

namespace TwoUarts

def greeting : List UInt8 :=
  ascii "UART1 ready. Type something:\r\n"

def echo (message : Message) : List UInt8 :=
  ascii "UART1: " ++ text message ++ ascii "\r\n"

namespace Printing

/-- What a call prints. -/
def printed (txBuf : Message) (call : Printing) : List UInt8 :=
  cString (call.msg txBuf)

variable {txBuf : Message}

theorem printed_banner : printed txBuf banner = greeting :=
  rfl

theorem printed_label : printed txBuf label = ascii "UART1: " :=
  rfl

theorem printed_lineEnd : printed txBuf lineEnd = ascii "\r\n" :=
  rfl

end Printing

/-- What `main` has taken from the queue and sent on `uart1` when it is at a place. -/
inductive Shown (txBuf : Message) : Main → List Message → List UInt8 → Prop where
  | start : Shown txBuf .start [] []
  | returned : Shown txBuf (.returned 1) [] []
  | banner {position : Nat} (inside : position ≤ (Printing.banner.printed txBuf).length) :
      Shown txBuf (.printing .banner position) []
        ((Printing.banner.printed txBuf).take position)
  | hello {position : Nat} {echoed : List Message}
      (inside : position ≤ (Printing.hello.printed txBuf).length) :
      Shown txBuf (.printing .hello position) echoed (greeting ++ echoed.flatMap echo)
  | polling {echoed : List Message} :
      Shown txBuf .polling echoed (greeting ++ echoed.flatMap echo)
  | label {position : Nat} {echoed : List Message}
      (inside : position ≤ (Printing.label.printed txBuf).length) :
      Shown txBuf (.printing .label position) (echoed ++ [txBuf])
        (greeting ++ echoed.flatMap echo ++ (Printing.label.printed txBuf).take position)
  | message {position : Nat} {echoed : List Message}
      (inside : position ≤ (Printing.message.printed txBuf).length) :
      Shown txBuf (.printing .message position) (echoed ++ [txBuf])
        (greeting ++ echoed.flatMap echo ++ ascii "UART1: " ++
          (Printing.message.printed txBuf).take position)
  | lineEnd {position : Nat} {echoed : List Message}
      (inside : position ≤ (Printing.lineEnd.printed txBuf).length) :
      Shown txBuf (.printing .lineEnd position) (echoed ++ [txBuf])
        (greeting ++ echoed.flatMap echo ++ ascii "UART1: " ++ text txBuf ++
          (Printing.lineEnd.printed txBuf).take position)

section Main

variable {txBuf : Message} {call : Printing} {position : Nat} {taken : List Message}
  {output : List UInt8}

theorem Shown.inside (shown : Shown txBuf (.printing call position) taken output) :
    position ≤ (call.printed txBuf).length := by
  cases shown <;> assumption

/-- Every memory that is printed holds a NUL. -/
theorem Shown.nul_mem (shown : Shown txBuf (.printing call position) taken output)
    (nul : ∀ message ∈ taken, 0 ∈ message.toList) : 0 ∈ call.msg txBuf := by
  have literal : ∀ string, 0 ∈ literal string := fun string =>
    List.mem_append_right _ (List.mem_singleton.mpr rfl)
  cases shown with
  | message inside => exact nul txBuf (List.mem_append_right _ (List.mem_singleton.mpr rfl))
  | banner inside | hello inside | label inside | lineEnd inside => exact literal _

theorem Shown.next_char (shown : Shown txBuf (.printing call position) taken output) {c : UInt8}
    (room : position < (call.printed txBuf).length)
    (takes : (call.printed txBuf).take (position + 1) = (call.printed txBuf).take position ++ [c]) :
    Shown txBuf (.printing call (position + 1)) taken
      (output ++ if call.dev = .uart1 then [c] else []) := by
  cases shown with
  | banner inside =>
      change Shown _ _ _ (_ ++ [c])
      rw [← takes]
      exact .banner room
  | hello inside =>
      change Shown _ _ _ (_ ++ [])
      rw [List.append_nil]
      exact .hello room
  | label inside =>
      change Shown _ _ _ (_ ++ [c])
      rw [List.append_assoc, ← takes]
      exact .label room
  | message inside =>
      change Shown _ _ _ (_ ++ [c])
      rw [List.append_assoc, ← takes]
      exact .message room
  | lineEnd inside =>
      change Shown _ _ _ (_ ++ [c])
      rw [List.append_assoc, ← takes]
      exact .lineEnd room

theorem flatMap_echo (echoed : List Message) (message : Message) :
    greeting ++ (echoed ++ [message]).flatMap echo =
      greeting ++ echoed.flatMap echo ++ ascii "UART1: " ++ text message ++ ascii "\r\n" := by
  rw [List.flatMap_append, List.flatMap_singleton, echo]
  simp only [List.append_assoc]

theorem Shown.next_call (shown : Shown txBuf (.printing call position) taken output)
    (whole : (call.printed txBuf).take position = call.printed txBuf) :
    Shown txBuf call.next taken output := by
  cases shown with
  | banner inside =>
      have none : Shown txBuf (.printing .hello 0) [] (greeting ++ [].flatMap echo) :=
        .hello (Nat.zero_le _)
      rw [List.flatMap_nil, List.append_nil] at none
      rw [whole, Printing.printed_banner]
      exact none
  | hello inside => exact .polling
  | @label position echoed inside =>
      have begun : Shown txBuf (.printing .message 0) (echoed ++ [txBuf]) _ :=
        .message (Nat.zero_le _)
      rw [List.take_zero, List.append_nil] at begun
      rw [whole, Printing.printed_label]
      exact begun
  | @message position echoed inside =>
      have begun : Shown txBuf (.printing .lineEnd 0) (echoed ++ [txBuf]) _ :=
        .lineEnd (Nat.zero_le _)
      rw [List.take_zero, List.append_nil] at begun
      rw [whole]
      exact begun
  | lineEnd inside =>
      rw [whole, Printing.printed_lineEnd, ← flatMap_echo]
      exact .hello (Nat.zero_le _)

theorem Shown.returned_of_start (shown : Shown txBuf .start taken output) :
    Shown txBuf (.returned 1) taken output := by
  cases shown
  exact .returned

theorem Shown.banner_of_start (shown : Shown txBuf .start taken output) :
    Shown txBuf (.printing .banner 0) taken output := by
  cases shown
  exact .banner (Nat.zero_le _)

theorem Shown.hello_of_polling (shown : Shown txBuf .polling taken output) :
    Shown txBuf (.printing .hello 0) taken output := by
  cases shown
  exact .hello (Nat.zero_le _)

theorem Shown.label_of_polling (shown : Shown txBuf .polling taken output) (message : Message) :
    Shown message (.printing .label 0) (taken ++ [message]) output := by
  cases shown with
  | polling =>
      have begun : Shown message (.printing .label 0) (taken ++ [message]) _ :=
        .label (Nat.zero_le _)
      rw [List.take_zero, List.append_nil] at begun
      exact begun

end Main

/-- The invariant of a run. -/
structure Echoing (state : State) (taken : List Message) : Prop where
  shown : Shown state.txBuf state.main taken (state.output .uart1)
  queued : state.uarts.port1.Queued taken
  sound : state.uarts.port1.Sound

theorem echoing_boot (txBuf : Message) : Echoing (.boot txBuf) [] :=
  ⟨.start, queued_boot _, sound_boot _⟩

section Step

variable {state : State} {taken : List Message}

theorem output_sent (state : State) (place : Main) (dev : Uart) (c : UInt8) :
    ({ state with main := place, sent := state.sent ++ [(dev, c)] } : State).output .uart1 =
      state.output .uart1 ++ if dev = .uart1 then [c] else [] := by
  rw [State.output, State.output, List.filter_append, List.map_append]
  cases dev <;> rfl

theorem Echoing.printUart (echoing : Echoing state taken) {call : Printing} {position : Nat}
    (here : state.main = .printing call position) :
    Echoing (state.printUart call position) taken := by
  have shown := echoing.shown
  rw [here] at shown
  have ends : 0 ∈ call.msg state.txBuf := by
    apply shown.nul_mem
    exact fun message member => echoing.queued.nul_mem echoing.sound member
  rw [State.printUart]
  rcases read_cString ends shown.inside with ⟨c, read, notNul, room, takes⟩ | ⟨read, whole⟩
  · rw [read]
    dsimp only
    rw [if_neg notNul]
    constructor
    · rw [output_sent]
      exact shown.next_char room takes
    · exact echoing.queued
    · exact echoing.sound
  · rw [read]
    exact ⟨shown.next_call whole, echoing.queued, echoing.sound⟩

theorem Echoing.poll (echoing : Echoing state taken) (here : state.main = .polling) :
    ∃ after, Echoing state.poll after := by
  have shown := echoing.shown
  rw [here] at shown
  rw [State.poll]
  cases got : state.uarts.port1.msgq.get with
  | none => exact ⟨taken, shown.hello_of_polling, echoing.queued, echoing.sound⟩
  | some both =>
      obtain ⟨message, msgq⟩ := both
      refine ⟨taken ++ [message], ?_⟩
      constructor
      · exact shown.label_of_polling message
      · exact echoing.queued.get got
      · exact ⟨echoing.sound.rxPos, echoing.sound.rxBuf, echoing.sound.submitted⟩

theorem Echoing.begin (echoing : Echoing state taken) (here : state.main = .start)
    (ready : Uart → Bool) : Echoing (state.begin ready) taken := by
  have shown := echoing.shown
  rw [here] at shown
  rw [State.begin]
  split
  · exact ⟨shown.returned_of_start, echoing.queued, echoing.sound⟩
  · exact ⟨shown.banner_of_start, echoing.queued, echoing.sound⟩

theorem Echoing.mainStep (echoing : Echoing state taken) (ready : Uart → Bool) :
    ∃ after, Echoing (mainStep ready state) after := by
  rw [TwoUarts.mainStep]
  cases here : state.main with
  | start => exact ⟨taken, echoing.begin here ready⟩
  | printing call position => exact ⟨taken, echoing.printUart here⟩
  | polling => exact echoing.poll here
  | returned code => exact ⟨taken, echoing⟩
  | overrun => exact ⟨taken, echoing⟩

theorem Echoing.interrupt (echoing : Echoing state taken) (raised : Interrupt) :
    Echoing { state with uarts := serialCb state.uarts raised } taken := by
  have sound : (state.uarts.port .uart1).Sound := echoing.sound
  constructor
  · exact echoing.shown
  · change ((serialCb state.uarts raised).port .uart1).Queued taken
    rw [port_serialCb]
    split
    · exact echoing.queued.serve raised.reception
    · exact echoing.queued
  · exact sound_serialCb sound raised

theorem Echoing.step (echoing : Echoing state taken) (ready : Uart → Bool) (action : Action) :
    ∃ after, Echoing (step ready state action) after := by
  cases action with
  | main => exact echoing.mainStep ready
  | interrupt raised =>
      refine ⟨taken, ?_⟩
      rw [TwoUarts.step]
      split
      · exact echoing.interrupt raised
      · exact echoing

end Step

theorem echoing_run (ready : Uart → Bool) (txBuf : Message) (actions : List Action) :
    ∃ taken, Echoing (run ready txBuf actions) taken := by
  induction actions using List.reverseRecOn with
  | nil => exact ⟨[], echoing_boot txBuf⟩
  | append_singleton actions action ih =>
      obtain ⟨taken, echoing⟩ := ih
      rw [run, List.foldl_concat]
      exact echoing.step ready action

/-- What `uart1` shows: a part of the banner, whole echoes, or whole echoes and a part of
the one of the message that was taken last. -/
inductive Prints : List UInt8 → List Message → List Message → Prop where
  | banner {output : List UInt8} (part : output <+: greeting) : Prints output [] []
  | echoes {echoed : List Message} : Prints (greeting ++ echoed.flatMap echo) echoed []
  | echo {echoed : List Message} {message : Message} {begun : List UInt8}
      (part : begun <+: echo message) :
      Prints (greeting ++ echoed.flatMap echo ++ begun) echoed [message]

/-- The accepted messages are those that were echoed, the one in hand and the queued ones,
in their order, and the text of a message is that of its own segment of the stream. -/
structure EchoesInOrder (state : State) : Prop where
  inOrder : ∃ echoed current, Prints (state.output .uart1) echoed current ∧
    echoed ++ current ++ state.uarts.port1.msgq.items = state.uarts.port1.accepted
  covers : (segments isTerminator state.uarts.port1.received).Covers isTerminator
    state.uarts.port1.received
  own : List.Forall₂
    (fun segment submission => text submission.message = cString (segment.take (msgSize - 1)))
    (segments isTerminator state.uarts.port1.received).done state.uarts.port1.submitted
  inside : state.main ≠ .overrun

section Prints

variable {txBuf : Message} {place : Main} {taken : List Message} {output : List UInt8}

theorem Shown.prints (shown : Shown txBuf place taken output) :
    ∃ echoed current, Prints output echoed current ∧ taken = echoed ++ current := by
  cases shown with
  | start => exact ⟨[], [], .banner List.nil_prefix, rfl⟩
  | returned => exact ⟨[], [], .banner List.nil_prefix, rfl⟩
  | banner inside => exact ⟨[], [], .banner (List.take_prefix _ _), rfl⟩
  | hello inside => exact ⟨taken, [], .echoes, (List.append_nil _).symm⟩
  | polling => exact ⟨taken, [], .echoes, (List.append_nil _).symm⟩
  | @label position echoed inside =>
      refine ⟨echoed, [txBuf], .echo ?_, rfl⟩
      rw [Printing.printed_label, echo, List.append_assoc]
      exact (List.take_prefix _ _).trans (List.prefix_append _ _)
  | @message position echoed inside =>
      refine ⟨echoed, [txBuf], ?_, rfl⟩
      rw [List.append_assoc]
      apply Prints.echo
      rw [echo, List.append_assoc, List.prefix_append_right_inj]
      exact (List.take_prefix _ _).trans (List.prefix_append _ _)
  | @lineEnd position echoed inside =>
      refine ⟨echoed, [txBuf], ?_, rfl⟩
      rw [List.append_assoc, List.append_assoc]
      apply Prints.echo
      rw [echo, ← List.append_assoc, List.prefix_append_right_inj]
      exact List.take_prefix _ _

theorem not_shown_overrun : ¬ Shown txBuf .overrun taken output := by
  intro shown
  cases shown

end Prints

/-- In every run, however interrupts fall between the steps of `main`. -/
theorem echoes_in_order (ready : Uart → Bool) (txBuf : Message) (actions : List Action) :
    EchoesInOrder (run ready txBuf actions) := by
  obtain ⟨taken, echoing⟩ := echoing_run ready txBuf actions
  constructor
  · obtain ⟨echoed, current, prints, rfl⟩ := echoing.shown.prints
    exact ⟨echoed, current, prints, echoing.queued⟩
  · exact covers_segments _
  · exact echoing.sound.submitted.imp fun segment submission => text_of_carries
  · intro overrun
    have shown := echoing.shown
    rw [overrun] at shown
    exact not_shown_overrun shown

end TwoUarts

end Uc1Integration.Echo
