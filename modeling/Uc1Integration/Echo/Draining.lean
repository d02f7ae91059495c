import Uc1Integration.Echo.Echoes
import Uc1Integration.Interaction.Ranking

/-!
# When a message is echoed

Between two looks at the queue `main` prints a bounded number of characters, and a
look takes the oldest message. So what is pending is echoed after so many steps of
`main`, whatever interrupts are served between them.
-/

set_option autoImplicit false

namespace Uc1Integration.Echo.TwoUarts

open Interaction Text

theorem mainStep_keeps (ready : Uart → Bool) (state : State) :
    (mainStep ready state).uarts.port1.received = state.uarts.port1.received ∧
      (mainStep ready state).uarts.port1.submitted = state.uarts.port1.submitted ∧
      state.output .uart1 <+: (mainStep ready state).output .uart1 := by
  rw [mainStep]
  cases state.main with
  | start =>
      dsimp only
      rw [State.begin]
      split <;> exact ⟨rfl, rfl, List.prefix_refl _⟩
  | printing call position =>
      dsimp only
      rw [State.printUart]
      split
      next => exact ⟨rfl, rfl, List.prefix_refl _⟩
      next c _ =>
          split
          · exact ⟨rfl, rfl, List.prefix_refl _⟩
          · refine ⟨rfl, rfl, ?_⟩
            rw [output_sent]
            exact List.prefix_append _ _
  | polling =>
      dsimp only
      rw [State.poll]
      split <;> exact ⟨rfl, rfl, List.prefix_refl _⟩
  | returned code => exact ⟨rfl, rfl, List.prefix_refl _⟩
  | overrun => exact ⟨rfl, rfl, List.prefix_refl _⟩

theorem output_step (ready : Uart → Bool) (state : State) (action : Action) :
    state.output .uart1 <+: (step ready state action).output .uart1 := by
  cases action with
  | main => exact (mainStep_keeps ready state).2.2
  | interrupt raised =>
      rw [step]
      split <;> exact List.prefix_refl _

theorem accepted_mainStep (ready : Uart → Bool) (state : State) :
    (mainStep ready state).uarts.port1.accepted = state.uarts.port1.accepted := by
  rw [Port.accepted, (mainStep_keeps ready state).2.1]
  rfl

namespace Printing

/-- How many characters a call prints at most. -/
def characters : Printing → Nat
  | banner => 30
  | hello => 34
  | label => 7
  | message => 63
  | lineEnd => 2

/-- The steps from the end of a call to the next look at the queue. -/
def after : Printing → Nat
  | hello => 0
  | banner | lineEnd => hello.characters + 1
  | message => lineEnd.characters + 1 + (hello.characters + 1)
  | label => message.characters + 1 + (lineEnd.characters + 1) + (hello.characters + 1)

theorem length_printed_le {txBuf : Message} (call : Printing)
    (nul : call = .message → 0 ∈ txBuf.toList) :
    (call.printed txBuf).length ≤ call.characters := by
  cases call with
  | banner =>
      have fits : (cString (literal "UART1 ready. Type something:\r\n")).length ≤ 30 := by decide
      exact fits
  | hello =>
      have fits : (cString (literal "UART0 says: Hello from echo bot!\r\n")).length ≤ 34 := by
        decide
      exact fits
  | label =>
      have fits : (cString (literal "UART1: ")).length ≤ 7 := by decide
      exact fits
  | message =>
      obtain ⟨rest, whole⟩ := split_cString (nul rfl)
      have short := congrArg List.length whole
      rw [Vector.length_toList, List.length_append, List.length_cons] at short
      change 64 = (cString txBuf.toList).length + (rest.length + 1) at short
      change (cString txBuf.toList).length ≤ 63
      omega
  | lineEnd =>
      have fits : (cString (literal "\r\n")).length ≤ 2 := by decide
      exact fits

end Printing

/-- The steps to the next look at the queue. -/
def Main.toPolling (txBuf : Message) : Main → Nat
  | .start => Printing.banner.characters + Printing.hello.characters + 3
  | .printing call position => (call.printed txBuf).length - position + 1 + call.after
  | .polling | .returned _ | .overrun => 0

theorem toPolling_begin_le {txBuf : Message} (call : Printing)
    (nul : call = .message → 0 ∈ txBuf.toList) :
    (Main.printing call 0).toPolling txBuf ≤ call.characters + 1 + call.after := by
  have short := call.length_printed_le nul
  rw [Main.toPolling]
  omega

theorem toPolling_next_le {txBuf : Message} (call : Printing)
    (nul : call = .label → 0 ∈ txBuf.toList) : call.next.toPolling txBuf ≤ call.after := by
  cases call with
  | hello => exact Nat.le_refl 0
  | banner | lineEnd => exact toPolling_begin_le .hello (by rintro ⟨⟩)
  | message => exact toPolling_begin_le .lineEnd (by rintro ⟨⟩)
  | label => exact Nat.le_trans (toPolling_begin_le .message fun _ => nul rfl) (by decide)

/-- The messages that `main` has taken from the queue. -/
def State.taken (state : State) : Nat :=
  state.uarts.port1.accepted.length - state.uarts.port1.msgq.items.length

theorem Echoing.taken {state : State} {taken : List Message} (echoing : Echoing state taken) :
    state.taken = taken.length := by
  rw [State.taken, ← echoing.queued, List.length_append, Nat.add_sub_cancel]

/-- The steps of `main` until the first `count` messages are echoed. -/
def State.due (count : Nat) (state : State) : Nat :=
  state.main.toPolling state.txBuf + 111 * (count - state.taken)

/-- `main` goes on, and the messages are the first it has accepted. -/
structure Promised (messages : List Message) (state : State) : Prop where
  echoing : ∃ taken, Echoing state taken
  goesOn : ∀ code, state.main ≠ .returned code
  accepted : messages <+: state.uarts.port1.accepted

def EchoedAll (messages : List Message) (state : State) : Prop :=
  greeting ++ messages.flatMap echo <+: state.output .uart1

def Action.isMain : Action → Bool
  | .main => true
  | .interrupt _ => false

section Draining

variable {messages : List Message} {state : State}

theorem flatMap_begins {few many : List Message} (begins : few <+: many) :
    greeting ++ few.flatMap echo <+: greeting ++ many.flatMap echo := by
  obtain ⟨rest, rfl⟩ := begins
  rw [List.flatMap_append, List.prefix_append_right_inj]
  exact List.prefix_append _ _

/-- At a look at the queue everything that was taken is echoed. -/
theorem Promised.echoed_of_polling (promised : Promised messages state)
    (here : state.main = .polling) (all : messages.length ≤ state.taken) :
    EchoedAll messages state := by
  obtain ⟨taken, echoing⟩ := promised.echoing
  have shown := echoing.shown
  rw [here] at shown
  have begins : taken <+: state.uarts.port1.accepted := ⟨_, echoing.queued⟩
  rw [echoing.taken] at all
  rw [EchoedAll]
  generalize state.output .uart1 = output at shown ⊢
  cases shown
  exact flatMap_begins (List.prefix_of_prefix_length_le promised.accepted begins all)

theorem Promised.echoed_of_due (promised : Promised messages state)
    (spent : state.due messages.length = 0) : EchoedAll messages state := by
  rw [State.due, Nat.add_eq_zero_iff, Nat.mul_eq_zero] at spent
  have all : messages.length ≤ state.taken := by omega
  obtain ⟨taken, echoing⟩ := promised.echoing
  cases here : state.main with
  | polling => exact promised.echoed_of_polling here all
  | start =>
      rw [here, Main.toPolling] at spent
      omega
  | printing call position =>
      rw [here, Main.toPolling] at spent
      omega
  | returned code => exact absurd here (promised.goesOn code)
  | overrun =>
      have shown := echoing.shown
      rw [here] at shown
      exact absurd shown not_shown_overrun

theorem items_of_get_none {port : Port msgSize} (empty : port.msgq.get = none) :
    port.msgq.items = [] := by
  obtain ⟨_, _, ⟨items, bound⟩, _, _⟩ := port
  cases items with
  | nil => rfl
  | cons message items => cases empty

theorem Promised.poll (promised : Promised messages state) (here : state.main = .polling)
    (missing : ¬ EchoedAll messages state) :
    state.poll.due messages.length < state.due messages.length := by
  have fewer : state.taken < messages.length :=
    Nat.lt_of_not_le fun all => missing (promised.echoed_of_polling here all)
  have accepted := promised.accepted.length_le
  obtain ⟨taken, echoing⟩ := promised.echoing
  have queued := congrArg List.length echoing.queued
  rw [List.length_append] at queued
  rw [State.poll]
  cases got : state.uarts.port1.msgq.get with
  | none =>
      rw [State.taken, items_of_get_none got] at fewer
      exact absurd accepted (Nat.not_le_of_lt fewer)
  | some both =>
      obtain ⟨message, msgq⟩ := both
      have items := congrArg List.length (BoundedQueue.items_of_get got)
      rw [List.length_cons] at items
      have label : (Main.printing .label 0).toPolling message ≤ 110 :=
        toPolling_begin_le .label (by rintro ⟨⟩)
      rw [State.due, State.due, here]
      change (Main.printing .label 0).toPolling message + 111 * (messages.length -
        (state.uarts.port1.accepted.length - msgq.items.length)) < 0 + 111 * _
      rw [State.taken] at fewer ⊢
      omega

/-- The message that is printed was taken. -/
theorem nul_mem_txBuf (promised : Promised messages state) {call : Printing} {position : Nat}
    (here : state.main = .printing call position) (copied : call = .label ∨ call = .message) :
    0 ∈ state.txBuf.toList := by
  obtain ⟨taken, echoing⟩ := promised.echoing
  have shown := echoing.shown
  rw [here] at shown
  have member : state.txBuf ∈ taken := by
    generalize state.output .uart1 = output at shown
    rcases copied with rfl | rfl <;> cases shown <;>
      exact List.mem_append_right _ (List.mem_singleton.mpr rfl)
  exact echoing.queued.nul_mem echoing.sound member

theorem Promised.printUart (promised : Promised messages state) {call : Printing}
    {position : Nat} (here : state.main = .printing call position) :
    (state.printUart call position).due messages.length < state.due messages.length := by
  obtain ⟨taken, echoing⟩ := promised.echoing
  have shown := echoing.shown
  rw [here] at shown
  have nul : ∀ message ∈ taken, 0 ∈ message.toList :=
    fun message member => echoing.queued.nul_mem echoing.sound member
  rw [State.printUart]
  rcases read_cString (shown.nul_mem nul) shown.inside with
    ⟨c, read, notNul, room, _⟩ | ⟨read, whole⟩
  · rw [read]
    dsimp only
    rw [if_neg notNul, State.due, State.due, here]
    apply Nat.add_lt_add_right
    change (call.printed state.txBuf).length - (position + 1) + 1 + call.after <
      (call.printed state.txBuf).length - position + 1 + call.after
    change position < (call.printed state.txBuf).length at room
    omega
  · rw [read]
    dsimp only
    rw [if_pos rfl, State.due, State.due, here]
    apply Nat.add_lt_add_right
    have next := toPolling_next_le call fun label => nul_mem_txBuf promised here (.inl label)
    change call.next.toPolling state.txBuf <
      (call.printed state.txBuf).length - position + 1 + call.after
    omega

theorem Promised.main {ready : Uart → Bool} (both : ∀ uart, ready uart = true)
    (promised : Promised messages state) (missing : ¬ EchoedAll messages state) :
    (mainStep ready state).due messages.length < state.due messages.length := by
  rw [mainStep]
  cases here : state.main with
  | start =>
      dsimp only
      rw [State.begin, both, both, if_neg (by decide), State.due, State.due, here]
      apply Nat.add_lt_add_right
      exact Nat.lt_of_le_of_lt (toPolling_begin_le .banner (by rintro ⟨⟩)) (Nat.lt_succ_self 66)
  | printing call position => exact promised.printUart here
  | polling => exact promised.poll here missing
  | returned code => exact absurd here (promised.goesOn code)
  | overrun =>
      obtain ⟨taken, echoing⟩ := promised.echoing
      have shown := echoing.shown
      rw [here] at shown
      exact absurd shown not_shown_overrun

theorem goesOn_mainStep {ready : Uart → Bool} (both : ∀ uart, ready uart = true)
    (goesOn : ∀ code, state.main ≠ .returned code) :
    ∀ code, (mainStep ready state).main ≠ .returned code := by
  intro code
  rw [mainStep]
  cases here : state.main with
  | start =>
      dsimp only
      rw [State.begin, both, both, if_neg (by decide)]
      rintro ⟨⟩
  | printing call position =>
      dsimp only
      rw [State.printUart]
      split
      next => rintro ⟨⟩
      next =>
          split
          · cases call <;> rintro ⟨⟩
          · rintro ⟨⟩
  | polling =>
      dsimp only
      rw [State.poll]
      split <;> rintro ⟨⟩
  | returned other => exact absurd here (goesOn other)
  | overrun =>
      dsimp only
      rw [here]
      rintro ⟨⟩

/-- What was accepted stays so. -/
theorem accepted_serve {port : Port msgSize} (begins : messages <+: port.accepted)
    (reception : Reception) : messages <+: (port.serve reception).accepted := by
  refine Port.keeps_serve (messages <+: ·.accepted) ?_ begins reception
  intro port c before
  rw [Port.receive]
  dsimp only
  split
  · rw [accepted_submit]
    exact before.trans (List.prefix_append _ _)
  · split <;> exact before

theorem Promised.step {ready : Uart → Bool} (both : ∀ uart, ready uart = true)
    (promised : Promised messages state) (action : Action) :
    Promised messages (step ready state action) := by
  obtain ⟨taken, echoing⟩ := promised.echoing
  refine ⟨echoing.step ready action, ?_, ?_⟩
  · cases action with
    | main => exact goesOn_mainStep both promised.goesOn
    | interrupt raised =>
        rw [TwoUarts.step]
        split <;> exact promised.goesOn
  · cases action with
    | main =>
        rw [TwoUarts.step, accepted_mainStep]
        exact promised.accepted
    | interrupt raised =>
        rw [TwoUarts.step]
        split
        · have port := port_serialCb state.uarts raised .uart1
          change messages <+: ((serialCb state.uarts raised).port .uart1).accepted
          rw [port]
          split
          · exact accepted_serve promised.accepted raised.reception
          · exact promised.accepted
        · exact promised.accepted

/-- An interrupt leaves `main` and what it has taken. -/
theorem Promised.interrupt (promised : Promised messages state) (ready : Uart → Bool)
    (raised : Interrupt) :
    (TwoUarts.step ready state (.interrupt raised)).due messages.length =
      state.due messages.length := by
  obtain ⟨taken, echoing⟩ := promised.echoing
  rw [TwoUarts.step]
  split
  · rw [State.due, State.due, (echoing.interrupt raised).taken, echoing.taken]
  · rfl

theorem ranked {ready : Uart → Bool} (both : ∀ uart, ready uart = true)
    (messages : List Message) :
    Ranked (step ready) Action.isMain (Promised messages) (EchoedAll messages)
      (State.due messages.length) where
  kept action promised := promised.step both action
  stays action promised echoed := echoed.trans (output_step ready _ action)
  spent := Promised.echoed_of_due
  descends {state action} promised missing counted := by
    cases action with
    | main => exact promised.main both missing
    | interrupt raised => cases counted
  others {state action} promised counted := by
    cases action with
    | main => cases counted
    | interrupt raised => exact Nat.le_of_eq (promised.interrupt ready raised)

theorem promised_run {ready : Uart → Bool} (both : ∀ uart, ready uart = true) (txBuf : Message)
    (actions : List Action) :
    Promised (run ready txBuf actions).uarts.port1.accepted (run ready txBuf actions) := by
  refine ⟨echoing_run ready txBuf actions, ?_, List.prefix_refl _⟩
  induction actions using List.reverseRecOn with
  | nil => rintro code ⟨⟩
  | append_singleton actions action ih =>
      rw [run, List.foldl_concat]
      cases action with
      | main => exact goesOn_mainStep both ih
      | interrupt raised =>
          rw [TwoUarts.step]
          split <;> exact ih

/-- A round of the loop is at most 111 steps. -/
theorem Promised.due_le (promised : Promised state.uarts.port1.accepted state) :
    state.due state.uarts.port1.accepted.length ≤
      111 * (state.uarts.port1.msgq.items.length + 1) := by
  obtain ⟨taken, echoing⟩ := promised.echoing
  have queued := congrArg List.length echoing.queued
  rw [List.length_append] at queued
  have place : state.main.toPolling state.txBuf ≤ 111 := by
    cases here : state.main with
    | start => exact Nat.le_trans (Nat.le_refl 67) (by decide)
    | printing call position =>
        have short := call.length_printed_le fun message =>
          nul_mem_txBuf promised here (.inr message)
        have round : call.characters + 1 + call.after ≤ 111 := by cases call <;> decide
        rw [Main.toPolling]
        omega
    | polling | returned code | overrun => exact Nat.zero_le 111
  rw [State.due, echoing.taken]
  omega

theorem Promised.echoed {ready : Uart → Bool} (both : ∀ uart, ready uart = true)
    (promised : Promised state.uarts.port1.accepted state) {more : List Action}
    (enough : 111 * (state.uarts.port1.msgq.items.length + 1) ≤ more.countP Action.isMain) :
    EchoedAll state.uarts.port1.accepted (more.foldl (TwoUarts.step ready) state) :=
  (ranked both _).met promised (Nat.le_trans promised.due_le enough)

/-- What is pending is echoed after 111 steps of `main` for each message and 111 for the
round that is going on, whatever interrupts are served between them. -/
theorem echoed_in_time {ready : Uart → Bool} (both : ∀ uart, ready uart = true)
    (txBuf : Message) (actions more : List Action)
    (enough : 111 * ((run ready txBuf actions).uarts.port1.msgq.items.length + 1) ≤
      more.countP Action.isMain) :
    EchoedAll (run ready txBuf actions).uarts.port1.accepted
      (run ready txBuf (actions ++ more)) := by
  have goesOn : run ready txBuf (actions ++ more) =
      more.foldl (step ready) (run ready txBuf actions) := List.foldl_append
  rw [goesOn]
  exact (promised_run both txBuf actions).echoed both enough

/-- A letter that came in while the banner was printed. -/
theorem echoed_in_time_letter :
    (run (fun _ => true) (Vector.replicate 64 0)
      [.main, .main, .interrupt ⟨some .uart1, true, true, ascii "a\n"⟩]).uarts.port1.accepted.map
        text = [ascii "a"] ∧
    EchoedAll
      (run (fun _ => true) (Vector.replicate 64 0)
        [.main, .main, .interrupt ⟨some .uart1, true, true, ascii "a\n"⟩]).uarts.port1.accepted
      (run (fun _ => true) (Vector.replicate 64 0)
        ([.main, .main, .interrupt ⟨some .uart1, true, true, ascii "a\n"⟩] ++
          List.replicate 222 .main)) := by
  refine ⟨by decide +kernel, ?_⟩
  apply echoed_in_time (fun _ => rfl)
  rw [List.countP_replicate]
  decide +kernel

end Draining

end Uc1Integration.Echo.TwoUarts
