import Mathlib.Logic.Function.Basic
import Uc1Integration.Echo.SerialCallbacks

/-!
# The main loop of `echo_bot_two_uarts`

A step of `main` prints one character, ends a call of `print_uart` or polls the
queue. An interrupt may be served between any two steps.
-/

set_option autoImplicit false

namespace Uc1Integration.Echo.TwoUarts

abbrev Message : Type := Vector UInt8 msgSize

/-- The calls of `print_uart` in `main`, in the order of the source. -/
inductive Printing where
  | banner
  | hello
  | label
  | message
  | lineEnd

/-- Where `main` is. A character is read at `position` of what a call prints, and
`overrun` is a read behind the memory that holds it. -/
inductive Main where
  | start
  | printing (call : Printing) (position : Nat)
  | polling
  | returned (code : Int)
  | overrun

/-- `sent` are the characters given to `uart_poll_out` and `console` those given to `printk`. -/
structure State where
  main : Main
  uarts : Uarts
  rxEnabled : Uart → Bool
  txBuf : Message
  sent : List (Uart × UInt8)
  console : List UInt8

/-- The contents of `tx_buf` are those of the stack. -/
def State.boot (txBuf : Message) : State :=
  ⟨.start, .boot, fun _ => false, txBuf, [], []⟩

def State.output (state : State) (uart : Uart) : List UInt8 :=
  (state.sent.filter (·.1 = uart)).map Prod.snd

def literal (string : String) : List UInt8 :=
  ascii string ++ [0]

namespace Printing

def dev : Printing → Uart
  | hello => .uart0
  | banner | label | message | lineEnd => .uart1

def msg (txBuf : Message) : Printing → List UInt8
  | banner => literal "UART1 ready. Type something:\r\n"
  | hello => literal "UART0 says: Hello from echo bot!\r\n"
  | label => literal "UART1: "
  | message => txBuf.toList
  | lineEnd => literal "\r\n"

def next : Printing → Main
  | banner => .printing hello 0
  | hello => .polling
  | label => .printing message 0
  | message => .printing lineEnd 0
  | lineEnd => .printing hello 0

end Printing

def State.printUart (state : State) (call : Printing) (position : Nat) : State :=
  match (call.msg state.txBuf)[position]? with
  | none => { state with main := .overrun }
  | some c =>
      if c = 0 then { state with main := call.next }
      else
        { state with
          main := .printing call (position + 1)
          sent := state.sent ++ [(call.dev, c)] }

/-- A message is copied to `tx_buf`, or the queue is empty. -/
def State.poll (state : State) : State :=
  match state.uarts.port1.msgq.get with
  | some (message, msgq) =>
      { state with
        main := .printing .label 0
        uarts := { state.uarts with port1 := { state.uarts.port1 with msgq } }
        txBuf := message }
  | none => { state with main := .printing .hello 0 }

def State.begin (ready : Uart → Bool) (state : State) : State :=
  if !ready .uart0 || !ready .uart1 then
    { state with
      main := .returned 1
      console := state.console ++ ascii "UART devices not ready!\n" }
  else
    { state with
      main := .printing .banner 0
      rxEnabled := Function.update state.rxEnabled .uart1 true }

def mainStep (ready : Uart → Bool) (state : State) : State :=
  match state.main with
  | .start => state.begin ready
  | .printing call position => state.printUart call position
  | .polling => state.poll
  | .returned _ | .overrun => state

inductive Action where
  | main
  | interrupt (raised : Interrupt)

/-- Only a UART whose reception is enabled interrupts. -/
def step (ready : Uart → Bool) (state : State) : Action → State
  | .main => mainStep ready state
  | .interrupt raised =>
      if raised.dev.any state.rxEnabled then
        { state with uarts := serialCb state.uarts raised }
      else state

def run (ready : Uart → Bool) (txBuf : Message) (actions : List Action) : State :=
  actions.foldl (step ready) (.boot txBuf)

end Uc1Integration.Echo.TwoUarts
