import Uc1Integration.Echo.Port

/-!
# The interrupt callbacks of the echo programs

`serial_cb` of `echo_bot`, which serves one UART, and of `echo_bot_two_uarts`,
which finds the buffers of the UART that raised the interrupt.
-/

set_option autoImplicit false

namespace Uc1Integration.Echo

namespace EchoBot

abbrev msgSize : Nat := 32

theorem msgSize_pos : 0 < msgSize := by
  decide

def serialCb (uart : Port msgSize) (reception : Reception) : Port msgSize :=
  uart.serve reception

def serve (interrupts : List Reception) : Port msgSize :=
  interrupts.foldl serialCb (.boot msgSize_pos)

def bytes (interrupts : List Reception) : List UInt8 :=
  interrupts.flatMap Reception.read

theorem serve_snoc (interrupts : List Reception) (reception : Reception) :
    serve (interrupts ++ [reception]) = serialCb (serve interrupts) reception :=
  List.foldl_concat ..

theorem received_serve (interrupts : List Reception) :
    (serve interrupts).received = bytes interrupts := by
  induction interrupts using List.reverseRecOn with
  | nil => rfl
  | append_singleton interrupts reception ih =>
      rw [serve_snoc, serialCb, Echo.received_serve, ih, bytes, bytes, List.flatMap_append,
        List.flatMap_singleton]

theorem sound_serve (interrupts : List Reception) : (serve interrupts).Sound := by
  induction interrupts using List.reverseRecOn with
  | nil => exact sound_boot msgSize_pos
  | append_singleton interrupts reception ih =>
      rw [serve_snoc]
      exact ih.serve (by decide) reception

end EchoBot

namespace TwoUarts

abbrev msgSize : Nat := 64

theorem msgSize_pos : 0 < msgSize := by
  decide

inductive Uart where
  | uart0
  | uart1
  deriving DecidableEq

/-- `rx_buf0`, `rx_pos0` and `uart0_msgq`, and the same of `uart1`. -/
structure Uarts where
  port0 : Port msgSize
  port1 : Port msgSize

def Uarts.boot : Uarts :=
  ⟨.boot msgSize_pos, .boot msgSize_pos⟩

def Uarts.port (uarts : Uarts) : Uart → Port msgSize
  | .uart0 => uarts.port0
  | .uart1 => uarts.port1

/-- The device of an interrupt may be neither of the two. -/
structure Interrupt where
  dev : Option Uart
  reception : Reception

def serialCb (uarts : Uarts) (interrupt : Interrupt) : Uarts :=
  match interrupt.dev with
  | some .uart0 => { uarts with port0 := uarts.port0.serve interrupt.reception }
  | some .uart1 => { uarts with port1 := uarts.port1.serve interrupt.reception }
  | none => uarts

def serve (interrupts : List Interrupt) : Uarts :=
  interrupts.foldl serialCb .boot

def Interrupt.read (uart : Uart) (interrupt : Interrupt) : List UInt8 :=
  if interrupt.dev = some uart then interrupt.reception.read else []

def bytes (uart : Uart) (interrupts : List Interrupt) : List UInt8 :=
  interrupts.flatMap (Interrupt.read uart)

/-- A UART is served, or left as it is. -/
theorem port_serialCb (uarts : Uarts) (interrupt : Interrupt) (uart : Uart) :
    (serialCb uarts interrupt).port uart =
      if interrupt.dev = some uart then (uarts.port uart).serve interrupt.reception
      else uarts.port uart := by
  obtain ⟨dev, reception⟩ := interrupt
  cases dev with
  | none => rfl
  | some raised =>
      cases raised <;> cases uart <;> rfl

theorem received_serialCb (uarts : Uarts) (interrupt : Interrupt) (uart : Uart) :
    ((serialCb uarts interrupt).port uart).received =
      (uarts.port uart).received ++ interrupt.read uart := by
  rw [port_serialCb, Interrupt.read]
  split
  · exact Echo.received_serve _ _
  · exact (List.append_nil _).symm

theorem sound_serialCb {uarts : Uarts} {uart : Uart} (sound : (uarts.port uart).Sound)
    (interrupt : Interrupt) : ((serialCb uarts interrupt).port uart).Sound := by
  rw [port_serialCb]
  split
  · exact sound.serve (by decide) interrupt.reception
  · exact sound

theorem serve_snoc (interrupts : List Interrupt) (interrupt : Interrupt) :
    serve (interrupts ++ [interrupt]) = serialCb (serve interrupts) interrupt :=
  List.foldl_concat ..

theorem received_serve (interrupts : List Interrupt) (uart : Uart) :
    ((serve interrupts).port uart).received = bytes uart interrupts := by
  induction interrupts using List.reverseRecOn with
  | nil => cases uart <;> rfl
  | append_singleton interrupts interrupt ih =>
      rw [serve_snoc, received_serialCb, ih, bytes, bytes, List.flatMap_append,
        List.flatMap_singleton]

theorem sound_serve (interrupts : List Interrupt) (uart : Uart) :
    ((serve interrupts).port uart).Sound := by
  induction interrupts using List.reverseRecOn with
  | nil =>
      cases uart with
      | uart0 => exact sound_boot msgSize_pos
      | uart1 => exact sound_boot msgSize_pos
  | append_singleton interrupts interrupt ih =>
      rw [serve_snoc]
      exact sound_serialCb ih interrupt

end TwoUarts

end Uc1Integration.Echo
