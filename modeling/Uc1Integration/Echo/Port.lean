import Mathlib.Data.List.Forall2
import Mathlib.Data.List.TakeWhile
import Uc1Integration.Interaction.BoundedQueue
import Uc1Integration.Text.Segments

/-!
# The receiving side of a UART

The loop of `serial_cb` in `echo_bot` and in `echo_bot_two_uarts`, with a buffer
of `size` bytes. A position that is no place of the buffer cannot be held.
-/

set_option autoImplicit false

namespace Uc1Integration.Echo

open Interaction Text

def ascii (string : String) : List UInt8 :=
  string.toList.map Char.toUInt8

def isTerminator (c : UInt8) : Bool :=
  c == '\n'.toUInt8 || c == '\r'.toUInt8

/-- What was handed to `k_msgq_put`, and how many messages were pending then. -/
structure Submission (size : Nat) where
  message : Vector UInt8 size
  pending : Nat

/-- The receive buffer and the message queue of a UART, with the bytes that were read
from it and the messages that were submitted. -/
structure Port (size : Nat) where
  rxBuf : Vector UInt8 size
  rxPos : Fin size
  msgq : BoundedQueue 10 (Vector UInt8 size)
  received : List UInt8
  submitted : List (Submission size)

variable {size : Nat}

def Port.messages (port : Port size) : List (Vector UInt8 size) :=
  port.submitted.map Submission.message

def Port.boot (pos : 0 < size) : Port size :=
  ⟨Vector.replicate size 0, ⟨0, pos⟩, .empty, [], []⟩

/-- The terminated line is copied into the queue, or dropped if that is full. -/
def Port.submit (port : Port size) : Port size :=
  let rxBuf := port.rxBuf.set port.rxPos.val 0 port.rxPos.isLt
  { port with
    rxBuf
    rxPos := ⟨0, port.rxPos.pos⟩
    msgq := (port.msgq.put rxBuf).getD port.msgq
    submitted := port.submitted ++ [⟨rxBuf, port.msgq.items.length⟩] }

theorem next_lt {rxPos : Nat} (room : rxPos < size - 1) : rxPos + 1 < size := by
  omega

def Port.receive (port : Port size) (c : UInt8) : Port size :=
  let port := { port with received := port.received ++ [c] }
  if isTerminator c = true ∧ 0 < port.rxPos.val then port.submit
  else if room : port.rxPos.val < size - 1 then
    { port with
      rxBuf := port.rxBuf.set port.rxPos.val c port.rxPos.isLt
      rxPos := ⟨port.rxPos.val + 1, next_lt room⟩ }
  else port

/-- An interrupt: what the driver's tests answer, and what is read until a read fails. -/
structure Reception where
  update : Bool
  rxReady : Bool
  bytes : List UInt8

def Port.serve (port : Port size) (reception : Reception) : Port size :=
  if !reception.update || !reception.rxReady then port
  else reception.bytes.foldl Port.receive port

def Reception.read (reception : Reception) : List UInt8 :=
  if !reception.update || !reception.rxReady then [] else reception.bytes

theorem received_receive (port : Port size) (c : UInt8) :
    (port.receive c).received = port.received ++ [c] := by
  unfold Port.receive
  dsimp only
  split
  · rfl
  · split <;> rfl

theorem received_serve (port : Port size) (reception : Reception) :
    (port.serve reception).received = port.received ++ reception.read := by
  have received : ∀ (bytes : List UInt8) (port : Port size),
      (bytes.foldl Port.receive port).received = port.received ++ bytes := by
    intro bytes
    induction bytes with
    | nil => exact fun port => (List.append_nil _).symm
    | cons c bytes ih =>
        intro port
        rw [List.foldl_cons, ih, received_receive, List.append_assoc, List.singleton_append]
  rw [Port.serve, Reception.read]
  split
  · exact (List.append_nil _).symm
  · exact received _ _

/-- What every byte keeps an interrupt keeps. -/
theorem Port.keeps_serve (keeps : Port size → Prop)
    (step : ∀ (port : Port size) (c : UInt8), keeps port → keeps (port.receive c))
    {port : Port size} (here : keeps port) (reception : Reception) :
    keeps (port.serve reception) := by
  rw [Port.serve]
  split
  · exact here
  · induction reception.bytes generalizing port with
    | nil => exact here
    | cons c bytes ih => exact ih (step port c here)

section Related

variable {α β : Type}

theorem exists_left_of_mem {relation : α → β → Prop} {left : List α}
    {right : List β} (related : List.Forall₂ relation left right) {b : β} (member : b ∈ right) :
    ∃ a ∈ left, relation a b := by
  induction related with
  | nil => cases member
  | cons here _ ih =>
      rcases List.mem_cons.mp member with rfl | later
      · exact ⟨_, List.mem_cons_self, here⟩
      · obtain ⟨a, before, found⟩ := ih later
        exact ⟨a, List.mem_cons_of_mem _ before, found⟩

theorem exists_right_of_mem {relation : α → β → Prop} {left : List α}
    {right : List β} (related : List.Forall₂ relation left right) {a : α} (member : a ∈ left) :
    ∃ b ∈ right, relation a b :=
  exists_left_of_mem related.flip member

end Related

/-!
## What the buffer holds
-/

/-- The characters before the first NUL. -/
def cString (memory : List UInt8) : List UInt8 :=
  memory.takeWhile (· ≠ 0)

def text (message : Vector UInt8 size) : List UInt8 :=
  cString message.toList

/-- The message begins with the first bytes of the segment, and then a NUL. -/
def Carries (segment : List UInt8) (message : Vector UInt8 size) : Prop :=
  segment.take (size - 1) ++ [0] <+: message.toList

theorem text_of_carries {segment : List UInt8} {message : Vector UInt8 size}
    (carries : Carries segment message) :
    text message = cString (segment.take (size - 1)) := by
  obtain ⟨stale, whole⟩ := carries
  have stops : ([0] ++ stale : List UInt8).takeWhile (· ≠ 0) = [] := rfl
  rw [text, ← whole, List.append_assoc, cString, cString]
  by_cases all : ∀ c ∈ segment.take (size - 1), decide (c ≠ 0) = true
  · rw [List.takeWhile_append_of_pos all, stops, List.append_nil, List.takeWhile_eq_self_iff.mpr all]
  · rw [List.takeWhile_append, if_neg]
    intro same
    apply all
    exact List.takeWhile_eq_self_iff.mp ((List.takeWhile_prefix _).eq_of_length same)

/-- A message has its NUL among its bytes. -/
theorem nul_mem_of_carries {segment : List UInt8} {message : Vector UInt8 size}
    (carries : Carries segment message) : 0 ∈ message.toList :=
  carries.subset (List.mem_append_right _ (List.mem_singleton.mpr rfl))

/-- The buffer holds the bytes of the segment that is not yet finished, as far as
they fit, and the submitted messages carry the finished ones. -/
structure Tracks (port : Port size) (cut : Segments UInt8) : Prop where
  rxPos : port.rxPos.val = min cut.current.length (size - 1)
  rxBuf : port.rxBuf.toList.take port.rxPos.val = cut.current.take (size - 1)
  submitted : List.Forall₂ (fun segment submission => Carries segment submission.message)
    cut.done port.submitted

theorem tracks_boot (pos : 0 < size) : Tracks (Port.boot pos) ⟨[], []⟩ := by
  constructor
  · exact (Nat.zero_min _).symm
  · exact List.take_nil.symm
  · exact .nil

section Receive

variable {port : Port size} {cut : Segments UInt8}

theorem Tracks.pos_iff (tracks : Tracks port cut) (two : 1 < size) :
    0 < port.rxPos.val ↔ cut.current ≠ [] := by
  rw [tracks.rxPos, ← List.length_pos_iff]
  omega

theorem Tracks.submit (tracks : Tracks port cut) :
    Tracks port.submit ⟨cut.done ++ [cut.current], []⟩ := by
  constructor
  · exact (Nat.zero_min _).symm
  · exact List.take_nil.symm
  · apply List.rel_append tracks.submitted
    refine .cons ?_ .nil
    have inside : port.rxPos.val < port.rxBuf.toList.length := by
      rw [Vector.length_toList]
      exact port.rxPos.isLt
    rw [Carries, ← tracks.rxBuf, Vector.toList_set, List.set_eq_take_append_cons_drop,
      if_pos inside]
    exact (List.prefix_append_right_inj _).mpr ⟨_, List.singleton_append⟩

theorem Tracks.store (tracks : Tracks port cut) (room : port.rxPos.val < size - 1) (c : UInt8) :
    Tracks
      { port with
        rxBuf := port.rxBuf.set port.rxPos.val c port.rxPos.isLt
        rxPos := ⟨port.rxPos.val + 1, next_lt room⟩ }
      ⟨cut.done, cut.current ++ [c]⟩ := by
  have rxPos := tracks.rxPos
  have rxBuf := tracks.rxBuf
  have short : cut.current.length = port.rxPos.val := by omega
  constructor
  · change port.rxPos.val + 1 = min (cut.current ++ [c]).length (size - 1)
    rw [List.length_append, List.length_singleton]
    omega
  · have inside : port.rxPos.val < port.rxBuf.toList.length := by
      rw [Vector.length_toList]
      exact port.rxPos.isLt
    have fits : (cut.current ++ [c]).length ≤ size - 1 := by
      rw [List.length_append, List.length_singleton]
      omega
    have whole : cut.current.take (size - 1) = cut.current := List.take_of_length_le (by omega)
    rw [whole] at rxBuf
    rw [List.take_of_length_le fits, Vector.toList_set, List.set_eq_take_append_cons_drop,
      if_pos inside, rxBuf, ← List.singleton_append, ← List.append_assoc,
      List.take_left' (by rw [List.length_append, List.length_singleton, short])]
  · exact tracks.submitted

/-- Bytes that find no room are dropped. -/
theorem Tracks.drop (tracks : Tracks port cut) (full : ¬ port.rxPos.val < size - 1) (c : UInt8) :
    Tracks port ⟨cut.done, cut.current ++ [c]⟩ := by
  have rxPos := tracks.rxPos
  have long : size - 1 ≤ cut.current.length := by omega
  constructor
  · rw [List.length_append, List.length_singleton]
    omega
  · rw [List.take_append_of_le_length long]
    exact tracks.rxBuf
  · exact tracks.submitted

theorem tracks_received (tracks : Tracks port cut) (received : List UInt8) :
    Tracks { port with received } cut :=
  ⟨tracks.rxPos, tracks.rxBuf, tracks.submitted⟩

theorem Tracks.receive (two : 1 < size) (tracks : Tracks port cut) (c : UInt8) :
    Tracks (port.receive c) (cut.add isTerminator c) := by
  have here := tracks_received tracks (port.received ++ [c])
  have begun := tracks.pos_iff two
  rw [Port.receive, Segments.add]
  dsimp only
  split
  next ended =>
    rw [if_pos ⟨ended.1, begun.mp ended.2⟩]
    exact here.submit
  next goesOn =>
    rw [if_neg fun ended => goesOn ⟨ended.1, begun.mpr ended.2⟩]
    split
    next room => exact here.store room c
    next full => exact here.drop full c

end Receive

/-- A port is sound when it tracks what it has received. -/
def Port.Sound (port : Port size) : Prop :=
  Tracks port (segments isTerminator port.received)

theorem sound_boot (pos : 0 < size) : (Port.boot pos).Sound :=
  tracks_boot pos

theorem Port.Sound.receive (two : 1 < size) {port : Port size} (sound : port.Sound) (c : UInt8) :
    (port.receive c).Sound := by
  rw [Port.Sound, received_receive, segments, segmentsFrom_append]
  exact Tracks.receive two sound c

theorem Port.Sound.serve (two : 1 < size) {port : Port size} (sound : port.Sound)
    (reception : Reception) : (port.serve reception).Sound :=
  Port.keeps_serve Port.Sound (fun _ c before => before.receive two c) sound reception

end Uc1Integration.Echo
