import Uc1Integration.Echo.SerialCallbacks

/-!
# The messages of a stream

A terminator at position 0 goes to the branch that stores a character, so it
becomes the first character of the next message.
-/

set_option autoImplicit false

namespace Uc1Integration.Echo

open Text

variable {size : Nat}

/-- The messages are the lines of the stream that are not empty, cut to what fits. -/
structure SplitsLines (stream : List UInt8) (messages : List (Vector UInt8 size)) : Prop where
  lines : List.Forall₂ Carries ((terminated isTerminator stream).filter (· ≠ [])) messages
  noTerminator : ∀ message ∈ messages, ∀ c ∈ text message, isTerminator c = false

theorem Port.Sound.carries {port : Port size} (sound : port.Sound) :
    List.Forall₂ Carries (segments isTerminator port.received).done port.messages :=
  List.forall₂_map_right_iff.mpr sound.submitted

/-- The text of a message is made of bytes of its line. -/
theorem noTerminator_of_carries {line : List UInt8} {message : Vector UInt8 size}
    (carries : Carries line message) (items : ∀ c ∈ line, isTerminator c = false) :
    ∀ c ∈ text message, isTerminator c = false := by
  intro c member
  rw [text_of_carries carries, cString] at member
  exact items c (List.mem_of_mem_take (List.takeWhile_sublist _ |>.mem member))

theorem mem_text_of_carries (two : 1 < size) {c : UInt8} {later : List UInt8}
    {message : Vector UInt8 size} (carries : Carries (c :: later) message) (notNul : c ≠ 0) :
    c ∈ text message := by
  have room : size - 1 = (size - 2) + 1 := by omega
  rw [text_of_carries carries, cString, room, List.take_succ_cons,
    List.takeWhile_cons, if_pos (decide_eq_true notNul)]
  exact List.mem_cons_self

theorem notNul_of_isTerminator {c : UInt8} (ends : isTerminator c = true) : c ≠ 0 := by
  rintro rfl
  cases ends

theorem not_splitsLines_of_text {stream : List UInt8} {messages : List (Vector UInt8 size)}
    {c : UInt8} {shown : List UInt8} (ends : isTerminator c = true) (here : c ∈ shown)
    (member : shown ∈ messages.map text) : ¬ SplitsLines stream messages := by
  intro splits
  obtain ⟨message, messageMember, rfl⟩ := List.mem_map.mp member
  have hidden := splits.noTerminator message messageMember c here
  rw [ends] at hidden
  cases hidden

theorem splitsLines_of_fullLines {port : Port size} (sound : port.Sound)
    (full : FullLines isTerminator port.received) :
    SplitsLines port.received port.messages := by
  have lines := sound.carries
  rw [segments_of_fullLines port.received full] at lines
  constructor
  · exact lines
  · intro message member
    obtain ⟨line, lineMember, carries⟩ := exists_left_of_mem lines member
    exact noTerminator_of_carries carries
      (items_of_terminated port.received line (List.mem_of_mem_filter lineMember))

/-- A segment that begins with a terminator is carried by a message that shows it. -/
theorem fullLines_of_splitsLines (two : 1 < size) {port : Port size} (sound : port.Sound)
    (splits : SplitsLines port.received port.messages) :
    FullLines isTerminator port.received := by
  by_contra not
  obtain ⟨separator, later, ends, member⟩ := exists_segment_of_not_fullLines _ not
  obtain ⟨message, messageMember, carries⟩ := exists_right_of_mem sound.carries member
  have shown := mem_text_of_carries two carries (notNul_of_isTerminator ends)
  exact not_splitsLines_of_text ends shown (List.mem_map_of_mem messageMember) splits

theorem Port.Sound.splitsLines_iff (two : 1 < size) {port : Port size} (sound : port.Sound) :
    SplitsLines port.received port.messages ↔ FullLines isTerminator port.received :=
  ⟨fullLines_of_splitsLines two sound, splitsLines_of_fullLines sound⟩

/-- Both callbacks split the bytes of a UART into its lines, however these come in
interrupts, exactly where no empty line is followed by a further terminator. -/
theorem serialCb_splitsLines_iff (receptions : List Reception)
    (interrupts : List TwoUarts.Interrupt) (uart : TwoUarts.Uart) :
    (SplitsLines (EchoBot.bytes receptions) (EchoBot.serve receptions).messages ↔
      FullLines isTerminator (EchoBot.bytes receptions)) ∧
    (SplitsLines (TwoUarts.bytes uart interrupts)
        ((TwoUarts.serve interrupts).port uart).messages ↔
      FullLines isTerminator (TwoUarts.bytes uart interrupts)) := by
  constructor
  · rw [← EchoBot.received_serve]
    exact (EchoBot.sound_serve receptions).splitsLines_iff (by decide)
  · rw [← TwoUarts.received_serve]
    exact (TwoUarts.sound_serve interrupts uart).splitsLines_iff (by decide)

/-- Two lines, the first of which is ended by both terminators. -/
def crlfReception : Reception :=
  ⟨true, true, ascii "a\r\nb\n"⟩

/-- The line feed that follows the carriage return begins the second message. -/
theorem not_splitsLines_crlf :
    ¬ SplitsLines (EchoBot.bytes [crlfReception]) (EchoBot.serve [crlfReception]).messages ∧
      ¬ SplitsLines (TwoUarts.bytes .uart1 [⟨some .uart1, crlfReception⟩])
        ((TwoUarts.serve [⟨some .uart1, crlfReception⟩]).port .uart1).messages := by
  have begins : '\n'.toUInt8 ∈ ascii "\nb" := List.mem_cons_self
  constructor
  · exact not_splitsLines_of_text rfl begins (by decide)
  · exact not_splitsLines_of_text rfl begins (by decide)

end Uc1Integration.Echo
