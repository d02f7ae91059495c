import Uc1Integration.Echo.Echoes
import Uc1Integration.Text.Chunks

/-!
# The AT command of `hello_at`

`main` sends one command to the modem and sleeps, and `uart_cb` prints each line of the
answers. A step of `main` is a call of `printk` or one character, an interrupt may be
served between any two steps, and one `printk` is one entry of the console.
-/

set_option autoImplicit false

namespace Uc1Integration.Echo.HelloAt

open Text TwoUarts

/-- `rx_buf` and `rx_buf_pos`, with the bytes that were read and what was printed. -/
structure Modem where
  rxBuf : Vector UInt8 msgSize
  rxBufPos : Fin msgSize
  received : List UInt8
  console : List (List UInt8)

def Modem.boot : Modem :=
  ⟨Vector.replicate msgSize 0, ⟨0, msgSize_pos⟩, [], []⟩

/-- A byte that finds no room is dropped. -/
def Modem.store (modem : Modem) (c : UInt8) : Modem :=
  if room : modem.rxBufPos.val < msgSize - 1 then
    { modem with
      rxBuf := modem.rxBuf.set modem.rxBufPos.val c modem.rxBufPos.isLt
      rxBufPos := ⟨modem.rxBufPos.val + 1, next_lt room⟩ }
  else modem

/-- `printk("Modem says: %s\n", rx_buf)`. -/
def answerLine (message : List UInt8) : List UInt8 :=
  ascii "Modem says: " ++ message ++ ascii "\n"

def Modem.answer (modem : Modem) : Modem :=
  let rxBuf := modem.rxBuf.set modem.rxBufPos.val 0 modem.rxBufPos.isLt
  { modem with
    rxBuf
    rxBufPos := ⟨0, msgSize_pos⟩
    console := modem.console ++ [answerLine (text rxBuf)] }

def Modem.receive (modem : Modem) (c : UInt8) : Modem :=
  let modem := { modem.store c with received := modem.received ++ [c] }
  if isTerminator c then modem.answer else modem

def uartCb (modem : Modem) (reception : Reception) : Modem :=
  if !reception.update || !reception.rxReady then modem
  else reception.bytes.foldl Modem.receive modem

inductive Main where
  | start
  | announcing
  | sending (position : Nat)
  | sleeping
  | returned (code : Int)
  | overrun

structure State where
  main : Main
  modem : Modem
  rxEnabled : Bool
  sent : List UInt8

def State.boot : State :=
  ⟨.start, .boot, false, []⟩

def State.printk (state : State) (text : List UInt8) : State :=
  { state with modem := { state.modem with console := state.modem.console ++ [text] } }

/-- `uart_send("AT+RST\r\n")`. -/
def State.uartSend (state : State) (position : Nat) : State :=
  match (literal "AT+RST\r\n")[position]? with
  | none => { state with main := .overrun }
  | some c =>
      if c = 0 then { state with main := .sleeping }
      else { state with main := .sending (position + 1), sent := state.sent ++ [c] }

def mainStep (ready : Bool) (state : State) : State :=
  match state.main with
  | .start =>
      if ready then { state with main := .announcing, rxEnabled := true }
      else { state.printk (ascii "UART device not ready!\n") with main := .returned 0 }
  | .announcing => { state.printk (ascii "Sending AT command: AT+RST\r\n") with main := .sending 0 }
  | .sending position => state.uartSend position
  | .sleeping | .returned _ | .overrun => state

inductive Action where
  | main
  | interrupt (reception : Reception)

def step (ready : Bool) (state : State) : Action → State
  | .main => mainStep ready state
  | .interrupt reception =>
      if state.rxEnabled then { state with modem := uartCb state.modem reception } else state

def run (ready : Bool) (actions : List Action) : State :=
  actions.foldl (step ready) .boot

/-!
## What is printed
-/

/-- The buffer holds the bytes of the chunk that is not yet finished, as far as they fit. -/
structure Holds (modem : Modem) (current : List UInt8) : Prop where
  rxBufPos : modem.rxBufPos.val = min current.length (msgSize - 1)
  rxBuf : modem.rxBuf.toList.take modem.rxBufPos.val = current.take (msgSize - 1)

section Modem

variable {modem : Modem} {current : List UInt8}

theorem holds_store (holds : Holds modem current) (c : UInt8) :
    Holds (modem.store c) (current ++ [c]) := by
  obtain ⟨rxBufPos, rxBuf⟩ := holds
  have length : (current ++ [c]).length = current.length + 1 := List.length_append
  have inside : modem.rxBufPos.val < modem.rxBuf.toList.length := by
    rw [Vector.length_toList]
    exact modem.rxBufPos.isLt
  rw [Modem.store]
  split
  next room =>
    have short : current.length = modem.rxBufPos.val := by omega
    have whole : current.take (msgSize - 1) = current := List.take_of_length_le (by omega)
    have fits : (current ++ [c]).length ≤ msgSize - 1 := by omega
    rw [whole] at rxBuf
    constructor
    · change modem.rxBufPos.val + 1 = min (current ++ [c]).length (msgSize - 1)
      omega
    · rw [List.take_of_length_le fits, Vector.toList_set, List.set_eq_take_append_cons_drop,
        if_pos inside, rxBuf, ← List.singleton_append, ← List.append_assoc,
        List.take_left' (by rw [length, short])]
  next full =>
    constructor
    · omega
    · rw [List.take_append_of_le_length (by omega)]
      exact rxBuf

/-- A string that begins with the buffer and a NUL. -/
theorem text_answer (holds : Holds modem current) :
    text (modem.rxBuf.set modem.rxBufPos.val 0 modem.rxBufPos.isLt) =
      cString (current.take (msgSize - 1)) := by
  have inside : modem.rxBufPos.val < modem.rxBuf.toList.length := by
    rw [Vector.length_toList]
    exact modem.rxBufPos.isLt
  apply text_of_carries
  rw [Carries, ← holds.rxBuf, Vector.toList_set, List.set_eq_take_append_cons_drop, if_pos inside]
  exact (List.prefix_append_right_inj _).mpr ⟨_, List.singleton_append⟩

theorem holds_answer (modem : Modem) : Holds modem.answer [] :=
  ⟨rfl, List.take_nil.symm⟩

end Modem

def command : List UInt8 :=
  ascii "AT+RST\r\n"

/-- The line of a chunk: its first bytes up to a NUL. -/
def line (chunk : List UInt8) : List UInt8 :=
  answerLine (cString (chunk.take (msgSize - 1)))

def announcement : List UInt8 :=
  ascii "Sending AT command: AT+RST\r\n"

/-- What the console shows and the modem was sent when `main` is at a place: the lines of all
chunks in their order, and what `main` printed between two of them. -/
inductive Shown : Main → List (List UInt8) → List (List UInt8) → List UInt8 → Prop where
  | start : Shown .start [] [] []
  | returned : Shown (.returned 0) [] [ascii "UART device not ready!\n"] []
  | announcing {done : List (List UInt8)} : Shown .announcing done (done.map line) []
  | sending {before after : List (List UInt8)} {position : Nat}
      (inside : position ≤ command.length) :
      Shown (.sending position) (before ++ after)
        (before.map line ++ [announcement] ++ after.map line) (command.take position)
  | sleeping {before after : List (List UInt8)} :
      Shown .sleeping (before ++ after)
        (before.map line ++ [announcement] ++ after.map line) command

/-- Interrupts come after the reception was enabled. -/
def Main.Listens : Main → Prop
  | .start | .returned _ => False
  | _ => True

theorem Shown.answer {place : Main} {done console : List (List UInt8)} {sent : List UInt8}
    (shown : Shown place done console sent) (listens : place.Listens) (chunk : List UInt8) :
    Shown place (done ++ [chunk]) (console ++ [line chunk]) sent := by
  cases shown with
  | start => exact absurd listens id
  | returned => exact absurd listens id
  | announcing =>
      rw [← List.map_singleton, ← List.map_append]
      exact .announcing
  | sending inside =>
      rw [List.append_assoc, List.append_assoc _ _ [line chunk], ← List.map_singleton,
        ← List.map_append]
      exact .sending inside
  | sleeping =>
      rw [List.append_assoc, List.append_assoc _ _ [line chunk], ← List.map_singleton,
        ← List.map_append]
      exact .sleeping

/-- The invariant of the interrupts and `main` together. -/
structure Serves (place : Main) (sent : List UInt8) (modem : Modem) : Prop where
  holds : Holds modem (chunks isTerminator modem.received).current
  shown : Shown place (chunks isTerminator modem.received).done modem.console sent

section Serves

variable {place : Main} {sent : List UInt8} {modem : Modem}

theorem Serves.receive (serves : Serves place sent modem) (listens : place.Listens) (c : UInt8) :
    Serves place sent (modem.receive c) := by
  have stored := holds_store serves.holds c
  have kept : (modem.store c).console = modem.console := by
    rw [Modem.store]
    split <;> rfl
  have shown := serves.shown
  have closed := @chunks_snoc _ isTerminator modem.received c
  rw [← kept] at shown
  rw [Segments.close] at closed
  rw [Modem.receive]
  dsimp only
  split
  next terminates =>
    rw [if_pos terminates] at closed
    have answered := shown.answer listens ((chunks isTerminator modem.received).current ++ [c])
    rw [line, ← text_answer stored] at answered
    constructor
    · change Holds _ (chunks isTerminator (modem.received ++ [c])).current
      rw [closed]
      exact holds_answer _
    · change Shown place (chunks isTerminator (modem.received ++ [c])).done _ sent
      rw [closed]
      exact answered
  next goesOn =>
    rw [if_neg goesOn] at closed
    constructor
    · change Holds _ (chunks isTerminator (modem.received ++ [c])).current
      rw [closed]
      exact ⟨stored.rxBufPos, stored.rxBuf⟩
    · change Shown place (chunks isTerminator (modem.received ++ [c])).done _ sent
      rw [closed]
      exact shown

theorem Serves.uartCb (serves : Serves place sent modem) (listens : place.Listens)
    (reception : Reception) : Serves place sent (uartCb modem reception) := by
  rw [HelloAt.uartCb]
  split
  · exact serves
  · generalize reception.bytes = bytes
    induction bytes generalizing modem with
    | nil => exact serves
    | cons c bytes ih => exact ih (serves.receive listens c)

end Serves

/-- The invariant of a run. -/
structure Answering (state : State) : Prop where
  serves : Serves state.main state.sent state.modem
  listens : state.rxEnabled = true → state.main.Listens

section Step

variable {state : State}

theorem cString_command : cString (literal "AT+RST\r\n") = command := by
  decide

theorem Shown.inside {position : Nat} {done console : List (List UInt8)} {sent : List UInt8}
    (shown : Shown (.sending position) done console sent) : position ≤ command.length := by
  cases shown
  assumption

theorem Shown.next_char {position : Nat} {done console : List (List UInt8)} {sent : List UInt8}
    {c : UInt8} (shown : Shown (.sending position) done console sent)
    (room : position < command.length)
    (takes : command.take (position + 1) = command.take position ++ [c]) :
    Shown (.sending (position + 1)) done console (sent ++ [c]) := by
  cases shown
  rw [← takes]
  exact .sending room

theorem Shown.sent_all {position : Nat} {done console : List (List UInt8)} {sent : List UInt8}
    (shown : Shown (.sending position) done console sent)
    (whole : command.take position = command) : Shown .sleeping done console sent := by
  cases shown
  rw [whole]
  exact .sleeping

theorem Shown.announce {done console : List (List UInt8)} {sent : List UInt8}
    (shown : Shown .announcing done console sent) :
    Shown (.sending 0) done (console ++ [announcement]) sent := by
  cases shown
  have begun : Shown (.sending 0) (done ++ [])
      (done.map line ++ [announcement] ++ [].map line) (command.take 0) :=
    .sending (Nat.zero_le _)
  rwa [List.append_nil, List.map_nil, List.append_nil] at begun

theorem Answering.uartSend (answering : Answering state) {position : Nat}
    (here : state.main = .sending position) : Answering (state.uartSend position) := by
  have shown := answering.serves.shown
  rw [here] at shown
  have inside := shown.inside
  have ends : 0 ∈ literal "AT+RST\r\n" := List.mem_append_right _ (List.mem_singleton.mpr rfl)
  rw [← cString_command] at inside
  rw [State.uartSend]
  rcases read_cString ends inside with ⟨c, read, notNul, room, takes⟩ | ⟨read, whole⟩
  · rw [cString_command] at room takes
    rw [read]
    dsimp only
    rw [if_neg notNul]
    exact ⟨⟨answering.serves.holds, shown.next_char room takes⟩, fun _ => trivial⟩
  · rw [cString_command] at whole
    rw [read]
    exact ⟨⟨answering.serves.holds, shown.sent_all whole⟩, fun _ => trivial⟩

theorem Shown.begin {done console : List (List UInt8)} {sent : List UInt8}
    (shown : Shown .start done console sent) :
    Shown .announcing done console sent ∧
      Shown (.returned 0) done (console ++ [ascii "UART device not ready!\n"]) sent := by
  cases shown
  exact ⟨.announcing, .returned⟩

theorem Answering.mainStep (answering : Answering state) (ready : Bool) :
    Answering (mainStep ready state) := by
  have holds := answering.serves.holds
  have shown := answering.serves.shown
  have listens := answering.listens
  rw [HelloAt.mainStep]
  cases here : state.main with
  | start =>
      rw [here] at shown listens
      dsimp only
      split
      · exact ⟨⟨holds, shown.begin.1⟩, fun _ => trivial⟩
      · exact ⟨⟨⟨holds.rxBufPos, holds.rxBuf⟩, shown.begin.2⟩, fun enabled => listens enabled⟩
  | announcing =>
      rw [here] at shown
      exact ⟨⟨⟨holds.rxBufPos, holds.rxBuf⟩, shown.announce⟩, fun _ => trivial⟩
  | sending position => exact answering.uartSend here
  | sleeping | returned code | overrun => exact answering

theorem Answering.step (answering : Answering state) (ready : Bool) (action : Action) :
    Answering (step ready state action) := by
  cases action with
  | main => exact answering.mainStep ready
  | interrupt reception =>
      rw [HelloAt.step]
      split
      next enabled =>
        have listens := answering.listens enabled
        exact ⟨answering.serves.uartCb listens reception, fun _ => listens⟩
      next => exact answering

end Step

end Uc1Integration.Echo.HelloAt
