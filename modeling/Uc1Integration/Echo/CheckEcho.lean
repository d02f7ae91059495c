import Mathlib.Logic.Relation
import Uc1Integration.Echo.TwoUarts
import Uc1Integration.Text.Python

/-!
# The check of the echo

The loop of `check_echo.py` at the other end of the serial line of `uart1`. What
arrives before the port is opened is lost. A timeout may come whatever the board has
sent, for it may be under way.
-/

set_option autoImplicit false

namespace Uc1Integration.Echo.CheckEcho

open Text TwoUarts

/-- `string.ascii_letters + string.digits`. -/
def alphabet : List Char :=
  "abcdefghijklmnopqrstuvwxyzABCDEFGHIJKLMNOPQRSTUVWXYZ0123456789".toList

/-- A result of `generate_random_string`. -/
structure RandomString where
  text : List Char
  length : text.length = 60
  chars : ∀ c ∈ text, c ∈ alphabet

/-- `str.encode`, of ASCII text. -/
def encode (text : List Char) : List UInt8 :=
  text.map Char.toUInt8

/-- `bytes.decode`, of ASCII text. -/
def decode (bytes : List UInt8) : List Char :=
  bytes.map fun byte => Char.ofNat byte.toNat

/-- `(message + '\n').encode()`. -/
def written (message : RandomString) : List UInt8 :=
  encode (message.text ++ ['\n'])

def expectedResponse (message : RandomString) : List Char :=
  "UART1: ".toList ++ message.text

abbrev newline : UInt8 := '\n'.toUInt8

/-- Where the script is; a line that is being read has its first bytes already. -/
inductive Script where
  | closed
  | writing
  | reading (message : RandomString) (line : List UInt8)

/-- A message and what was read as its response: a line, or less by a timeout. -/
structure Exchange where
  message : RandomString
  line : List UInt8

def Exchange.response (exchange : Exchange) : List Char :=
  strip (decode exchange.line)

/-- The script prints "Got". -/
def Exchange.Matches (exchange : Exchange) : Prop :=
  exchange.response = expectedResponse exchange.message

/-- The board, what the script has written that the board has not read, where the
script is, what the board had sent when the port was opened, how much of the rest has
been read, and the exchanges that are complete. -/
structure Bench where
  board : State
  wire : List UInt8
  script : Script
  lost : Nat
  heard : Nat
  exchanges : List Exchange

def Bench.boot (txBuf : Message) : Bench :=
  ⟨.boot txBuf, [], .closed, 0, 0, []⟩

/-- `readline` goes on until it has read a newline. -/
def Bench.hear (bench : Bench) (message : RandomString) (line : List UInt8) (byte : UInt8) :
    Bench :=
  if byte = newline then
    { bench with
      script := .writing
      heard := bench.heard + 1
      exchanges := bench.exchanges ++ [⟨message, line ++ [byte]⟩] }
  else { bench with script := .reading message (line ++ [byte]), heard := bench.heard + 1 }

inductive Step (ready : Uart → Bool) : Bench → Bench → Prop where
  | main {bench : Bench} :
      Step ready bench { bench with board := mainStep ready bench.board }
  | interrupt {bench : Bench} {reception : Reception} {rest : List UInt8} :
      bench.board.rxEnabled .uart1 = true → bench.wire = reception.read ++ rest →
      Step ready bench
        { bench with
          board := step ready bench.board (.interrupt ⟨some .uart1, reception⟩)
          wire := rest }
  | otherInterrupt {bench : Bench} {raised : Interrupt} :
      raised.dev ≠ some .uart1 →
      Step ready bench { bench with board := step ready bench.board (.interrupt raised) }
  | openPort {bench : Bench} :
      bench.script = .closed →
      Step ready bench
        { bench with script := .writing, lost := (bench.board.output .uart1).length }
  | write {bench : Bench} (message : RandomString) :
      bench.script = .writing →
      Step ready bench
        { bench with
          script := .reading message []
          wire := bench.wire ++ written message }
  | read {bench : Bench} {message : RandomString} {line : List UInt8} {byte : UInt8} :
      bench.script = .reading message line →
      (bench.board.output .uart1)[bench.lost + bench.heard]? = some byte →
      Step ready bench (bench.hear message line byte)
  -- A read that waited for a second ends the line; what comes later is left to the next.
  | timeout {bench : Bench} {message : RandomString} {line : List UInt8} :
      bench.script = .reading message line →
      Step ready bench
        { bench with
          script := .writing
          exchanges := bench.exchanges ++ [⟨message, line⟩] }

abbrev Reaches (ready : Uart → Bool) : Bench → Bench → Prop :=
  Relation.ReflTransGen (Step ready)

end Uc1Integration.Echo.CheckEcho
