import Mathlib.Data.Fin.VecNotation
import Mathlib.Data.List.FinRange
import Mathlib.Logic.Function.Basic
import Uc1Integration.Transport.Transmission

/-!
# Challenges

The call records of `challenge.c` and their transfer: the function id first,
then each portion that has data, every item in a frame of its own and answered
by an acknowledgement. The waits of `waitASec` only delay and are left out.
-/

set_option autoImplicit false

namespace Uc1Integration.Transport

open Interaction

abbrev idLen : UInt8 := 4

abbrev dataPortions : Nat := 4

def pufTaInitFuncId : UInt32 := 0x00112233

def pufTaGetCommitmentFuncId : UInt32 := 0x11223344

def pufTaGetZkProofsFuncId : UInt32 := 0x22334455

def patternInitCommit : Fin dataPortions → UInt8 := ![32, 32, 32, 32]

def patternProofs : Fin dataPortions → UInt8 := ![32, 32, 64, 64]

/-- A block of the heap, with its address and contents. -/
structure Block where
  addr : Nat
  bytes : List UInt8
  deriving DecidableEq, Repr

/-- `data_portion_t`; a portion never claims more bytes than its block has. -/
structure DataPortion where
  len : UInt8
  data : Option Block
  fits : ∀ block ∈ data, len.toNat ≤ block.bytes.length

structure FuncCall where
  func : UInt32
  dataP : Fin dataPortions → DataPortion

/-- `data_p[i].data && data_p[i].len > 0`, with the block it holds for. -/
def DataPortion.live (portion : DataPortion) : Option Block :=
  if 0 < portion.len.toNat then portion.data else none

/-- The bytes a portion stands for. -/
def DataPortion.content (portion : DataPortion) : List UInt8 :=
  match portion.data with
  | some block => block.bytes.take portion.len.toNat
  | none => []

/-- The `k`-th byte a portion points to. -/
def DataPortion.byteAt (portion : DataPortion) (k : Nat) : UInt8 :=
  match portion.data with
  | some block => block.bytes.getD k 0
  | none => 0

/-- `memcpy(data, source, len)` into the portion's own block. -/
def DataPortion.copyFrom (portion : DataPortion) (source : List UInt8) : DataPortion where
  len := portion.len
  data := portion.data.map fun block =>
    { block with bytes := store block.bytes 0 (source.take portion.len.toNat) }
  fits := by
    intro block member
    rw [Option.mem_map] at member
    obtain ⟨old, held, rfl⟩ := member
    have fits := portion.fits old held
    simp only [store, List.take_zero, List.nil_append, Nat.zero_add, List.length_append,
      List.length_drop]
    omega

def FuncCall.setData (call : FuncCall) (i : Fin dataPortions) (source : List UInt8) : FuncCall :=
  { call with dataP := Function.update call.dataP i ((call.dataP i).copyFrom source) }

/-- The bytes of a `uint32_t` in memory, least significant first. -/
def idBytes (id : UInt32) : List UInt8 :=
  [id.toUInt8, (id >>> 8).toUInt8, (id >>> 16).toUInt8, (id >>> 24).toUInt8]

def idOfBytes : List UInt8 → UInt32
  | [b0, b1, b2, b3] =>
      b0.toUInt32 ||| b1.toUInt32 <<< 8 ||| b2.toUInt32 <<< 16 ||| b3.toUInt32 <<< 24
  | _ => 0

def sendFramedStream (data : List UInt8) (len : UInt8) : Ssl Int := do
  if (← wolfSslWrite startSeq) ≠ startSeqLen then return 1
  if (← wolfSslWrite (data.take len.toNat)) ≠ len.toNat then return 1
  if (← wolfSslWrite stopSeq) ≠ stopSeqLen.toNat then return 1
  return 0

def sendPortions (call : FuncCall) : List (Fin dataPortions) → Ssl Int
  | [] => return 0
  | i :: rest =>
      match (call.dataP i).live with
      | none => sendPortions call rest
      | some block => do
          if (← sendFramedStream block.bytes (call.dataP i).len) ≠ 0 then return 1
          if (← waitForAck) ≠ 0 then return 1
          sendPortions call rest

def sendChallenge (call : FuncCall) : Ssl Int := do
  if (← sendFramedStream (idBytes call.func) idLen) ≠ 0 then return 1
  if (← waitForAck) ≠ 0 then return 1
  sendPortions call (List.finRange dataPortions)

def sendResponse (call : FuncCall) : Ssl Int :=
  sendChallenge call

def recPortions (buffer : List UInt8) (call : FuncCall) :
    List (Fin dataPortions) → Ssl (Int × FuncCall)
  | [] => return (0, call)
  | i :: rest =>
      match (call.dataP i).live with
      | none => recPortions buffer call rest
      | some _ => do
          let (err, buffer) ← recStream buffer (call.dataP i).len
          if err ≠ 0 then return (1, call)
          if (← sendAck) ≠ 0 then return (1, call)
          recPortions buffer (call.setData i buffer) rest

def recChallenge (call : FuncCall) : Ssl (Int × FuncCall) := do
  let (err, buffer) ← recStream (List.replicate bufSize 0) idLen
  if err ≠ 0 then return (1, call)
  if (← sendAck) ≠ 0 then return (1, call)
  recPortions buffer { call with func := idOfBytes (buffer.take 4) } (List.finRange dataPortions)

def recResponse (call : FuncCall) : Ssl (Int × FuncCall) :=
  recChallenge call

end Uc1Integration.Transport
