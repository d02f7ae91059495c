import Mathlib.Data.Nat.Digits.Defs
import Uc1Integration.Scripts.PufOutputProperties
import Uc1Integration.Tee.DriverProperties

/-!
# The log of the interrupt handler

The lines `ipc_irq_client_handler` logs, without their prefixes, as a file for the
converter. The rows of a hexdump are printed by the logging subsystem.
-/

set_option autoImplicit false

namespace Uc1Integration.Scripts

open Text Tee

/-- `%08X`, and `%08llX`, which may need more than its eight digits. -/
def paddedHex (value : Nat) : Str :=
  ((Nat.digits 16 value).reverse.map (hexDigit true)).leftpad 8 '0'

def teeParamAttrTypeValueInput : UInt64 := 1

def typeStr (type : UInt32) : Str :=
  if type = teeParamAttrTypeNone.toUInt32 then "NONE".toList
  else if type = teeParamAttrTypeValueInput.toUInt32 then "VALUE_INPUT".toList
  else if type = teeParamAttrTypeValueOutput.toUInt32 then "VALUE_OUTPUT".toList
  else if type = teeParamAttrTypeValueInout.toUInt32 then "VALUE_INOUT".toList
  else if type = teeParamAttrTypeMemrefInput.toUInt32 then "MEMREF_INPUT".toList
  else if type = teeParamAttrTypeMemrefOutput.toUInt32 then "MEMREF_OUTPUT".toList
  else if type = teeParamAttrTypeMemrefInout.toUInt32 then "MEMREF_INOUT".toList
  else "UNKNOWN".toList

def dumpTitle : Str := "MEMREF Output data:".toList

def handledLine : Str := "IRQ Handled.".toList

/-- The lines of one entry, given the rows of a hexdump. -/
def entryLines (hexdump : List UInt8 → List Row) : LogEntry → List Str
  | .returned ret retOrigin =>
      ["TEE returned: ret = 0x".toList ++ paddedHex ret.toNat ++ ", origin = 0x".toList ++
        paddedHex retOrigin.toNat]
  | .paramType i type =>
      ["Param[".toList ++ Nat.toDigits 10 i.val ++ "] type: ".toList ++ typeStr type]
  | .hexdump _ _ data => dumpTitle :: (hexdump data).map Row.line
  | .value a b =>
      ["Value: a = 0x".toList ++ paddedHex a.toNat ++ ", b = 0x".toList ++ paddedHex b.toNat]
  | .handled => [handledLine]

/-- What the handler logs at one interrupt. -/
def handlerEntries (shared : Shared) : List LogEntry :=
  (ipcIrqClientHandler { shared with log := [] }).log

/-- The lines logged at several interrupts, each with the memory it finds. -/
def handlerLines (hexdump : List UInt8 → List Row) (interrupts : List Shared) : List Str :=
  interrupts.flatMap fun shared => (handlerEntries shared).flatMap (entryLines hexdump)

def handlerLog (hexdump : List UInt8 → List Row) (interrupts : List Shared) : Str :=
  (handlerLines hexdump interrupts).flatMap (· ++ ['\n'])

def lowerHex (byte : UInt8) : HexByte :=
  ⟨byte, false, false⟩

def bufferText (data : List UInt8) : Str :=
  hexString (data.map lowerHex)

/-- The rows of a hexdump hold its bytes in their order. -/
def Prints (hexdump : List UInt8 → List Row) : Prop :=
  ∀ data, (hexdump data).flatMap Row.bytes = data.map lowerHex

/-- The output buffers of non-zero size among the parameters of a reply. -/
def outputBuffers (reply : SharedMessage) : List (List UInt8) :=
  if reply.callType = teeCallTypeInvokeFunc then
    ((List.finRange vmsMaxParams).filter fun i =>
      (reply.params i).IsOutput ∧ (reply.params i).b ≠ 0).map fun i =>
        (reply.params i).slot reply.payload
  else []

def hexDigits : Str := "0123456789abcdefABCDEF".toList

/-- The converter reads from the log the output buffers of the replies, and in
particular nothing but bytes in two digits. -/
structure ReadsBuffers (hexdump : List UInt8 → List Row) (interrupts : List Shared) : Prop where
  blocks : parseHexBlocks (handlerLog hexdump interrupts) =
    (interrupts.flatMap fun shared => outputBuffers shared.msg).map bufferText
  digits : ∀ block ∈ parseHexBlocks (handlerLog hexdump interrupts),
    Even block.length ∧ ∀ c ∈ block, c ∈ hexDigits

end Uc1Integration.Scripts
