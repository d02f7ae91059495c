import Uc1Integration.Interaction.Conversation

/-!
# Transmission

Framing and acknowledgement over a wolfSSL connection: the functions of
`transmission.c`. Return codes are the C ones, 0 for success and 1 for an error.
-/

set_option autoImplicit false

namespace Uc1Integration.Transport

open Interaction

/-- What `wolfSSL_get_error` reports. -/
inductive SslError where
  | wantRead
  | wantWrite
  | other (code : Int)
  deriving DecidableEq, Repr

/-- A wolfSSL call that transferred nothing returned 0 or a negative value. -/
inductive SslFailure where
  | zero (error : SslError)
  | negative (error : SslError)
  deriving DecidableEq, Repr

def SslFailure.error : SslFailure → SslError
  | .zero error => error
  | .negative error => error

abbrev Ssl := Endpoint UInt8 SslFailure

/-- `wolfSSL_write`, with the value it returns. -/
def wolfSslWrite (data : List UInt8) : Ssl Int := do
  match ← Endpoint.write data with
  | .accepted count => return count
  | .failed (.zero _) => return 0
  | .failed (.negative _) => return -1

def startSeq : List UInt8 := [0x55, 0x55, 0x55, 0x55]

def stopSeq : List UInt8 := [0xFF, 0xFF, 0xFF, 0xFF]

/-- "ACK", without its terminating NUL. -/
def ackStr : List UInt8 := [0x41, 0x43, 0x4B]

def startSeqLen : Nat := 4

def stopSeqLen : UInt8 := 4

def ackLen : Nat := 3

def bufSize : Nat := 256

/-- A buffer after `data` has been written into it at `offset`. -/
def store (buf : List UInt8) (offset : Nat) (data : List UInt8) : List UInt8 :=
  buf.take offset ++ data ++ buf.drop (offset + data.length)

/-- `strncmp(left, right, len) == 0`. -/
def strncmpEqual : List UInt8 → List UInt8 → Nat → Bool
  | _, _, 0 => true
  | one :: left, other :: right, len + 1 =>
      one == other && (one == 0 || strncmpEqual left right len)
  | [], [], _ => true
  | _, _, _ => false

structure AckState where
  buf : List UInt8
  totalRead : Nat

def waitForAckBody (state : AckState) : ReadAnswer UInt8 SslFailure → AckState ⊕ Int
  | .received data =>
      let buf := store state.buf state.totalRead data
      let totalRead := state.totalRead + data.length
      if totalRead < ackLen then .inl ⟨buf, totalRead⟩
      else if strncmpEqual buf ackStr ackLen then .inr 0 else .inr 1
  | .failed failure =>
      -- Zero is not set apart here: only the error code decides.
      if failure.error ≠ .wantRead then .inr 1 else .inl state

def waitForAck : Ssl Int :=
  .iterate (fun state => .read (ackLen - state.totalRead)) waitForAckBody
    ⟨List.replicate ackLen 0, 0⟩

def sendAckBody (totalSent : Nat) : WriteAnswer SslFailure → Nat ⊕ Int
  | .accepted count =>
      if count = 0 then .inr 1
      else if totalSent + count < ackLen then .inl (totalSent + count) else .inr 0
  | .failed (.zero _) => .inr 1
  | .failed (.negative error) => if error ≠ .wantWrite then .inr 1 else .inl totalSent

def sendAck : Ssl Int :=
  .iterate (fun totalSent => .write ((ackStr.drop totalSent).take (ackLen - totalSent)))
    sendAckBody 0

def matchSeq (buf seq : List UInt8) (len : Nat) : Bool :=
  buf.take len == seq.take len

structure ReadState where
  buf : List UInt8
  totalRead : Nat

/-- `readExact` returns its code with the buffer, which keeps what was read
before an error. -/
def readExactBody (len : UInt8) (state : ReadState) :
    ReadAnswer UInt8 SslFailure → ReadState ⊕ (Int × List UInt8)
  | .received data =>
      let buf := store state.buf state.totalRead data
      let totalRead := state.totalRead + data.length
      if totalRead < len.toNat then .inl ⟨buf, totalRead⟩ else .inr (0, buf)
  | .failed (.zero _) => .inr (1, state.buf)
  | .failed (.negative error) => if error ≠ .wantRead then .inr (1, state.buf) else .inl state

def readExact (buf : List UInt8) (len : UInt8) : Ssl (Int × List UInt8) :=
  if 0 < len.toNat then
    .iterate (fun state => .read (len.toNat - state.totalRead)) (readExactBody len) ⟨buf, 0⟩
  else
    .done (0, buf)

structure HuntState where
  seqBuf : List UInt8
  idx : Nat

/-- One round of the search for the start sequence, which leaves with the
window once it matches and with nothing on an error. -/
def huntBody (state : HuntState) :
    ReadAnswer UInt8 SslFailure → HuntState ⊕ Option (List UInt8)
  | .received data =>
      let seqBuf := store state.seqBuf state.idx data
      if state.idx < startSeqLen - 1 then .inl ⟨seqBuf, state.idx + 1⟩
      else if matchSeq seqBuf startSeq startSeqLen then .inr (some seqBuf)
      else .inl ⟨store seqBuf 0 ((seqBuf.drop 1).take (startSeqLen - 1)), startSeqLen - 1⟩
  | .failed (.zero _) => .inr none
  | .failed (.negative error) => if error ≠ .wantRead then .inr none else .inl state

def huntStart : Ssl (Option (List UInt8)) :=
  .iterate (fun _ => .read 1) huntBody ⟨List.replicate startSeqLen 0, 0⟩

def recStream (outBuf : List UInt8) (payloadLen : UInt8) : Ssl (Int × List UInt8) := do
  match ← huntStart with
  | none => return (1, outBuf)
  | some seqBuf =>
      let (err, outBuf) ← readExact outBuf payloadLen
      if err < 0 then return (1, outBuf)
      let (err, seqBuf) ← readExact seqBuf stopSeqLen
      if err < 0 then return (1, outBuf)
      if !matchSeq seqBuf stopSeq stopSeqLen.toNat then return (1, outBuf)
      return (0, outBuf)

end Uc1Integration.Transport
