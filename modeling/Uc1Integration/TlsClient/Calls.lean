import Uc1Integration.Tee.Boot
import Uc1Integration.Transport.Reception

/-!
# Calls of the TLS client

What the TLS client calls outside its own code, and the allocation of the call
records in `challenge.c`.
-/

set_option autoImplicit false

namespace Uc1Integration.TlsClient

open Interaction Transport Tee

/-- The records of the three calls: `initCh`, `commCh` and `proofsCh`. -/
abbrev Records := CallName → FuncCall

/-- The part of a connection a transfer belongs to. -/
inductive Part where
  | receiving (call : CallName)
  | responding (call : CallName)
  | greeting
  deriving DecidableEq, Repr

inductive Failure where
  | socket
  | address
  | connect
  | library
  | context
  | cipherList
  | certificate
  | key
  | authority
  | object
  | descriptor
  | handshake
  | allocation (call : CallName)
  | reception (call : CallName)
  | response (call : CallName)
  | write
  | read
  deriving DecidableEq, Repr

/-- A call with the arguments that matter; a pointer is an address, and a
transfer also names its part. -/
inductive ClientCall where
  | socket
  | inetPton
  | connect (sock : Int)
  | wolfsslInit
  | ctxNew
  | setCipherList (ctx : Nat)
  | useCertificateBuffer (ctx : Nat)
  | usePrivateKeyBuffer (ctx : Nat)
  | loadVerifyBuffer (ctx : Nat)
  | setVerify (ctx : Nat)
  | sslNew (ctx : Nat)
  | setFd (ssl : Nat) (sock : Int)
  | sslConnect (ssl : Nat)
  | stream (part : Part) (call : StreamCall UInt8)
  | malloc (size : UInt8)
  | free (address : Option Nat)
  | challengePuf (records : Records)
  | shutdown (ssl : Nat)
  | sslFree (ssl : Nat)
  | ctxFree (ctx : Nat)
  | wolfsslCleanup
  | close (sock : Int)
  | report (failure : Failure)

/-- A return code, the address of an object or nothing for `NULL`, or what the
call leaves in the records. -/
@[reducible] def ClientAnswer : ClientCall → Type
  | .socket => Int
  | .inetPton => Int
  | .connect _ => Int
  | .wolfsslInit => Int
  | .ctxNew => Option Nat
  | .setCipherList _ => Int
  | .useCertificateBuffer _ => Int
  | .usePrivateKeyBuffer _ => Int
  | .loadVerifyBuffer _ => Int
  | .setVerify _ => Unit
  | .sslNew _ => Option Nat
  | .setFd _ _ => Int
  | .sslConnect _ => Int
  | .stream _ call => StreamAnswer UInt8 SslFailure call
  | .malloc _ => Option Nat
  | .free _ => Unit
  | .challengePuf _ => Int × Records
  | .shutdown _ => Int
  | .sslFree _ => Unit
  | .ctxFree _ => Unit
  | .wolfsslCleanup => Unit
  | .close _ => Unit
  | .report _ => Unit

abbrev Client := Program ClientCall ClientAnswer

abbrev ClientEvent := Event ClientCall ClientAnswer

def call (operation : ClientCall) : Client (ClientAnswer operation) :=
  Program.perform operation

def report (failure : Failure) : Client Unit :=
  call (.report failure)

/-- A failure that is logged and otherwise ignored. -/
def reportIf (condition : Prop) [Decidable condition] (failure : Failure) : Client Unit :=
  if condition then report failure else return ()

/-- A program of the connection, as a part of the client. -/
def overSsl {α : Type} (part : Part) (program : Ssl α) : Client α :=
  program.lift (.stream part) fun _ answer => answer

/-- An outcome `challenge_puf` can have, whatever the TEE does. -/
def TeeOutcome (zephyr : Zephyr) (records : Records) (outcome : Int × Records) : Prop :=
  ∃ (own : Own) (shared : Shared) (client : Interaction.Client Own Shared SharedMessage),
    Callable zephyr own ∧ own.record = records ∧
      Interaction.Client.Reaches mailbox .any
        (Interaction.Client.start own shared (challengePuf zephyr)) client ∧
      client.result = some outcome.1 ∧ client.own.record = outcome.2

/-- An answer the call can have. -/
def Valid (zephyr : Zephyr) : (call : ClientCall) → ClientAnswer call → Prop
  | .stream _ call, answer => ValidTransfer call answer
  | .challengePuf records, outcome => TeeOutcome zephyr records outcome
  | _, _ => True

def ValidRun (zephyr : Zephyr) (events : List ClientEvent) : Prop :=
  ∀ event ∈ events, Valid zephyr event.1 event.2

def setPortion (record : FuncCall) (i : Fin dataPortions) (portion : DataPortion) :
    FuncCall :=
  { record with dataP := Function.update record.dataP i portion }

def nullPortion (len : UInt8) : DataPortion :=
  ⟨len, none, nofun⟩

/-- A portion with a zeroed block of its own. -/
def zeroedPortion (len : UInt8) (addr : Nat) : DataPortion where
  len := len
  data := some ⟨addr, List.replicate len.toNat 0⟩
  fits := by
    intro block member
    cases Option.mem_some_iff.mp member
    rw [List.length_replicate]

/-- `free(data_p[i].data)`, which leaves `NULL` and the length 0. -/
def freePortion (record : FuncCall) (i : Fin dataPortions) : Client FuncCall := do
  call (.free ((record.dataP i).data.map Block.addr))
  return setPortion record i (nullPortion 0)

def freePortions (record : FuncCall) : List (Fin dataPortions) → Client FuncCall
  | [] => return record
  | i :: rest => do
      let record ← freePortion record i
      freePortions record rest

def initPortions (pattern : Fin dataPortions → UInt8) (record : FuncCall) :
    List (Fin dataPortions) → Client (Int × FuncCall)
  | [] => return (0, record)
  | i :: rest =>
      if 0 < pattern i then do
        match ← call (.malloc (pattern i)) with
        | none =>
            let record ← freePortions (setPortion record i (nullPortion (pattern i)))
              ((List.finRange dataPortions).take i)
            return (1, record)
        | some addr =>
            initPortions pattern (setPortion record i (zeroedPortion (pattern i) addr)) rest
      else
        initPortions pattern (setPortion record i (nullPortion (pattern i))) rest

def initFunc (record : FuncCall) (func : UInt32) (pattern : Fin dataPortions → UInt8) :
    Client (Int × FuncCall) :=
  initPortions pattern { record with func } (List.finRange dataPortions)

def freeFunc (record : FuncCall) : Client FuncCall :=
  freePortions record (List.finRange dataPortions)

end Uc1Integration.TlsClient
