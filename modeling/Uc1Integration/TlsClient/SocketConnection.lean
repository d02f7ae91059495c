import Uc1Integration.TlsClient.Calls

/-!
# The connection to the server

`test_socket_connection` of the TLS client's `main.c`. A label is a function of
the variables that are used behind it. Of the messages it logs, only those of
failures are kept.
-/

set_option autoImplicit false

namespace Uc1Integration.TlsClient

open Interaction Transport Tee

def wolfsslSuccess : Int := 1

def wolfsslShutdownNotDone : Int := 2

/-- "Hello from Zephyr!\n" -/
def helloMsg : List UInt8 :=
  [0x48, 0x65, 0x6C, 0x6C, 0x6F, 0x20, 0x66, 0x72, 0x6F, 0x6D, 0x20, 0x5A, 0x65, 0x70, 0x68, 0x79,
    0x72, 0x21, 0x0A]

def readCode : ReadAnswer UInt8 SslFailure → Int
  | .received data => data.length
  | .failed (.zero _) => 0
  | .failed (.negative _) => -1

def wolfSslRead (limit : Nat) : Ssl Int := do
  return readCode (← Endpoint.read limit)

def endLabel (ret : Int) (records : Records) : Client (Int × Records) :=
  return (ret, records)

def socketCleanup (sock ret : Int) (records : Records) : Client (Int × Records) := do
  call (.close sock)
  endLabel ret records

def ctxCleanup (ctx : Nat) (sock ret : Int) (records : Records) : Client (Int × Records) := do
  call (.ctxFree ctx)
  call .wolfsslCleanup
  socketCleanup sock ret records

def freeRecord (records : Records) (name : CallName) : Client Records := do
  let record ← freeFunc (records name)
  return Function.update records name record

def cleanup (ssl ctx : Nat) (sock ret : Int) (records : Records) : Client (Int × Records) := do
  call (.sslFree ssl)
  let records ← freeRecord records .init
  let records ← freeRecord records .commitment
  let records ← freeRecord records .proofs
  ctxCleanup ctx sock ret records

/-- One challenge: its record is initialised and received, and failures are logged. -/
def receiveInto (records : Records) (name : CallName) (func : UInt32)
    (pattern : Fin dataPortions → UInt8) : Client Records := do
  let (code, record) ← initFunc (records name) func pattern
  reportIf (code ≠ 0) (.allocation name)
  let (code, record) ← overSsl (.receiving name) (recChallenge record)
  reportIf (code ≠ 0) (.reception name)
  return Function.update records name record

def receiveAll (records : Records) : Client Records := do
  let records ← receiveInto records .init pufTaInitFuncId patternInitCommit
  let records ← receiveInto records .commitment pufTaGetCommitmentFuncId patternInitCommit
  receiveInto records .proofs pufTaGetZkProofsFuncId patternProofs

def shutdown (ssl : Nat) : Client Unit :=
  .iterate (fun _ : Unit => .shutdown ssl)
    (fun _ code => if code = wolfsslShutdownNotDone then .inl () else .inr ()) ()

def exchangeGreeting (ssl ctx : Nat) (sock : Int) (records : Records) :
    Client (Int × Records) := do
  let ret ← overSsl .greeting (wolfSslWrite helloMsg)
  if ret ≠ helloMsg.length then
    report .write
    return ← cleanup ssl ctx sock ret records
  let ret ← overSsl .greeting (wolfSslRead 255)
  if ret = -1 then
    report .read
    return ← cleanup ssl ctx sock ret records
  shutdown ssl
  cleanup ssl ctx sock 0 records

def sendResponses (ssl ctx : Nat) (sock ret : Int) (records : Records) :
    Client (Int × Records) := do
  if (← overSsl (.responding .init) (sendResponse (records .init))) ≠ 0 then
    report (.response .init)
    return ← cleanup ssl ctx sock ret records
  if (← overSsl (.responding .commitment) (sendResponse (records .commitment))) ≠ 0 then
    report (.response .commitment)
    return ← cleanup ssl ctx sock ret records
  if (← overSsl (.responding .proofs) (sendResponse (records .proofs))) ≠ 0 then
    report (.response .proofs)
    return ← cleanup ssl ctx sock ret records
  exchangeGreeting ssl ctx sock records

/-- What follows the handshake. The result of `challenge_puf` is not looked at. -/
def converse (ssl ctx : Nat) (sock ret : Int) (records : Records) : Client (Int × Records) := do
  let records ← receiveAll records
  let (_, records) ← call (.challengePuf records)
  sendResponses ssl ctx sock ret records

def testSocketConnection (records : Records) : Client (Int × Records) := do
  let sock ← call .socket
  reportIf (sock < 0) .socket
  reportIf ((← call .inetPton) ≠ 1) .address
  let ret ← call (.connect sock)
  if ret = -1 then
    report .connect
    return ← endLabel ret records
  let ret ← call .wolfsslInit
  if ret ≠ wolfsslSuccess then
    report .library
    return ← socketCleanup sock ret records
  match ← call .ctxNew with
  | none =>
      report .context
      socketCleanup sock (-1) records
  | some ctx =>
      if (← call (.setCipherList ctx)) ≠ wolfsslSuccess then
        report .cipherList
        return ← ctxCleanup ctx sock (-1) records
      let ret ← call (.useCertificateBuffer ctx)
      if ret ≠ wolfsslSuccess then
        report .certificate
        return ← ctxCleanup ctx sock ret records
      let ret ← call (.usePrivateKeyBuffer ctx)
      if ret ≠ wolfsslSuccess then
        report .key
        return ← ctxCleanup ctx sock ret records
      let ret ← call (.loadVerifyBuffer ctx)
      if ret ≠ wolfsslSuccess then
        report .authority
        return ← ctxCleanup ctx sock ret records
      call (.setVerify ctx)
      match ← call (.sslNew ctx) with
      | none =>
          report .object
          ctxCleanup ctx sock (-1) records
      | some ssl =>
          let ret ← call (.setFd ssl sock)
          if ret ≠ wolfsslSuccess then
            report .descriptor
            return ← cleanup ssl ctx sock ret records
          let ret ← call (.sslConnect ssl)
          if ret ≠ wolfsslSuccess then
            report .handshake
            return ← cleanup ssl ctx sock ret records
          converse ssl ctx sock ret records

end Uc1Integration.TlsClient
