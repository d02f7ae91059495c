import Uc1Integration.TlsClient.Dialogue
import Uc1Integration.TlsClient.Server
import Uc1Integration.Transport.Schedule

/-!
# The client, its server and the TEE

The client with a server that sends three challenges and receives three responses
by the other half of `challenge.c`. The TEE's function reaches the server whatever
the interleaving.
-/

set_option autoImplicit false

namespace Uc1Integration.TlsClient

open Interaction Conversation Transport Tee Program

section OneWay

variable {Name : Type} [DecidableEq Name]

/-- A schedule in one direction, each record into the one of the same name. -/
def oneWay (sender : Side) (kind : Kind) (names : List Name) : List (Transfer Name) :=
  names.map fun name => ⟨sender, kind, kind, name, name⟩

theorem settle_sender (transfer : Transfer Name) (memories : Side → Name → FuncCall) :
    transfer.settle memories transfer.sender = memories transfer.sender :=
  Function.update_of_ne (Side.ne_other _) _ _

theorem talk_oneWay (sender : Side) (kind : Kind) (names : List Name)
    (memories : Side → Name → FuncCall) :
    talk (oneWay sender kind names) memories =
      names.flatMap fun name => exchanges sender (memories sender name).items := by
  induction names generalizing memories with
  | nil => rfl
  | cons name rest ih =>
      let transfer : Transfer Name := ⟨sender, kind, kind, name, name⟩
      have same : transfer.settle memories sender = memories sender :=
        settle_sender transfer memories
      rw [List.flatMap_cons, ← same, ← ih, same]
      rfl

theorem carried_oneWay (sender : Side) (kind : Kind) (names : List Name)
    (memories : Side → Name → FuncCall) :
    carried (oneWay sender kind names) memories = names.map (memories sender) := by
  induction names generalizing memories with
  | nil => rfl
  | cons name rest ih =>
      let transfer : Transfer Name := ⟨sender, kind, kind, name, name⟩
      have same : transfer.settle memories sender = memories sender :=
        settle_sender transfer memories
      rw [List.map_cons, ← same, ← ih, same]
      rfl

omit [DecidableEq Name] in
theorem shaped_oneWay {sender : Side} (kind : Kind) (names : List Name)
    {memories : Side → Name → FuncCall}
    (shape : ∀ name, (memories sender name).SameShape (memories sender.other name)) :
    Shaped (oneWay sender kind names) memories := by
  intro transfer member
  obtain ⟨name, _, rfl⟩ := List.mem_map.mp member
  exact shape name

end OneWay

/-- A server with a record for each call. What it does when it is greeted is `closing`. -/
def server (challenge : Records) (closing : Ssl Unit) : Ssl (List (Int × FuncCall)) := do
  let _ ← runSchedule .right (oneWay .right .challenge callNames) challenge
  let log ← runSchedule .right (oneWay .left .response callNames) challenge
  closing
  return log

/-- What a record becomes when its portions are those of the pure call. -/
def answered (function : TeeFunction) (session : UInt32) (name : CallName) (record : FuncCall) :
    FuncCall :=
  { record with
    dataP := fun i => (record.dataP i).copyFrom
      ((pureCall function session name record.contents).portion i) }

theorem sameShape_answered (function : TeeFunction) (session : UInt32) (name : CallName)
    (record : FuncCall) : (answered function session name record).SameShape record :=
  fun i => liveLen_copyFrom (record.dataP i) _

theorem length_pureCall (function : TeeFunction) (session : UInt32) (name : CallName)
    (contents : Contents) (i : Fin dataPortions) :
    ((pureCall function session name contents).portion i).length =
      (contents.portion i).length := by
  simp only [pureCall]
  split
  · rw [List.length_map, List.length_range]
  · rfl

theorem contents_answered (function : TeeFunction) (session : UInt32) {name : CallName}
    {record : FuncCall} (shaped : HasPattern name record) :
    (answered function session name record).contents =
      pureCall function session name record.contents := by
  have portions : ∀ i, ((answered function session name record).dataP i).content =
      (pureCall function session name record.contents).portion i := by
    intro i
    obtain ⟨block, alive⟩ := liveLen_of_hasPattern shaped i
    have length := length_pureCall function session name record.contents i
    have here : (record.contents.portion i).length = (record.dataP i).len.toNat :=
      DataPortion.length_content_of_live alive
    rw [here] at length
    exact (DataPortion.content_copyFrom alive length.ge).trans
      (List.take_of_length_le length.le)
  rw [FuncCall.contents, funext portions]
  rfl

/-- What each endpoint returns. -/
@[reducible] def Returned : Side → Type
  | .left => Int × Records
  | .right => List (Int × FuncCall)

/-- The client with its records at boot is on the left. -/
def endpoints (records challenge : Records) (closing : Ssl Unit) :
    (side : Side) → ClientParty (Returned side)
  | .left => placed (testSocketConnection records)
  | .right => (server challenge closing).party

/-- A response that holds what the pure call makes of its challenge. -/
def IsResponse (function : TeeFunction) (session : UInt32) (challenge : Records)
    (name : CallName) (response : Int × FuncCall) : Prop :=
  response.1 = 0 ∧
    response.2.contents = pureCall function session name (challenge name).contents

/-- What each endpoint is to return, with the bytes it leaves unread. -/
def Delivers (function : TeeFunction) (session : UInt32) (challenge : Records)
    (reply : List UInt8) : (side : Side) → Returned side → List UInt8 → Prop
  | .left => Answers reply
  | .right => fun log _ => List.Forall₂ (IsResponse function session challenge) callNames log

section System

variable {zephyr : Zephyr} {size : EnumSize} {function : TeeFunction} {session : UInt32}
  {challenge : Records} {reply : List UInt8} {closing : Ssl Unit}

/-- The server's records, and what the client's are to be when it responds. -/
def settled (function : TeeFunction) (session : UInt32) (challenge : Records) : Side → Records
  | .left => fun name => answered function session name (challenge name)
  | .right => challenge

theorem converses_server (shaped : ∀ name, HasPattern name (challenge name))
    (closes : Converses sslMedium.readBlocked .right (fun _ => True)
      (saying .left helloMsg ++ saying .right reply) closing) :
    Converses sslMedium.readBlocked .right
      (List.Forall₂ (IsResponse function session challenge) callNames)
      (dialogue function session challenge reply) (server challenge closing) := by
  have shapedChallenges : Shaped (oneWay .right .challenge callNames) fun _ => challenge :=
    shaped_oneWay _ _ fun _ _ => rfl
  have shapedResponses :
      Shaped (oneWay .left .response callNames) (settled function session challenge) :=
    shaped_oneWay _ _ fun name => sameShape_answered function session name (challenge name)
  have challenges : talk (oneWay .right .challenge callNames) (fun _ => challenge) =
      rounds .right fun name => (challenge name).contents := by
    rw [talk_oneWay]
    simp only [rounds, FuncCall.items_contents]
  have responses : talk (oneWay .left .response callNames) (settled function session challenge) =
      rounds .left fun name => pureCall function session name (challenge name).contents := by
    rw [talk_oneWay]
    simp only [rounds, ← contents_answered function session (shaped _), FuncCall.items_contents]
    rfl
  rw [dialogue, ← challenges, ← responses]
  refine (converses_runSchedule shapedChallenges .right fun _ => rfl).bind fun _ _ => ?_
  refine (converses_runSchedule shapedResponses .right fun _ => rfl).bind fun log carries => ?_
  rw [← List.append_nil (saying .left helloMsg ++ saying .right reply)]
  refine closes.bind fun _ _ => .done rfl ?_
  rw [carried_oneWay, List.forall₂_map_left_iff] at carries
  refine carries.imp fun name response carried => ⟨carried.1, ?_⟩
  exact carried.2.trans (contents_answered function session (shaped name))

theorem talks_endpoints (dispatches : zephyr.Dispatches) (records : Records)
    (shaped : ∀ name, HasPattern name (challenge name)) (some : reply ≠ [])
    (closes : Converses sslMedium.readBlocked .right (fun _ => True)
      (saying .left helloMsg ++ saying .right reply) closing) (side : Side) :
    Talks (working zephyr size function session) side (Delivers function session challenge reply side)
      (dialogue function session challenge reply) (endpoints records challenge closing side) := by
  cases side with
  | left => exact talks_testSocketConnection dispatches records shaped some
  | right => exact Talks.of_endpoint (converses_server shaped closes)

/-- Whatever the interleaving, the chunks and the answers of working surroundings:
the endpoints never get stuck, change finitely often, and the server's records end
up with what the TEE's function makes of its challenges. The client returns -1
exactly when all of the reply is left unread. -/
theorem endpoints_deliver (dispatches : zephyr.Dispatches) (records : Records)
    (shaped : ∀ name, HasPattern name (challenge name)) (some : reply ≠ [])
    (closes : Converses sslMedium.readBlocked .right (fun _ => True)
      (saying .left helloMsg ++ saying .right reply) closing)
    {system : System UInt8 SslFailure ClientAnswer Returned}
    (reaches : System.Reaches (working zephyr size function session)
      (System.start (endpoints records challenge closing)) system) :
    (∀ side, ¬ system.Finished side →
      ∃ system', System.Changes (working zephyr size function session) system system') ∧
    Acc (fun later earlier => System.Changes (working zephyr size function session) earlier later)
      system ∧
    (∀ side value, (system.party side).view = .done value →
      ∃ unread, Delivers function session challenge reply side value unread) ∧
    ((∀ side, system.Finished side) → ∀ side value, (system.party side).view = .done value →
      Delivers function session challenge reply side value (system.flying side.other)) := by
  have talks : ∀ side, Talks (working zephyr size function session) side
      (Delivers function session challenge reply side) (dialogue function session challenge reply)
      (endpoints records challenge closing side) :=
    talks_endpoints dispatches records shaped some closes
  obtain ⟨_, along⟩ := (System.along_start talks).reaches reaches
  exact ⟨fun _ => along.progress, along.acc, fun _ _ => along.finished,
    fun finished _ _ => along.unread finished⟩

end System

/-- A server that reads the greeting and answers with one byte. -/
def exclaim : Ssl Unit := do
  let _ ← readExact (List.replicate 19 0) 19
  let _ ← wolfSslWrite [0x21]

theorem converses_exclaim :
    Converses sslMedium.readBlocked .right (fun _ => True)
      (saying .left helloMsg ++ saying .right [0x21]) exclaim := by
  have reads : Follows sslMedium .right (exactRead (List.replicate 19 0) helloMsg)
      (saying .left helloMsg) (readExact (List.replicate 19 0) 19) := follows_readExact rfl
  have writes : Follows sslMedium .right (exactly ([0x21] : List UInt8).length)
      (saying .right [0x21]) (wolfSslWrite [0x21]) := follows_wolfSslWrite (List.cons_ne_nil _ _)
  rw [← List.append_nil (saying .right [0x21])]
  exact reads.converses.bind fun _ _ => writes.converses.bind fun _ _ => .done rfl trivial

theorem endpoints_deliver_zero :
    ∃ (system : System UInt8 SslFailure ClientAnswer Returned) (result : Int × Records)
      (log : List (Int × FuncCall)),
      (system.party .left).view = .done result ∧
        Answers [0x21] result (system.flying .right) ∧
      (system.party .right).view = .done log ∧
        List.Forall₂ (IsResponse (fun _ _ inputs i _ => (inputs i).headD 7) 5 zeroRecord)
          callNames log := by
  let function : TeeFunction := fun _ _ inputs i _ => (inputs i).headD 7
  have some : ([0x21] : List UInt8) ≠ [] := List.cons_ne_nil _ _
  have talks : ∀ side, Talks (working zephyrOfImage .short function 5) side
      (Delivers function 5 zeroRecord [0x21] side) (dialogue function 5 zeroRecord [0x21])
      (endpoints bootRecords zeroRecord exclaim side) :=
    talks_endpoints zephyrOfImage_dispatches bootRecords zeroRecord_hasPattern some
      converses_exclaim
  obtain ⟨system, reaches, finished⟩ := (System.along_start talks).exists_finished
  obtain ⟨result, answered⟩ := finished .left
  obtain ⟨log, returned⟩ := finished .right
  obtain ⟨_, _, _, delivers⟩ := endpoints_deliver zephyrOfImage_dispatches bootRecords
    zeroRecord_hasPattern some converses_exclaim reaches
  exact ⟨system, result, log, answered, delivers finished .left result answered, returned,
    delivers finished .right log returned⟩

end Uc1Integration.TlsClient
