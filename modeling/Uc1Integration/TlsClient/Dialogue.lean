import Uc1Integration.Interaction.Surroundings
import Uc1Integration.Tee.RawRefinement
import Uc1Integration.TlsClient.Allocation
import Uc1Integration.TlsClient.SocketConnection

/-!
# The client in its dialogue

The client takes part in one dialogue with its server when the network, the
wolfSSL library, the heap and the TEE do their work, whatever they answer beyond
that.
-/

set_option autoImplicit false

namespace Uc1Integration.TlsClient

open Interaction Conversation Transport Tee Program

/-- A transfer goes over the connection, every other call to the surroundings. -/
def place : ClientCall → StreamCall UInt8 ⊕ ClientCall
  | .stream _ call => .inl call
  | operation => .inr operation

def answerOf :
    (operation : ClientCall) → PartyAnswer SslFailure ClientAnswer (place operation) →
      ClientAnswer operation
  | .socket, answer => answer
  | .inetPton, answer => answer
  | .connect _, answer => answer
  | .wolfsslInit, answer => answer
  | .ctxNew, answer => answer
  | .setCipherList _, answer => answer
  | .useCertificateBuffer _, answer => answer
  | .usePrivateKeyBuffer _, answer => answer
  | .loadVerifyBuffer _, answer => answer
  | .setVerify _, answer => answer
  | .sslNew _, answer => answer
  | .setFd _ _, answer => answer
  | .sslConnect _, answer => answer
  | .stream _ _, answer => answer
  | .malloc _, answer => answer
  | .free _, answer => answer
  | .challengePuf _, answer => answer
  | .shutdown _, answer => answer
  | .sslFree _, answer => answer
  | .ctxFree _, answer => answer
  | .wolfsslCleanup, answer => answer
  | .close _, answer => answer
  | .report _, answer => answer

def ClientCall.Local : ClientCall → Prop
  | .stream _ _ => False
  | _ => True

abbrev ClientParty := Party UInt8 SslFailure ClientAnswer

def placed {α : Type} (client : Client α) : ClientParty α :=
  client.lift place answerOf

/-- The TEE that computes `function` and grants the session `session`. -/
structure Grants (function : TeeFunction) (session : UInt32) (request reply : SharedMessage) :
    Prop extends Serves function request reply where
  granted : request.callType = teeCallTypeOpenSession → reply.sessionArgs.session = session

/-- The TEE VM, which reads requests from the shared page and writes replies there in time. -/
def granting (size : EnumSize) (function : TeeFunction) (session : UInt32) :
    Interaction.Client.Regime Own Raw.RawShared Memory.Bytes :=
  .timely fun _ request reply =>
    Grants function session (SharedMessage.view size request) (SharedMessage.view size reply)

/-- An outcome of `challenge_puf` with that TEE VM, on the bytes of the shared page. -/
def TimelyOutcome (zephyr : Zephyr) (size : EnumSize) (function : TeeFunction) (session : UInt32)
    (records : Records) (outcome : Int × Records) : Prop :=
  ∃ (own : Own) (raw : Raw.RawShared) (client : Raw.RawClient),
    Callable zephyr own ∧ Raw.UuidsSized own ∧ own.record = records ∧
      Interaction.Client.Reaches (Raw.mailbox size) (granting size function session)
        (Interaction.Client.start own raw (Raw.challengePuf size zephyr)) client ∧
      client.result = some outcome.1 ∧ client.own.record = outcome.2

/-- The answers of surroundings that work. -/
def Succeeds (zephyr : Zephyr) (size : EnumSize) (function : TeeFunction) (session : UInt32) :
    (operation : ClientCall) → ClientAnswer operation → Prop
  | .socket, sock => 0 ≤ sock
  | .inetPton, ret => ret = 1
  | .connect _, ret => ret = 0
  | .wolfsslInit, ret => ret = wolfsslSuccess
  | .ctxNew, ctx => ctx.isSome
  | .setCipherList _, ret => ret = wolfsslSuccess
  | .useCertificateBuffer _, ret => ret = wolfsslSuccess
  | .usePrivateKeyBuffer _, ret => ret = wolfsslSuccess
  | .loadVerifyBuffer _, ret => ret = wolfsslSuccess
  | .sslNew _, ssl => ssl.isSome
  | .setFd _ _, ret => ret = wolfsslSuccess
  | .sslConnect _, ret => ret = wolfsslSuccess
  | .malloc _, address => address.isSome
  | .challengePuf records, outcome => TimelyOutcome zephyr size function session records outcome
  | _, _ => True

def working (zephyr : Zephyr) (size : EnumSize) (function : TeeFunction) (session : UInt32) :
    Surroundings SslFailure ClientAnswer :=
  ⟨.negative .wantRead, Succeeds zephyr size function session⟩

theorem exists_grants (size : EnumSize) (function : TeeFunction) (session : UInt32)
    (request : Memory.Bytes) :
    ∃ reply, Grants function session (SharedMessage.view size request)
      (SharedMessage.view size reply) := by
  obtain ⟨reply, serves⟩ := Raw.exists_serving function request
  let served := SharedMessage.view size reply
  let granted : SharedMessage :=
    { served with sessionArgs := { served.sessionArgs with session } }
  have storable : granted.Storable size := by
    obtain ⟨callType, uuids⟩ := SharedMessage.storable_view size reply
    exact ⟨callType, uuids.uuid, uuids.clntUuid⟩
  refine ⟨granted.image size, ?_⟩
  rw [SharedMessage.view_image size storable]
  exact ⟨⟨serves.callType, serves.params, serves.opened, serves.invoked, serves.payload⟩,
    fun _ => rfl⟩

theorem exists_timelyOutcome (zephyr : Zephyr) (size : EnumSize) (function : TeeFunction)
    (session : UInt32) (records : Records) :
    ∃ outcome, TimelyOutcome zephyr size function session records outcome := by
  let own : Own := { bootOwn with record := records }
  obtain ⟨client, reaches, returned⟩ := Interaction.Client.exists_returned
    (fun _ => exists_grants size function session)
    (.refl : Interaction.Client.Reaches (Raw.mailbox size) (granting size function session)
      (Interaction.Client.start own (Raw.bootRaw fun _ => 0) (Raw.challengePuf size zephyr)) _)
  obtain ⟨code, result⟩ := Option.isSome_iff_exists.mp returned
  exact ⟨(code, client.own.record), own, Raw.bootRaw fun _ => 0, client, .boot rfl, ⟨rfl, rfl⟩, rfl,
    reaches, result, rfl⟩

/-- The records become the results of the three calls of the function. -/
theorem TimelyOutcome.calledPurely {zephyr : Zephyr} (dispatches : zephyr.Dispatches)
    {size : EnumSize} {function : TeeFunction} {session : UInt32} {records : Records}
    {outcome : Int × Records} (shaped : ∀ name, HasPattern name (records name))
    (timely : TimelyOutcome zephyr size function session records outcome) :
    CalledPurely function session records outcome.2 := by
  obtain ⟨own, raw, client, callable, sized, rfl, reaches, returned, same⟩ := timely
  obtain ⟨rest, onRecords⟩ := Interaction.Client.reaches_viewed Raw.mailbox_mirrors
    (.timely fun _ _ _ grants => grants) (Raw.same_challengePuf zephyr) sized reaches
  obtain ⟨_, reply, grants, _, calls⟩ := calledPurely_of_returned dispatches callable shaped
    (fun _ _ _ grants => grants.toServes) onRecords returned
  rw [← same, ← grants.granted rfl]
  exact calls

/-- A record has the portions of its call when it holds as many bytes in each. -/
theorem hasPattern_of_contents {name : CallName} {record : FuncCall}
    (lengths : ∀ i, (record.contents.portion i).length = (name.pattern i).toNat) :
    HasPattern name record := by
  intro i
  have length : (record.dataP i).content.length = (name.pattern i).toNat := lengths i
  cases alive : (record.dataP i).live with
  | none =>
      rw [DataPortion.content_of_not_live alive, List.length_nil, toNat_pattern] at length
      exact absurd length (sizeOf_pos name i).ne
  | some block =>
      rw [DataPortion.length_content_of_live alive] at length
      have held := (DataPortion.live_eq_some alive).2
      exact ⟨UInt8.toNat_inj.mp length, by rw [held]; rfl⟩

section Talks

variable {zephyr : Zephyr} {size : EnumSize} {function : TeeFunction} {session : UInt32}
  {α β : Type} {good : α → Prop} {good' : β → List UInt8 → Prop}
  {conversation rest : Conversation UInt8}

theorem talks_call {operation : ClientCall} (here : operation.Local)
    {continuation : ClientAnswer operation → Client β}
    (some : ∃ answer, Succeeds zephyr size function session operation answer)
    (next : ∀ answer, Succeeds zephyr size function session operation answer →
      Talks (working zephyr size function session) .left good' conversation
        (placed (continuation answer))) :
    Talks (working zephyr size function session) .left good' conversation
      (placed ((call operation).bind continuation)) := by
  cases operation with
  | stream part call => exact here.elim
  | _ => exact Talks.of_call rfl some next

/-- A call that succeeds with one answer only. -/
theorem talks_only {operation : ClientCall} (here : operation.Local)
    {expected : ClientAnswer operation}
    (only : ∀ answer, Succeeds zephyr size function session operation answer ↔ answer = expected)
    {continuation : ClientAnswer operation → Client β}
    (next : Talks (working zephyr size function session) .left good' conversation
      (placed (continuation expected))) :
    Talks (working zephyr size function session) .left good' conversation
      (placed ((call operation).bind continuation)) := by
  refine talks_call here ⟨expected, (only expected).mpr rfl⟩ fun answer allowed => ?_
  rwa [(only answer).mp allowed]

theorem talks_overSsl {part : Part} {program : Ssl α} {continuation : α → Client β}
    (converses : Converses (.negative .wantRead) .left good conversation program)
    (next : ∀ value, good value → Talks (working zephyr size function session) .left good' rest
      (placed (continuation value))) :
    Talks (working zephyr size function session) .left good' (conversation ++ rest)
      (placed ((overSsl part program).bind continuation)) := by
  rw [placed, lift_bind, overSsl, lift_lift]
  exact Talks.of_converses converses next

theorem talks_initPortions {pattern : Fin dataPortions → UInt8} (positive : ∀ i, 0 < pattern i)
    (record : FuncCall) {indices : List (Fin dataPortions)}
    {continuation : Int × FuncCall → Client β}
    (next : ∀ result : FuncCall,
      (∀ i ∈ indices, (result.dataP i).liveLen = .some (pattern i)) →
      (∀ i ∉ indices, result.dataP i = record.dataP i) →
      Talks (working zephyr size function session) .left good' conversation
        (placed (continuation (0, result)))) :
    Talks (working zephyr size function session) .left good' conversation
      (placed ((initPortions pattern record indices).bind continuation)) := by
  induction indices generalizing record with
  | nil => exact next record nofun fun _ _ => rfl
  | cons i rest ih =>
      rw [initPortions, if_pos (positive i), bind_eq, bind_assoc]
      refine talks_call (by exact trivial) ⟨.some 0, rfl⟩ fun answer allowed => ?_
      obtain ⟨addr, rfl⟩ := Option.isSome_iff_exists.mp allowed
      let filled := setPortion record i (zeroedPortion (pattern i) addr)
      refine ih filled fun result inside outside => ?_
      refine next result ?_ ?_
      · intro j member
        by_cases later : j ∈ rest
        · exact inside j later
        · obtain rfl := (List.mem_cons.mp member).resolve_right later
          rw [outside j later, setPortion_self, liveLen_zeroedPortion (positive j)]
      · intro j absent
        rw [outside j (List.not_mem_of_not_mem_cons absent),
          setPortion_of_ne (List.ne_of_not_mem_cons absent)]

/-- A challenge is received into a record that was initialised for it. -/
theorem talks_receiveInto {name : CallName} (records : Records) (func : UInt32) {sent : FuncCall}
    (shaped : HasPattern name sent) {continuation : Records → Client β}
    (next : ∀ record : FuncCall, record.contents = sent.contents →
      Talks (working zephyr size function session) .left good' rest
        (placed (continuation (Function.update records name record)))) :
    Talks (working zephyr size function session) .left good' (exchanges .right sent.items ++ rest)
      (placed ((receiveInto records name func name.pattern).bind continuation)) := by
  have positive : ∀ i, 0 < name.pattern i := by
    intro i
    rw [UInt8.lt_iff_toNat_lt, toNat_pattern]
    exact sizeOf_pos name i
  rw [receiveInto, initFunc, bind_eq, bind_assoc]
  refine talks_initPortions positive _ fun result inside _ => ?_
  have shape : sent.SameShape result := by
    intro i
    obtain ⟨block, alive⟩ := liveLen_of_hasPattern shaped i
    rw [inside i (List.mem_finRange i), DataPortion.liveLen, alive, (shaped i).1]
    rfl
  have receives := (follows_recChallenge .left shape).converses
  simp only [reportIf, ne_eq, not_true_eq_false, if_false, bind_eq, pure_eq, done_bind, bind_assoc]
  refine talks_overSsl receives ?_
  rintro ⟨code, record⟩ ⟨rfl, func, contents⟩
  simp only [not_true_eq_false, if_false, done_bind]
  refine next record ?_
  have sameFunc : record.func = sent.func := func
  rw [FuncCall.contents, FuncCall.contents, sameFunc]
  exact congrArg _ (funext contents)

def callNames : List CallName :=
  [.init, .commitment, .proofs]

/-- One transfer for each call, in their order. -/
def rounds (sender : Side) (contents : CallName → Contents) : Conversation UInt8 :=
  callNames.flatMap fun name => exchanges sender (contents name).items

theorem rounds_append (sender : Side) (contents : CallName → Contents)
    (rest : Conversation UInt8) :
    rounds sender contents ++ rest =
      exchanges sender (contents .init).items ++ (exchanges sender (contents .commitment).items ++
        (exchanges sender (contents .proofs).items ++ rest)) := by
  simp only [rounds, callNames, List.flatMap_cons, List.flatMap_nil, List.append_nil,
    List.append_assoc]

theorem talks_receiveAll (records : Records) {challenge : Records}
    (shaped : ∀ name, HasPattern name (challenge name)) {continuation : Records → Client β}
    (next : ∀ records : Records, (∀ name, (records name).contents = (challenge name).contents) →
      Talks (working zephyr size function session) .left good' rest (placed (continuation records))) :
    Talks (working zephyr size function session) .left good'
      (rounds .right (fun name => (challenge name).contents) ++ rest)
      (placed ((receiveAll records).bind continuation)) := by
  simp only [rounds_append, FuncCall.items_contents, receiveAll, bind_eq, bind_assoc]
  refine talks_receiveInto records _ (shaped .init) fun init isInit => ?_
  refine talks_receiveInto _ _ (shaped .commitment) fun commitment isCommitment => ?_
  refine talks_receiveInto _ _ (shaped .proofs) fun proofs isProofs => ?_
  refine next _ fun name => ?_
  cases name with
  | init => exact isInit
  | commitment => exact isCommitment
  | proofs => exact isProofs

/-- What the client returns, and what it leaves unread of the reply to its greeting:
its one read fails when the reply has not come. -/
structure Answers (reply : List UInt8) (result : Int × Records) (unread : List UInt8) : Prop where
  suffix : unread <:+ reply
  ret : result.1 = if unread = reply then -1 else 0

theorem talks_freePortions (record : FuncCall) (indices : List (Fin dataPortions))
    {continuation : FuncCall → Client β}
    (next : ∀ result, Talks (working zephyr size function session) .left good' conversation
      (placed (continuation result))) :
    Talks (working zephyr size function session) .left good' conversation
      (placed ((freePortions record indices).bind continuation)) := by
  induction indices generalizing record with
  | nil => exact next record
  | cons i rest ih =>
      simp only [freePortions, freePortion, bind_eq, bind_assoc]
      exact talks_call (by exact trivial) ⟨(), trivial⟩ fun _ _ => ih _

theorem talks_cleanup (ssl ctx : Nat) (sock : Int) {ret : Int} (records : Records)
    {reply unread : List UInt8} (suffix : unread <:+ reply)
    (answers : ret = if unread = reply then -1 else 0) :
    Talks (working zephyr size function session) .left (Answers reply) (saying .right unread)
      (placed (cleanup ssl ctx sock ret records)) := by
  simp only [cleanup, freeRecord, freeFunc, bind_eq, bind_assoc]
  refine talks_call (by exact trivial) ⟨(), trivial⟩ fun _ _ => ?_
  refine talks_freePortions _ _ fun init => ?_
  refine talks_freePortions _ _ fun commitment => ?_
  refine talks_freePortions _ _ fun proofs => ?_
  simp only [ctxCleanup, socketCleanup, bind_eq, pure_eq, done_bind]
  refine talks_call (by exact trivial) ⟨(), trivial⟩ fun _ _ => ?_
  refine talks_call (by exact trivial) ⟨(), trivial⟩ fun _ _ => ?_
  refine talks_call (by exact trivial) ⟨(), trivial⟩ fun _ _ => ?_
  exact .done rfl ⟨suffix, answers⟩

theorem view_shutdown (ssl : Nat) (continuation : Unit → Client β) :
    (placed ((shutdown ssl).bind continuation)).view =
      .call (.inr (.shutdown ssl)) fun code : Int =>
        if code = wolfsslShutdownNotDone then placed ((shutdown ssl).bind continuation)
        else placed (continuation ()) := by
  refine congrArg (View.call _) (funext fun code : Int => ?_)
  by_cases notDone : code = wolfsslShutdownNotDone
  · simp only [notDone, if_true]
    rfl
  · simp only [answerOf, notDone, if_false]
    rfl

/-- The shutdown is repeated as long as it is not done. -/
theorem talks_shutdown (ssl : Nat) {continuation : Unit → Client β}
    (next : Talks (working zephyr size function session) .left good' conversation
      (placed (continuation ()))) :
    Talks (working zephyr size function session) .left good' conversation
      (placed ((shutdown ssl).bind continuation)) := by
  refine .ask (fun code : Int => code = wolfsslShutdownNotDone) (view_shutdown ssl continuation)
    ⟨wolfsslSuccess, trivial, by decide⟩ ?_ ?_
  · intro code _ done
    rwa [if_neg done]
  · intro code notDone
    rw [if_pos notDone]

theorem view_wolfSslRead (part : Part) (limit : Nat) (continuation : Int → Client β) :
    (placed ((overSsl part (wolfSslRead limit)).bind continuation)).view =
      .call (.inl (.read limit)) fun answer => placed (continuation (readCode answer)) := rfl

/-- The reply to the greeting is read once; what does not come at once stays unread. -/
theorem talks_exchangeGreeting (ssl ctx : Nat) (sock : Int) (records : Records)
    {reply : List UInt8} (some : reply ≠ []) :
    Talks (working zephyr size function session) .left (Answers reply)
      (saying .left helloMsg ++ saying .right reply)
      (placed (exchangeGreeting ssl ctx sock records)) := by
  have writes : Converses sslMedium.readBlocked .left (exactly helloMsg.length).good
      (saying .left helloMsg) (wolfSslWrite helloMsg) :=
    (follows_wolfSslWrite (by decide)).converses
  have whole : saying .right reply = saying Side.right reply ++ [] := (List.append_nil _).symm
  rw [exchangeGreeting]
  simp only [bind_eq]
  refine talks_overSsl writes ?_
  rintro _ rfl
  rw [if_neg (by simp), whole]
  refine .read False (view_wolfSslRead .greeting 255 _) (by decide) some (.inr nofun) ?_
    False.elim fun _ => ?_
  · intro count positive _ short
    have read : readCode (.received (reply.take count)) ≠ -1 := by
      simp only [readCode]
      omega
    have fewer : reply.drop count ≠ reply := by
      intro whole
      have length := congrArg List.length whole
      rw [List.length_drop] at length
      omega
    rw [List.append_nil, if_neg read]
    exact talks_shutdown ssl
      (talks_cleanup ssl ctx sock records (List.drop_suffix count reply) (if_neg fewer).symm)
  · have blocked : readCode (.failed (working zephyr size function session).readBlocked) = -1 := rfl
    rw [List.append_nil, if_pos blocked]
    exact talks_call (by exact trivial) ⟨(), trivial⟩ fun _ _ =>
      talks_cleanup ssl ctx sock records List.suffix_rfl (if_pos rfl).symm

theorem talks_sendResponses (ssl ctx : Nat) (sock ret : Int) {records : Records}
    {reply : List UInt8} (some : reply ≠ []) :
    Talks (working zephyr size function session) .left (Answers reply)
      (rounds .left (fun name => (records name).contents) ++
        (saying .left helloMsg ++ saying .right reply))
      (placed (sendResponses ssl ctx sock ret records)) := by
  have sends : ∀ name, Converses sslMedium.readBlocked .left codes.good
      (exchanges .left (records name).items) (sendResponse (records name)) := fun name =>
    (follows_sendChallenge .left (records name)).converses
  simp only [rounds_append, FuncCall.items_contents, sendResponses, bind_eq]
  refine talks_overSsl (sends .init) ?_
  rintro _ rfl
  refine talks_overSsl (sends .commitment) ?_
  rintro _ rfl
  refine talks_overSsl (sends .proofs) ?_
  rintro _ rfl
  exact talks_exchangeGreeting ssl ctx sock records some

/-- What the client and its server say to each other. -/
def dialogue (function : TeeFunction) (session : UInt32) (challenge : Records)
    (reply : List UInt8) : Conversation UInt8 :=
  rounds .right (fun name => (challenge name).contents) ++
    (rounds .left (fun name => pureCall function session name (challenge name).contents) ++
      (saying .left helloMsg ++ saying .right reply))

theorem talks_converse (dispatches : zephyr.Dispatches) (ssl ctx : Nat) (sock ret : Int)
    (records : Records) {challenge : Records}
    (shaped : ∀ name, HasPattern name (challenge name)) {reply : List UInt8}
    (some : reply ≠ []) :
    Talks (working zephyr size function session) .left (Answers reply)
      (dialogue function session challenge reply)
      (placed (converse ssl ctx sock ret records)) := by
  rw [converse]
  simp only [bind_eq]
  refine talks_receiveAll records shaped fun received same => ?_
  have patterned : ∀ name, HasPattern name (received name) := by
    intro name
    apply hasPattern_of_contents
    intro i
    have content := congrFun (congrArg Contents.portion (same name)) i
    have length := congrArg List.length ((shaped name).content i)
    rw [List.length_map, List.length_range, ← toNat_pattern] at length
    rw [content]
    exact length
  refine talks_call (by exact trivial) (exists_timelyOutcome zephyr size function session received)
    fun outcome timely => ?_
  have calls := timely.calledPurely dispatches patterned
  have contents : ∀ name, (outcome.2 name).contents =
      pureCall function session name (challenge name).contents := fun name =>
    (calls name).1.trans (congrArg _ (same name))
  simp only [← contents]
  exact talks_sendResponses ssl ctx sock ret some

theorem talks_testSocketConnection (dispatches : zephyr.Dispatches) (records : Records)
    {challenge : Records} (shaped : ∀ name, HasPattern name (challenge name))
    {reply : List UInt8} (some : reply ≠ []) :
    Talks (working zephyr size function session) .left (Answers reply)
      (dialogue function session challenge reply) (placed (testSocketConnection records)) := by
  rw [testSocketConnection]
  simp only [bind_eq]
  refine talks_call (by exact trivial) ⟨(0 : Int), le_rfl⟩ fun sock (opened : 0 ≤ sock) => ?_
  rw [reportIf, if_neg (not_lt.mpr opened), pure_eq, done_bind]
  refine talks_only (by exact trivial) (fun _ => Iff.rfl) ?_
  rw [reportIf, if_neg (not_not.mpr rfl), pure_eq, done_bind]
  refine talks_only (by exact trivial) (fun _ => Iff.rfl) ?_
  rw [if_neg (show ¬ (0 : Int) = -1 by decide)]
  refine talks_only (by exact trivial) (fun _ => Iff.rfl) ?_
  rw [if_neg (not_not.mpr rfl)]
  refine talks_call (by exact trivial) ⟨.some 0, rfl⟩ fun context made => ?_
  obtain ⟨ctx, rfl⟩ := Option.isSome_iff_exists.mp made
  refine talks_only (by exact trivial) (fun _ => Iff.rfl) ?_
  rw [if_neg (not_not.mpr rfl)]
  refine talks_only (by exact trivial) (fun _ => Iff.rfl) ?_
  rw [if_neg (not_not.mpr rfl)]
  refine talks_only (by exact trivial) (fun _ => Iff.rfl) ?_
  rw [if_neg (not_not.mpr rfl)]
  refine talks_only (by exact trivial) (fun _ => Iff.rfl) ?_
  rw [if_neg (not_not.mpr rfl)]
  refine talks_call (by exact trivial) ⟨(), trivial⟩ fun _ _ => ?_
  refine talks_call (by exact trivial) ⟨.some 0, rfl⟩ fun object made => ?_
  obtain ⟨ssl, rfl⟩ := Option.isSome_iff_exists.mp made
  refine talks_only (by exact trivial) (fun _ => Iff.rfl) ?_
  rw [if_neg (not_not.mpr rfl)]
  refine talks_only (by exact trivial) (fun _ => Iff.rfl) ?_
  rw [if_neg (not_not.mpr rfl)]
  exact talks_converse dispatches ssl ctx sock _ records shaped some

end Talks

end Uc1Integration.TlsClient
