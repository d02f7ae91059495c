import Uc1Integration.Interaction.MailboxSimulation
import Uc1Integration.Tee.Replies

/-!
# What the TEE has itself written

A reply changes only some bytes of the payload, and what it does not write is still
what the request or an earlier reply has left there. `challenge_puf` takes the one for
the other.
-/

set_option autoImplicit false

namespace Uc1Integration.Tee

open Interaction Transport Client

/-- A message as its sender leaves it, and what of the session id and of the payload
the sender has written itself. -/
structure Writing where
  message : SharedMessage
  session : Bool
  payload : Fin vmsUsablePayloadSize → Bool
  deriving Inhabited

/-- No reply writes a byte behind the payload. -/
def Writing.writes (writing : Writing) (k : Nat) : Bool :=
  if inside : k < vmsUsablePayloadSize then writing.payload ⟨k, inside⟩ else false

/-- What is not written stays as it was. -/
def Writing.over (writing : Writing) (msg : SharedMessage) : SharedMessage :=
  { writing.message with
    sessionArgs :=
      { writing.message.sessionArgs with
        session :=
          if writing.session then writing.message.sessionArgs.session
          else msg.sessionArgs.session }
    payload := fun k =>
      if writing.writes k then writing.message.payload k else msg.payload k }

def Writing.whole (message : SharedMessage) : Writing :=
  ⟨message, true, fun _ => true⟩

/-- The mailbox when it is known what each reply writes. -/
def writingMailbox : Mailbox Shared Writing where
  read := fun shared => .whole shared.msg
  put := fun writing shared => { shared with msg := writing.over shared.msg }
  handle := ipcIrqClientHandler

abbrev WritingClient := Client Own Shared Writing

/-- The portion holds bytes that the reply has written for it. -/
structure Writing.Returns (reply : Writing) (i : Fin dataPortions)
    (before after : DataPortion) : Prop where
  written : ∀ k < before.len.toNat, reply.writes ((reply.message.params i).a.toNat + k) = true
  stored : after =
    before.copyFrom
      (slice reply.message.payload (reply.message.params i).a.toNat before.len.toNat)

/-- The session id of the run is the one the TEE put into its reply to the open request,
and each record holds what the reply to its own request has written. -/
structure UsesReplies (own : Own) (client : WritingClient) : Prop where
  session : ∃ reply, (0, reply) ∈ client.replies ∧ reply.session = true ∧
    ∀ request ∈ client.requests, SessionIs reply.message.sessionArgs.session request.message
  results : ∀ call, ∃ reply, (call.position, reply) ∈ client.replies ∧
    ∀ i, reply.Returns i ((own.record call).dataP i) ((client.own.record call).dataP i)

/-- A reply to the open request writes the session id, and one to an invocation every
byte that is copied from it. -/
structure Brings (own : Own) (position : Nat) (reply : Writing) : Prop where
  session : position = 0 → reply.session = true
  results : ∀ call, position = call.position → ∀ i, ∀ k < ((own.record call).dataP i).len.toNat,
    reply.writes ((reply.message.params i).a.toNat + k) = true

/-- The TEE leaves the call type of the request in its reply. -/
def leavesCallType (_ : Nat) (request reply : Writing) : Prop :=
  reply.message.callType = request.message.callType

theorem completes_writing :
    Completes Writing.message (fun writing shared => writing.over shared.msg) writingMailbox
      mailbox where
  read := fun _ => rfl
  put := fun _ _ => rfl
  handle := fun _ => rfl

theorem keepsCallType_over (position : Nat) (request reply : Writing) (shared : Shared)
    (leaves : leavesCallType position request reply) :
    keepsCallType position request.message (reply.over shared.msg) :=
  leaves

theorem position_lt (call : CallName) : call.position < 4 := by
  cases call <;> decide

theorem slice_over {writing : Writing} {msg : SharedMessage} {start size : Nat}
    (written : ∀ k < size, writing.writes (start + k) = true) :
    slice (writing.over msg).payload start size = slice writing.message.payload start size := by
  rw [slice_eq_iff]
  intro k inside
  exact if_pos (written k inside)

section Timely

variable {zephyr : Zephyr} {own : Own} {shared : Shared} {client : WritingClient}

/-- Each position has one reply. -/
theorem replies_unique
    (reaches : Reaches writingMailbox (.timely leavesCallType)
      (start own shared (challengePuf zephyr)) client)
    {position : Nat} {first second : Writing} (here : (position, first) ∈ client.replies)
    (there : (position, second) ∈ client.replies) : first = second := by
  obtain ⟨replies, agrees⟩ := exists_agrees (Ordered.of_reaches reaches)
  exact (agrees _ here).symm.trans (agrees _ there)

/-- The results of a timely run come from its replies exactly when these bring them. -/
theorem usesReplies_iff (dispatches : zephyr.Dispatches)
    (reaches : Reaches writingMailbox (.timely leavesCallType)
      (start own shared (challengePuf zephyr)) client)
    (success : client.result = some 0) :
    UsesReplies own client ↔
      ∀ position reply, (position, reply) ∈ client.replies → Brings own position reply := by
  constructor
  · intro uses position reply member
    constructor
    · rintro rfl
      obtain ⟨opened, there, written, _⟩ := uses.session
      exact replies_unique reaches there member ▸ written
    · rintro call rfl i
      obtain ⟨returned, there, returns⟩ := uses.results call
      exact replies_unique reaches there member ▸ (returns i).written
  · intro brings
    obtain ⟨left, completed, leftBy⟩ :=
      reaches_completed completes_writing keepsCallType_over reaches
    obtain ⟨replies, heard⟩ := heard_of_timely dispatches completed success
    have wrote : ∀ position < 4, ∃ reply shared, (position, reply) ∈ client.replies ∧
        replies position = reply.over (Shared.msg shared) := fun position inside =>
      exists_part leftBy (heard.answered position inside)
    constructor
    · obtain ⟨reply, before, member, left⟩ := wrote 0 (by decide)
      have written := (brings 0 reply member).session rfl
      have session := heard.session heard.opened heard.invoked
      have same : (replies 0).sessionArgs.session = reply.message.sessionArgs.session := by
        rw [left]
        exact if_pos written
      rw [same] at session
      refine ⟨reply, member, written, fun request asked => ?_⟩
      exact session request.message (List.mem_map_of_mem asked)
    · intro call
      obtain ⟨reply, before, member, left⟩ := wrote call.position (position_lt call)
      have written := (brings _ reply member).results call rfl
      refine ⟨reply, member, fun i => ⟨written i, ?_⟩⟩
      have stored : (client.own.record call).dataP i = _ := heard.dataP (heard.invoked call) i
      rw [stored, left]
      exact congrArg _ (slice_over (written i))

end Timely

/-- A TEE that grants the session 5 and fills the whole payload with sevens, or leaves it alone. -/
def sevens (fills : Bool) (request : Writing) : Writing where
  message :=
    { request.message with
      sessionArgs := { request.message.sessionArgs with session := 5 }
      params := layout zephyrOfImage .proofs
      payload := fun _ => 7 }
  session := true
  payload := fun _ => fills

theorem exists_sevens (fills : Bool) :
    ∃ client : WritingClient,
      Reaches writingMailbox (.timely leavesCallType)
          (start bootOwn (bootShared default) (challengePuf zephyrOfImage)) client ∧
        client.result = some 0 ∧
        ∀ position reply, (position, reply) ∈ client.replies →
          ∃ request, reply = sevens fills request := by
  let answers : Nat → Writing → Writing → Prop := fun _ request reply => reply = sevens fills request
  have weaker : ∀ position request reply, answers position request reply →
      leavesCallType position request reply := by
    rintro _ request _ rfl
    rfl
  have answered : ∀ position request, ∃ reply, answers position request reply :=
    fun _ request => ⟨sevens fills request, rfl⟩
  obtain ⟨client, reaches, returned⟩ := exists_returned answered
    (.refl : Reaches writingMailbox (.timely answers)
      (start bootOwn (bootShared default) (challengePuf zephyrOfImage)) _)
  obtain ⟨code, result⟩ := Option.isSome_iff_exists.mp returned
  have timely := reaches_timely weaker reaches
  obtain ⟨_, completed, _⟩ := reaches_completed completes_writing keepsCallType_over timely
  obtain rfl := returns_zero zephyrOfImage_dispatches rfl completed result
  refine ⟨client, timely, result, fun position reply member => ?_⟩
  obtain ⟨request, _, same⟩ := (Ordered.of_reaches reaches).accepted _ member
  exact ⟨request, same⟩

theorem brings_sevens (position : Nat) (request : Writing) :
    Brings bootOwn position (sevens true request) := by
  refine ⟨fun _ => rfl, fun call _ i k inside => ?_⟩
  have short : ∀ call i, (layout zephyrOfImage .proofs i).a.toNat +
      ((bootOwn.record call).dataP i).len.toNat ≤ vmsUsablePayloadSize := by
    intro call
    cases call <;> decide
  have room : (layout zephyrOfImage .proofs i).a.toNat + k < vmsUsablePayloadSize :=
    Nat.lt_of_lt_of_le (Nat.add_lt_add_left inside _) (short call i)
  exact dif_pos room

/-- With the one TEE all results are those of the replies, with the other, which answers
in time as well, the records hold what was left in the payload. -/
theorem usesReplies_iff_sevens :
    (∃ client : WritingClient, client.result = some 0 ∧ UsesReplies bootOwn client) ∧
      ∃ client : WritingClient, client.result = some 0 ∧ ¬ UsesReplies bootOwn client := by
  obtain ⟨filled, reaches, success, brought⟩ := exists_sevens true
  obtain ⟨left, reaches', success', others⟩ := exists_sevens false
  constructor
  · refine ⟨filled, success, (usesReplies_iff zephyrOfImage_dispatches reaches success).mpr ?_⟩
    intro position reply member
    obtain ⟨request, rfl⟩ := brought position reply member
    exact brings_sevens position request
  · refine ⟨left, success', fun uses => ?_⟩
    have brings := (usesReplies_iff zephyrOfImage_dispatches reaches' success').mp uses
    obtain ⟨reply, member, _⟩ := uses.results .init
    have written := (brings _ reply member).results .init rfl 0 0 (by decide)
    obtain ⟨request, rfl⟩ := others _ reply member
    simp [Writing.writes, sevens] at written

/-- Without any reply `challenge_puf` returns 0 all the same. -/
theorem not_usesReplies_alone :
    ∃ client : WritingClient,
      Reaches writingMailbox .any
          (start bootOwn (bootShared default) (challengePuf zephyrOfImage)) client ∧
        client.result = some 0 ∧ ¬ UsesReplies bootOwn client := by
  let client : WritingClient := runAlone writingMailbox 200
    (start bootOwn (bootShared default) (challengePuf zephyrOfImage))
  have success : client.result = some 0 := by decide +kernel
  have silent : client.replies.length = 0 := by decide +kernel
  refine ⟨client, reaches_runAlone _ _ _, success, ?_⟩
  intro uses
  obtain ⟨reply, there, _⟩ := uses.session
  rw [List.eq_nil_of_length_eq_zero silent] at there
  cases there

end Uc1Integration.Tee
