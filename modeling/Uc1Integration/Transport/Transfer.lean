import Uc1Integration.Transport.ChallengeProperties

/-! One transfer between the call records of two endpoints, by any pair of the
send and receive functions. -/

set_option autoImplicit false

namespace Uc1Integration.Transport

open Interaction Conversation

/-- What a call record stands for: its id and the bytes of its portions. -/
structure Contents where
  func : UInt32
  portion : Fin dataPortions → List UInt8

namespace FuncCall

def contents (call : FuncCall) : Contents :=
  ⟨call.func, fun i => (call.dataP i).content⟩

end FuncCall

def Contents.items (contents : Contents) : List (List UInt8) :=
  idBytes contents.func ::
    ((List.finRange dataPortions).map contents.portion).filter (· ≠ [])

theorem DataPortion.content_eq_nil_iff (portion : DataPortion) :
    portion.content = [] ↔ portion.live = none := by
  constructor
  · intro empty
    cases alive : portion.live with
    | none => rfl
    | some block =>
        have length := length_content_of_live alive
        have positive := (live_eq_some alive).1
        rw [empty, List.length_nil] at length
        omega
  · exact content_of_not_live

theorem FuncCall.items_contents (call : FuncCall) : call.contents.items = call.items := by
  suffices portions : ∀ indices : List (Fin dataPortions),
      (indices.map call.contents.portion).filter (· ≠ []) = call.portionItems indices by
    simp only [Contents.items, items, portions]
    rfl
  intro indices
  induction indices with
  | nil => rfl
  | cons i rest ih =>
      have here : call.contents.portion i = (call.dataP i).content := rfl
      cases alive : (call.dataP i).live with
      | none =>
          rw [portionItems_cons_dead alive, ← ih, List.map_cons, here,
            DataPortion.content_of_not_live alive]
          simp
      | some block =>
          have some : (call.dataP i).content ≠ [] := by
            rw [Ne, DataPortion.content_eq_nil_iff, alive]
            exact Option.some_ne_none block
          rw [portionItems_cons_live alive, ← ih, List.map_cons, here]
          simp [some]

theorem FuncCall.sameShape_iff (sent kept : FuncCall) :
    sent.SameShape kept ↔
      ∀ i, (sent.contents.portion i).length = (kept.contents.portion i).length := by
  refine forall_congr' fun i => ?_
  change (sent.dataP i).liveLen = (kept.dataP i).liveLen ↔
    (sent.dataP i).content.length = (kept.dataP i).content.length
  have lengths : ∀ portion : DataPortion,
      portion.content.length = (portion.liveLen.map UInt8.toNat).getD 0 := by
    intro portion
    cases alive : portion.live with
    | none => simp [DataPortion.liveLen, alive, DataPortion.content_of_not_live alive]
    | some block =>
        simp [DataPortion.liveLen, alive, DataPortion.length_content_of_live alive]
  have positive : ∀ portion : DataPortion, ∀ len ∈ portion.liveLen, 0 < len.toNat := by
    intro portion len member
    obtain ⟨block, alive, rfl⟩ := DataPortion.live_of_liveLen_eq_some member
    exact (DataPortion.live_eq_some alive).1
  rw [lengths, lengths]
  cases one : (sent.dataP i).liveLen with
  | none =>
      cases two : (kept.dataP i).liveLen with
      | none => simp
      | some len =>
          have := positive _ _ two
          simp
          omega
  | some len =>
      cases two : (kept.dataP i).liveLen with
      | none =>
          have := positive _ _ one
          simp
          omega
      | some other => simp [UInt8.toNat_inj]

inductive Kind where
  | challenge
  | response
  deriving DecidableEq, Repr

/-- One transfer: the sender calls its send function on the record `sent` of its
memory, the other side its receive function on the record `kept`. -/
structure Transfer (Name : Type) where
  sender : Side
  sendsAs : Kind
  receivesAs : Kind
  sent : Name
  kept : Name

variable {Name : Type}

def Kind.send : Kind → FuncCall → Ssl Int
  | .challenge => sendChallenge
  | .response => sendResponse

def Kind.receive : Kind → FuncCall → Ssl (Int × FuncCall)
  | .challenge => recChallenge
  | .response => recResponse

/-- An endpoint's part of a transfer: its return code, and its record afterwards. -/
def Transfer.run (transfer : Transfer Name) (me : Side) (memory : Name → FuncCall) :
    Ssl (Int × FuncCall) :=
  if me = transfer.sender then
    (transfer.sendsAs.send (memory transfer.sent)).bind fun code =>
      .done (code, memory transfer.sent)
  else
    transfer.receivesAs.receive (memory transfer.kept)

def Transfer.record (transfer : Transfer Name) (me : Side) : Name :=
  if me = transfer.sender then transfer.sent else transfer.kept

/-- The result of a transfer on either side: success, with a record that stands
for what the carried one stands for. -/
def Carries (sent : FuncCall) (result : Int × FuncCall) : Prop :=
  result.1 = 0 ∧ result.2.contents = sent.contents

theorem FuncCall.SameShape.congr {sent kept sent' kept' : FuncCall} (same : sent.SameShape kept)
    (sends : ∀ i, (sent'.contents.portion i).length = (sent.contents.portion i).length)
    (keeps : ∀ i, (kept'.contents.portion i).length = (kept.contents.portion i).length) :
    sent'.SameShape kept' := by
  rw [FuncCall.sameShape_iff] at same ⊢
  intro i
  rw [sends i, keeps i]
  exact same i

theorem FuncCall.items_congr {one two : FuncCall} (same : one.contents = two.contents) :
    one.items = two.items := by
  rw [← one.items_contents, ← two.items_contents, same]

private theorem follows_receive_as (me : Side) (kind : Kind) {sent call : FuncCall}
    (shape : sent.SameShape call) :
    Follows sslMedium me (delivery (Carries sent)) (exchanges me.other sent.items)
      (kind.receive call) := by
  have receives : Follows sslMedium me (delivery (Carries sent))
      (exchanges me.other sent.items) (recChallenge call) := by
    refine (follows_recChallenge me shape).weaken ?_
    rintro result ⟨code, func, content⟩
    refine ⟨code, ?_⟩
    simp only [FuncCall.contents, func, content]
  cases kind <;> exact receives

private theorem follows_send_as (me : Side) (kind : Kind) (sent : FuncCall) :
    Follows sslMedium me (delivery (Carries sent)) (exchanges me sent.items)
      ((kind.send sent).bind fun code => .done (code, sent)) := by
  have sends : Follows sslMedium me codes (exchanges me sent.items) (kind.send sent) := by
    cases kind <;> exact follows_sendChallenge me sent
  rw [← List.append_nil (exchanges me sent.items)]
  apply sends.bind
  · rintro _ rfl
    exact .of_done ⟨rfl, rfl⟩
  · intro code failed
    exact .done failed
  · intro code failed
    exact ⟨_, rfl, failed⟩

/-- Either side's part of a transfer, with a record of its own that stands for
what the given one stands for. -/
theorem Transfer.follows_run {transfer : Transfer Name} {memories : Side → Name → FuncCall}
    (shape : (memories transfer.sender transfer.sent).SameShape
      (memories transfer.sender.other transfer.kept))
    (me : Side) {memory : Name → FuncCall}
    (stands : ∀ name, (memory name).contents = (memories me name).contents) :
    Follows sslMedium me (delivery (Carries (memories transfer.sender transfer.sent)))
      (exchanges transfer.sender (memories transfer.sender transfer.sent).items)
      (transfer.run me memory) := by
  unfold run
  rcases Side.eq_or_eq_other me transfer.sender with rfl | rfl
  · rw [if_pos rfl, ← FuncCall.items_congr (stands transfer.sent)]
    refine (follows_send_as _ _ _).weaken ?_
    rintro result ⟨code, contents⟩
    exact ⟨code, contents.trans (stands transfer.sent)⟩
  · rw [if_neg (Side.other_ne transfer.sender)]
    have receives : Follows sslMedium transfer.sender.other
        (delivery (Carries (memories transfer.sender transfer.sent)))
        (exchanges transfer.sender.other.other (memories transfer.sender transfer.sent).items)
        (transfer.receivesAs.receive (memory transfer.kept)) := by
      refine follows_receive_as _ _ (shape.congr (fun _ => rfl) fun i => ?_)
      rw [stands transfer.kept]
    rwa [Side.other_other] at receives

def onePortion (func : UInt32) (bytes : List UInt8) (len : UInt8)
    (fits : len.toNat ≤ bytes.length) : FuncCall where
  func := func
  dataP := ![⟨len, some ⟨0, bytes⟩, by simpa using fits⟩, ⟨0, none, nofun⟩, ⟨0, none, nofun⟩,
    ⟨0, none, nofun⟩]

/-- Two memories of one record each; the sent bytes are the protocol's own words. -/
def delimiterMemories : Side → Unit → FuncCall
  | .left, _ => onePortion pufTaInitFuncId (startSeq ++ stopSeq ++ ackStr) 11 (by decide)
  | .right, _ => onePortion 0 (List.replicate 11 0) 11 (by decide)

end Uc1Integration.Transport
