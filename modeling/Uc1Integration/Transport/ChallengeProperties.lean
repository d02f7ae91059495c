import Uc1Integration.Transport.Challenge
import Uc1Integration.Transport.TransmissionProperties

/-! A call record is transferred as a conversation: each of its items in a frame
of the sender, answered by an acknowledgement of the receiver. -/

set_option autoImplicit false

namespace Uc1Integration.Transport

open Interaction Conversation

theorem length_idBytes (id : UInt32) : (idBytes id).length = 4 := rfl

theorem idOfBytes_idBytes (id : UInt32) : idOfBytes (idBytes id) = id := by
  apply UInt32.eq_of_toBitVec_eq
  simp only [idOfBytes, idBytes, UInt32.toBitVec_or, UInt32.toBitVec_shiftLeft,
    UInt8.toBitVec_toUInt32, UInt32.toBitVec_toUInt8, UInt32.toBitVec_shiftRight]
  ext position inside
  simp
  grind

namespace DataPortion

theorem live_eq_some {portion : DataPortion} {block : Block} (alive : portion.live = some block) :
    0 < portion.len.toNat ∧ portion.data = some block := by
  unfold live at alive
  split at alive
  · exact ⟨by assumption, alive⟩
  · cases alive

theorem content_of_live {portion : DataPortion} {block : Block} (alive : portion.live = some block) :
    portion.content = block.bytes.take portion.len.toNat := by
  simp [content, (live_eq_some alive).2]

theorem length_content_of_live {portion : DataPortion} {block : Block}
    (alive : portion.live = some block) : portion.content.length = portion.len.toNat := by
  have fits := portion.fits block (live_eq_some alive).2
  rw [content_of_live alive, List.length_take]
  omega

theorem content_of_not_live {portion : DataPortion} (dead : portion.live = none) :
    portion.content = [] := by
  unfold live at dead
  unfold content
  split at dead
  · simp [dead]
  · have nothing : portion.len.toNat = 0 := by omega
    cases portion.data <;> simp [nothing]

@[simp] theorem len_copyFrom (portion : DataPortion) (source : List UInt8) :
    (portion.copyFrom source).len = portion.len := rfl

theorem content_copyFrom {portion : DataPortion} {block : Block} {source : List UInt8}
    (alive : portion.live = some block) (enough : portion.len.toNat ≤ source.length) :
    (portion.copyFrom source).content = source.take portion.len.toNat := by
  have taken : (source.take portion.len.toNat).length = portion.len.toNat := by
    rw [List.length_take]
    omega
  simp only [content, copyFrom, (live_eq_some alive).2, Option.map_some, store_zero, taken]
  exact List.take_left' taken

def liveLen (portion : DataPortion) : Option UInt8 :=
  portion.live.map fun _ => portion.len

theorem live_of_liveLen_eq_some {portion : DataPortion} {len : UInt8}
    (alive : portion.liveLen = some len) :
    ∃ block, portion.live = some block ∧ portion.len = len := by
  rw [liveLen, Option.map_eq_some_iff] at alive
  exact alive

end DataPortion

theorem liveLen_copyFrom (portion : DataPortion) (source : List UInt8) :
    (portion.copyFrom source).liveLen = portion.liveLen := by
  unfold DataPortion.liveLen DataPortion.live DataPortion.copyFrom
  dsimp only
  split
  · rw [Option.map_map]
    rfl
  · rfl

namespace FuncCall

@[simp] theorem func_setData (call : FuncCall) (i : Fin dataPortions) (source : List UInt8) :
    (call.setData i source).func = call.func := rfl

@[simp] theorem dataP_setData_self (call : FuncCall) (i : Fin dataPortions) (source : List UInt8) :
    (call.setData i source).dataP i = (call.dataP i).copyFrom source := by
  simp [setData]

theorem dataP_setData_of_ne {call : FuncCall} {i j : Fin dataPortions} (different : j ≠ i)
    (source : List UInt8) : (call.setData i source).dataP j = call.dataP j := by
  simp [setData, different]

/-- The same portions have data and a positive length, with equal lengths. -/
def SameShape (sent kept : FuncCall) : Prop :=
  ∀ i, (sent.dataP i).liveLen = (kept.dataP i).liveLen

instance (sent kept : FuncCall) : Decidable (sent.SameShape kept) :=
  inferInstanceAs (Decidable (∀ i, (sent.dataP i).liveLen = (kept.dataP i).liveLen))

def portionItems (call : FuncCall) (indices : List (Fin dataPortions)) : List (List UInt8) :=
  indices.filterMap fun i => (call.dataP i).live.map fun _ => (call.dataP i).content

/-- What is transferred of a record, in order: the function id and the live portions. -/
def items (call : FuncCall) : List (List UInt8) :=
  idBytes call.func :: call.portionItems (List.finRange dataPortions)

end FuncCall

/-- One item on the wire and its acknowledgement. -/
def exchange (sender : Side) (data : List UInt8) : Conversation UInt8 :=
  saying sender (frame data) ++ saying sender.other ackStr

def exchanges (sender : Side) (items : List (List UInt8)) : Conversation UInt8 :=
  items.flatMap (exchange sender)

theorem exchanges_cons (sender : Side) (data : List UInt8) (items : List (List UInt8)) :
    exchanges sender (data :: items) = exchange sender data ++ exchanges sender items := rfl

def received (outBuf data : List UInt8) : Results (Int × List UInt8) where
  good := (· = (0, store outBuf 0 data))
  bad := fun result => result.1 ≠ 0
  quit := fun _ => False

theorem follows_recStream {me : Side} {outBuf data : List UInt8} {len : UInt8}
    (length : data.length = len.toNat) :
    Follows sslMedium me (received outBuf data) (saying me.other (frame data))
      (recStream outBuf len) := by
  have parts : saying me.other (frame data) =
      saying me.other startSeq ++ (saying me.other data ++ (saying me.other stopSeq ++ [])) := by
    simp [frame]
  have failed : ∀ buffer : List UInt8,
      Doomed sslMedium (received outBuf data).bad (.done (1, buffer) : Ssl (Int × List UInt8)) := by
    intro buffer
    exact .done codes_bad_one
  rw [parts, recStream]
  apply follows_huntStart.bind
  · rintro _ rfl
    apply (follows_readExact length).bind
    · rintro _ rfl
      apply (follows_readExact rfl).bind
      · rintro _ rfl
        exact .of_done rfl
      · -- Whatever part of the stop sequence came, the window still ends in 0x55.
        rintro _ ⟨count, inside, rfl⟩
        have four : stopSeq.length = 4 := rfl
        obtain rfl | rfl | rfl | rfl : count = 0 ∨ count = 1 ∨ count = 2 ∨ count = 3 := by omega
        all_goals exact failed _
      · exact fun _ nothing => nothing.elim
    · -- The error of the payload is not looked at; the stop sequence then cannot come.
      rintro _ ⟨count, inside, rfl⟩
      have cut : Doomed sslMedium (· = (1, startSeq)) (readExact startSeq stopSeqLen) :=
        doomed_readExact (by decide)
      refine cut.bind ?_
      rintro _ rfl
      exact failed _
    · exact fun _ nothing => nothing.elim
  · rintro _ rfl
    exact failed _
  · exact fun _ nothing => nothing.elim

theorem follows_sendFramedStream {me : Side} {data : List UInt8} {len : UInt8}
    (some : 0 < len.toNat) (length : (data.take len.toNat).length = len.toNat) :
    Follows sslMedium me codes (saying me (frame (data.take len.toNat)))
      (sendFramedStream data len) := by
  have parts : saying me (frame (data.take len.toNat)) =
      saying me startSeq ++
        (saying me (data.take len.toNat) ++ (saying me stopSeq ++ [])) := by
    simp [frame]
  have payload : Follows sslMedium me (exactly (data.take len.toNat).length)
      (saying me (data.take len.toNat)) (wolfSslWrite (data.take len.toNat)) :=
    follows_wolfSslWrite (List.ne_nil_of_length_pos (by rw [length]; exact some))
  rw [length] at payload
  rw [parts]
  exact follows_guard (follows_wolfSslWrite startSeq_ne_nil)
    (follows_guard payload
      (follows_guard (follows_wolfSslWrite stopSeq_ne_nil) (.of_done rfl)
        codes_bad_one codes_bad_one)
      codes_bad_one codes_bad_one)
    codes_bad_one codes_bad_one

theorem FuncCall.portionItems_cons_live {call : FuncCall} {i : Fin dataPortions} {block : Block}
    (alive : (call.dataP i).live = some block) (rest : List (Fin dataPortions)) :
    call.portionItems (i :: rest) = (call.dataP i).content :: call.portionItems rest := by
  simp [portionItems, alive]

theorem FuncCall.portionItems_cons_dead {call : FuncCall} {i : Fin dataPortions}
    (dead : (call.dataP i).live = none) (rest : List (Fin dataPortions)) :
    call.portionItems (i :: rest) = call.portionItems rest := by
  simp [portionItems, dead]

theorem follows_sendPortions (me : Side) (call : FuncCall) (indices : List (Fin dataPortions)) :
    Follows sslMedium me codes (exchanges me (call.portionItems indices))
      (sendPortions call indices) := by
  induction indices with
  | nil => exact .of_done rfl
  | cons i rest ih =>
      rw [sendPortions]
      cases alive : (call.dataP i).live with
      | none =>
          rw [FuncCall.portionItems_cons_dead alive]
          exact ih
      | some block =>
          have length := DataPortion.length_content_of_live alive
          rw [FuncCall.portionItems_cons_live alive, exchanges_cons, exchange, List.append_assoc,
            DataPortion.content_of_live alive]
          rw [DataPortion.content_of_live alive] at length
          exact follows_guard
            (follows_sendFramedStream (DataPortion.live_eq_some alive).1 length)
            (follows_guard follows_waitForAck ih codes_bad_one codes_bad_one)
            codes_bad_one codes_bad_one

theorem follows_sendChallenge (me : Side) (call : FuncCall) :
    Follows sslMedium me codes (exchanges me call.items) (sendChallenge call) := by
  have framed : Follows sslMedium me codes
      (saying me (frame ((idBytes call.func).take idLen.toNat)))
      (sendFramedStream (idBytes call.func) idLen) :=
    follows_sendFramedStream (show 0 < idLen.toNat by decide) rfl
  rw [FuncCall.items, exchanges_cons, exchange, List.append_assoc]
  exact follows_guard framed
    (follows_guard follows_waitForAck (follows_sendPortions me call _)
      codes_bad_one codes_bad_one)
    codes_bad_one codes_bad_one

/-- A record `call` has received the portions `indices` of `sent`, and nothing else. -/
structure Delivered (sent call : FuncCall) (indices : List (Fin dataPortions))
    (result : Int × FuncCall) : Prop where
  code : result.1 = 0
  func : result.2.func = call.func
  content : ∀ i ∈ indices, (result.2.dataP i).content = (sent.dataP i).content
  others : ∀ i ∉ indices, result.2.dataP i = call.dataP i

def delivery (good : Int × FuncCall → Prop) : Results (Int × FuncCall) where
  good := good
  bad := fun result => result.1 ≠ 0
  quit := fun result => result.1 ≠ 0

theorem follows_receive {α : Type} {me : Side} {results : Results α} {outBuf data : List UInt8}
    {len : UInt8} {second : Conversation UInt8} (failed : α) (next : List UInt8 → Ssl α)
    (length : data.length = len.toNat)
    (onward : Follows sslMedium me results second (next (store outBuf 0 data)))
    (bad : results.bad failed) (quit : results.quit failed) :
    Follows sslMedium me results (exchange me.other data ++ second)
      ((recStream outBuf len).bind fun result =>
        match result with
        | (err, buffer) =>
            if err ≠ 0 then .done failed
            else sendAck.bind fun code => if code ≠ 0 then .done failed else next buffer) := by
  rw [exchange, List.append_assoc, Side.other_other]
  apply (follows_recStream length).bind
  · rintro _ rfl
    exact follows_guard follows_sendAck onward bad quit
  · rintro ⟨err, buffer⟩ (wrong : err ≠ 0)
    dsimp only
    rw [if_pos wrong]
    exact .done bad
  · exact fun _ nothing => nothing.elim

/-- Receiving into `call` the portions that `sent` has at the same places. -/
theorem follows_recPortions (me : Side) (sent : FuncCall) {indices : List (Fin dataPortions)}
    (distinct : indices.Nodup) (buffer : List UInt8) (call : FuncCall)
    (shape : ∀ i ∈ indices, (sent.dataP i).liveLen = (call.dataP i).liveLen) :
    Follows sslMedium me (delivery (Delivered sent call indices))
      (exchanges me.other (sent.portionItems indices)) (recPortions buffer call indices) := by
  induction indices generalizing buffer call with
  | nil => exact .of_done ⟨rfl, rfl, by simp, by simp⟩
  | cons i rest ih =>
      obtain ⟨fresh, distinct⟩ := List.nodup_cons.mp distinct
      have here := shape i List.mem_cons_self
      rw [recPortions]
      cases alive : (call.dataP i).live with
      | none =>
          have dead : (sent.dataP i).live = none := by
            simpa [DataPortion.liveLen, alive] using here
          rw [FuncCall.portionItems_cons_dead dead]
          have shorter := ih distinct buffer call fun j member =>
            shape j (List.mem_cons_of_mem i member)
          refine shorter.weaken ?_
          rintro result ⟨code, func, content, others⟩
          refine ⟨code, func, ?_, fun j absent => others j (List.not_mem_of_not_mem_cons absent)⟩
          intro j member
          rcases List.mem_cons.mp member with rfl | member
          · rw [others j fresh, DataPortion.content_of_not_live alive,
              DataPortion.content_of_not_live dead]
          · exact content j member
      | some block =>
          have sentLive : (sent.dataP i).liveLen = some (call.dataP i).len := by
            simpa [DataPortion.liveLen, alive] using here
          obtain ⟨sentBlock, sentAlive, sameLen⟩ := DataPortion.live_of_liveLen_eq_some sentLive
          have length := DataPortion.length_content_of_live sentAlive
          rw [sameLen] at length
          rw [FuncCall.portionItems_cons_live sentAlive, exchanges_cons]
          refine follows_receive (1, call)
            (fun buffer => recPortions buffer (call.setData i buffer) rest) length ?_
            codes_bad_one codes_bad_one
          have longer := ih distinct (store buffer 0 (sent.dataP i).content)
            (call.setData i (store buffer 0 (sent.dataP i).content)) (by
              intro j member
              have different : j ≠ i := fun same => fresh (same ▸ member)
              rw [FuncCall.dataP_setData_of_ne different]
              exact shape j (List.mem_cons_of_mem i member))
          refine longer.weaken ?_
          rintro result ⟨code, func, content, others⟩
          refine ⟨code, func, ?_, ?_⟩
          · intro j member
            rcases List.mem_cons.mp member with rfl | member
            · rw [others j fresh, FuncCall.dataP_setData_self,
                DataPortion.content_copyFrom alive (by simp [store_zero, length]), store_zero,
                List.take_left' length]
            · exact content j member
          · intro j absent
            have different : j ≠ i := fun same => absent (same ▸ List.mem_cons_self)
            rw [others j (List.not_mem_of_not_mem_cons absent),
              FuncCall.dataP_setData_of_ne different]

/-- The receiver of a record of the same shape ends with its id and all its portions. -/
theorem follows_recChallenge (me : Side) {sent call : FuncCall} (shape : sent.SameShape call) :
    Follows sslMedium me
      (delivery fun result => result.1 = 0 ∧ result.2.func = sent.func ∧
        ∀ i, (result.2.dataP i).content = (sent.dataP i).content)
      (exchanges me.other sent.items) (recChallenge call) := by
  rw [FuncCall.items, exchanges_cons]
  refine follows_receive (1, call)
    (fun buffer => recPortions buffer { call with func := idOfBytes (buffer.take 4) }
      (List.finRange dataPortions))
    (show (idBytes sent.func).length = idLen.toNat from rfl) ?_ codes_bad_one codes_bad_one
  rw [store_zero, List.take_left' (length_idBytes sent.func), idOfBytes_idBytes]
  have portions := follows_recPortions me sent (List.nodup_finRange dataPortions)
    (idBytes sent.func ++ (List.replicate bufSize 0).drop (idBytes sent.func).length)
    { call with func := sent.func } fun i _ => shape i
  refine portions.weaken ?_
  rintro result ⟨code, func, content, _⟩
  exact ⟨code, func, fun i => content i (List.mem_finRange i)⟩

end Uc1Integration.Transport
