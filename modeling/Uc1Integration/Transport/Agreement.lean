import Mathlib.Data.List.Infix
import Uc1Integration.Interaction.FailingLink
import Uc1Integration.Transport.Transfer

/-!
# Agreement when connections fail

A sender that has all its acknowledgements was answered by a receiver that has
the whole record, wherever the connections broke and whatever was lost.
-/

set_option autoImplicit false

namespace Uc1Integration.Transport

open Interaction Conversation

/-- The complete acknowledgements at the head of what was read. -/
def acks : List UInt8 → Nat
  | one :: two :: three :: rest => if [one, two, three] = ackStr then acks rest + 1 else 0
  | _ => 0

/-- The frames of the expected payload lengths that were read whole, delimiters included. -/
def wholeFrames : List Nat → List UInt8 → Nat
  | [], _ => 0
  | len :: lens, heard =>
      if heard.take startSeq.length = startSeq ∧
          (heard.drop (startSeq.length + len)).take stopSeq.length = stopSeq then
        wholeFrames lens (heard.drop (startSeq.length + len + stopSeq.length)) + 1
      else 0

def FuncCall.frameLens (call : FuncCall) : List Nat :=
  idLen.toNat ::
    (List.finRange dataPortions).filterMap fun i => (call.dataP i).liveLen.map UInt8.toNat

theorem acks_ackStr_append (rest : List UInt8) : acks (ackStr ++ rest) = acks rest + 1 := by
  simp [ackStr, acks]

theorem acks_of_length_lt {bytes : List UInt8} (short : bytes.length < 3) : acks bytes = 0 := by
  match bytes with
  | [] => rfl
  | [_] => rfl
  | [_, _] => rfl
  | _ :: _ :: _ :: _ =>
      simp only [List.length_cons] at short
      omega

theorem wholeFrames_frame_append (data rest : List UInt8) (lens : List Nat) :
    wholeFrames (data.length :: lens) (frame data ++ rest) = wholeFrames lens rest + 1 := by
  have parts : frame data ++ rest = startSeq ++ (data ++ (stopSeq ++ rest)) := by
    simp [frame]
  have behind : (frame data ++ rest).drop (startSeq.length + data.length) = stopSeq ++ rest := by
    rw [parts, ← List.drop_drop, List.drop_left, List.drop_left]
  rw [wholeFrames, if_pos, ← List.drop_drop, behind, List.drop_left]
  constructor
  · rw [parts, List.take_left]
  · rw [behind, List.take_left]

theorem exchange_eq_concat (sender : Side) (data : List UInt8) :
    exchange sender data =
      (saying sender (frame data) ++ saying sender.other [0x41, 0x43]) ++
        saying sender.other [0x4B] := by
  simp [exchange, ackStr, saying]

/-- At no point of the exchanges are there more acknowledgements than frames. -/
theorem acks_le_wholeFrames (sender : Side) (items : List (List UInt8))
    {said : Conversation UInt8} (said_so_far : said <+: exchanges sender items) :
    acks (saidBy sender.other said) ≤
      wholeFrames (items.map List.length) (saidBy sender said) := by
  induction items generalizing said with
  | nil =>
      rw [List.eq_nil_of_prefix_nil said_so_far]
      exact Nat.le_refl 0
  | cons data items ih =>
      rw [exchanges_cons] at said_so_far
      by_cases whole : exchange sender data <+: said
      · obtain ⟨later, rfl⟩ := whole
        rw [List.prefix_append_right_inj] at said_so_far
        have onward := ih said_so_far
        have frames : saidBy sender (exchange sender data) = frame data := by
          simp [exchange]
        have answers : saidBy sender.other (exchange sender data) = ackStr := by
          simp [exchange]
        rw [saidBy_append, saidBy_append, frames, answers, acks_ackStr_append, List.map_cons,
          wholeFrames_frame_append]
        exact Nat.succ_le_succ onward
      · -- The last byte of the first acknowledgement is still missing.
        have inside : said <+: exchange sender data := by
          rcases List.prefix_or_prefix_of_prefix said_so_far
            (List.prefix_append (exchange sender data) _) with before | after
          · exact before
          · exact absurd after whole
        obtain ⟨missing, complete⟩ := inside
        have some : missing ≠ [] := by
          rintro rfl
          rw [List.append_nil] at complete
          exact whole (complete ▸ List.prefix_refl said)
        obtain ⟨front, last, rfl⟩ := List.eq_nil_or_concat missing |>.resolve_left some
        rw [exchange_eq_concat, List.concat_eq_append, ← List.append_assoc] at complete
        have answers := congrArg (saidBy sender.other)
          (List.append_inj_left' complete (by simp [saying]))
        have short : (saidBy sender.other said).length < 3 := by
          have lengths := congrArg List.length answers
          simp only [saidBy_append, List.length_append, saidBy_saying, saidBy_saying_other,
            List.length_cons, List.length_nil] at lengths
          omega
        rw [acks_of_length_lt short]
        exact Nat.zero_le _

theorem FuncCall.length_items {sent kept : FuncCall} (shape : sent.SameShape kept) :
    sent.items.map List.length = kept.frameLens := by
  have portions : ∀ indices : List (Fin dataPortions),
      (sent.portionItems indices).map List.length =
        indices.filterMap fun i => (kept.dataP i).liveLen.map UInt8.toNat := by
    intro indices
    induction indices with
    | nil => rfl
    | cons i rest ih =>
        rw [List.filterMap_cons, ← shape i, ← ih]
        cases alive : (sent.dataP i).live with
        | none => simp [portionItems_cons_dead alive, DataPortion.liveLen, alive]
        | some block =>
            simp [portionItems_cons_live alive, DataPortion.liveLen, alive,
              DataPortion.length_content_of_live alive]
  rw [items, List.map_cons, portions]
  rfl

theorem exchanges_lastWord (sender : Side) {items : List (List UInt8)} (some : items ≠ []) :
    ∃ before byte, exchanges sender items = before ++ saying sender.other [byte] := by
  obtain ⟨front, last, rfl⟩ := List.eq_nil_or_concat items |>.resolve_left some
  have ending : exchanges sender (front.concat last) =
      exchanges sender front ++ exchange sender last := by
    simp [exchanges]
  rw [ending, exchange_eq_concat, ← List.append_assoc]
  exact ⟨_, _, rfl⟩

theorem Transfer.sender_agrees {Name : Type} {transfer : Transfer Name}
    {memories : Side → Name → FuncCall}
    (shape : (memories transfer.sender transfer.sent).SameShape
      (memories transfer.sender.other transfer.kept))
    {link : FailingLink UInt8 SslFailure (Int × FuncCall)}
    (reaches : FailingLink.Reaches sslMedium
      (FailingLink.start fun side => transfer.run side (memories side)) link) :
    (∀ sends receives : Int × FuncCall,
      (link.program transfer.sender).view = .done sends →
      (link.program transfer.sender.other).view = .done receives →
      sends.1 = 0 →
      receives.1 = 0 ∧ receives.2.func = (memories transfer.sender transfer.sent).func ∧
        ∀ i, (receives.2.dataP i).content =
          ((memories transfer.sender transfer.sent).dataP i).content) ∧
      acks (link.heard transfer.sender) ≤
        wholeFrames (memories transfer.sender.other transfer.kept).frameLens
          (link.heard transfer.sender.other) := by
  have along := (FailingLink.along_start fun side =>
    transfer.follows_run shape side fun _ => rfl).reaches reaches
  constructor
  · intro sends receives finished otherFinished success
    have lastWord := exchanges_lastWord transfer.sender
      (show (memories transfer.sender transfer.sent).items ≠ [] from List.cons_ne_nil _ _)
    obtain ⟨_, code, contents⟩ := along.agreement lastWord finished
      ⟨fun failed => failed success, fun failed => failed success⟩ otherFinished
    exact ⟨code, congrArg Contents.func contents, congrFun (congrArg Contents.portion contents)⟩
  · obtain ⟨said, sofar, heard⟩ := along.heard
    rw [heard transfer.sender, heard transfer.sender.other, Side.other_other,
      ← FuncCall.length_items shape]
    exact acks_le_wholeFrames transfer.sender _ sofar

/-- A whole challenge is acknowledged before the receiver's connection breaks. -/
theorem Transfer.sender_agrees_late_failure :
    ∃ link : FailingLink UInt8 SslFailure (Int × FuncCall),
      link.broken .right = true ∧ 2 ≤ wholeFrames [4, 11] (link.heard .right) ∧
        ∃ receives : Int × FuncCall, (link.program .right).view = .done receives ∧
          receives.1 = 0 ∧ receives.2.func = pufTaInitFuncId := by
  let transfer : Transfer Unit := ⟨.left, .challenge, .challenge, (), ()⟩
  let order : List (Side × Nat) := (List.replicate 30 [(.left, 3), (.right, 3)]).flatten
  let before := FailingLink.turns
    (FailingLink.start fun side => transfer.run side (delimiterMemories side)) order
  let link := { before with broken := Function.update before.broken .right true }
  have reaches : FailingLink.Reaches sslMedium
      (FailingLink.start fun side => transfer.run side (delimiterMemories side)) link :=
    (FailingLink.reaches_turns sslMedium _ order).tail (.fail .right)
  have shape : (delimiterMemories .left ()).SameShape (delimiterMemories .right ()) := by decide
  obtain ⟨agrees, counted⟩ := Transfer.sender_agrees shape reaches
  have answered : acks (link.heard transfer.sender) = 2 := by decide +kernel
  have success : (link.program transfer.sender).result?.map Prod.fst = some 0 := by decide +kernel
  have ended : (link.program transfer.sender.other).result?.isSome = true := by decide +kernel
  obtain ⟨sends, finished, code⟩ := Option.map_eq_some_iff.mp success
  obtain ⟨receives, otherFinished⟩ := Option.isSome_iff_exists.mp ended
  rw [← Program.view_eq_done_iff] at finished otherFinished
  obtain ⟨received, func, _⟩ := agrees sends receives finished otherFinished code
  have expected : (delimiterMemories transfer.sender.other transfer.kept).frameLens = [4, 11] := by
    decide
  rw [answered, expected] at counted
  have broken : link.broken .right = true := rfl
  have receiver : transfer.sender.other = .right := rfl
  rw [receiver] at counted otherFinished
  exact ⟨link, broken, counted, receives, otherFinished, received, func⟩

end Uc1Integration.Transport
