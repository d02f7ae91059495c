import Uc1Integration.Interaction.Feeds
import Uc1Integration.Transport.Stages

/-!
# What a reception makes of a stream

`recStream` on a finite stream that ends, however the stream is cut into reads:
it returns, and its result and what it leaves of the stream are those of a
reference that looks at the stream as a whole.
-/

set_option autoImplicit false

namespace Uc1Integration.Transport

open Interaction Program

/-- The index of the earliest start sequence. -/
def firstStart (bytes : List UInt8) : Option Nat :=
  (List.range bytes.length).find? fun index => startSeq.isPrefixOf (bytes.drop index)

structure Outcome where
  code : Int
  out : List UInt8
  consumed : Nat
  deriving DecidableEq, Repr

def reference (outBuf : List UInt8) (len : Nat) (bytes : List UInt8) : Outcome :=
  match firstStart bytes with
  | none => ⟨1, outBuf, bytes.length⟩
  | some index =>
      let behind := bytes.drop (index + 4)
      if index + 4 + len + 4 ≤ bytes.length then
        ⟨if (behind.drop len).take 4 = stopSeq then 0 else 1, store outBuf 0 (behind.take len),
          index + 4 + len + 4⟩
      else ⟨1, store outBuf 0 (behind.take len), bytes.length⟩

/-- A stream read by the schedule. Once it is at its end a read reports `ended`. -/
abbrev deliver (ended : SslFailure) (schedule : Nat → Nat) :
    Feed UInt8 → (call : StreamCall UInt8) → StreamAnswer UInt8 SslFailure call × Feed UInt8 :=
  Feed.answer (.negative .wantRead) ended schedule

theorem startSeq_prefix_drop_iff {bytes : List UInt8} {index : Nat} :
    startSeq <+: bytes.drop index ↔
      index + 4 ≤ bytes.length ∧ startSeq <:+ bytes.take (index + 4) := by
  have four : startSeq.length = 4 := rfl
  have taken : bytes.take (index + 4) = bytes.take index ++ (bytes.drop index).take 4 := by
    rw [List.take_add]
  constructor
  · intro here
    have enough := here.length_le
    rw [List.length_drop] at enough
    have same := List.prefix_iff_eq_take.mp here
    rw [four] at same
    rw [taken, ← same]
    exact ⟨by omega, List.suffix_append _ _⟩
  · rintro ⟨enough, here⟩
    have length : ((bytes.drop index).take 4).length = 4 := by
      rw [List.length_take, List.length_drop]
      omega
    rw [taken] at here
    obtain ⟨before, same⟩ := here
    have whole := List.append_inj_right' same (by rw [length, four])
    rw [whole]
    exact List.take_prefix _ _

theorem firstStart_le {bytes : List UInt8} {index : Nat} (here : startSeq <+: bytes.drop index) :
    ∃ first, first ≤ index ∧ firstStart bytes = some first := by
  cases found : firstStart bytes with
  | none =>
      rw [firstStart, List.find?_range_eq_none] at found
      have inside : index < bytes.length := by
        have enough := (startSeq_prefix_drop_iff.mp here).1
        omega
      have absent := found index inside
      rw [Bool.not_eq_true', ← Bool.not_eq_true, List.isPrefixOf_iff_prefix] at absent
      exact absurd here absent
  | some first =>
      refine ⟨first, ?_, rfl⟩
      rw [firstStart, List.find?_range_eq_some] at found
      by_contra later
      have absent := found.2.2 index (Nat.lt_of_not_le later)
      rw [Bool.not_eq_true', ← Bool.not_eq_true, List.isPrefixOf_iff_prefix] at absent
      exact absent here

theorem firstStart_of_unseen {bytes : List UInt8} (unseen : Unseen bytes) :
    firstStart bytes = none := by
  rw [firstStart, List.find?_range_eq_none]
  intro index _
  rw [Bool.not_eq_true', ← Bool.not_eq_true, List.isPrefixOf_iff_prefix, startSeq_prefix_drop_iff]
  rintro ⟨_, here⟩
  exact unseen _ (List.take_prefix _ _) here

theorem firstStart_of_endsAtStart {hunted : List UInt8} (start : EndsAtStart hunted)
    (rest : List UInt8) :
    ∃ index, firstStart (hunted ++ rest) = some index ∧ hunted.length = index + 4 := by
  have enough : 4 ≤ hunted.length := start.1.length_le
  obtain ⟨index, length⟩ := Nat.exists_eq_add_of_le' enough
  refine ⟨index, ?_, length⟩
  have whole : (hunted ++ rest).take (index + 4) = hunted := List.take_left' length
  rw [firstStart, List.find?_range_eq_some]
  refine ⟨?_, ?_, ?_⟩
  · rw [List.isPrefixOf_iff_prefix, startSeq_prefix_drop_iff, whole, List.length_append]
    exact ⟨by omega, start.1⟩
  · rw [List.mem_range, List.length_append]
    omega
  · intro earlier before
    rw [Bool.not_eq_true', ← Bool.not_eq_true, List.isPrefixOf_iff_prefix, startSeq_prefix_drop_iff]
    rintro ⟨_, here⟩
    have shorter : (hunted ++ rest).take (earlier + 4) <+: (hunted ++ rest).take (index + 4) := by
      apply List.take_prefix_take_left
      omega
    rw [whole] at shorter
    have same := congrArg List.length (start.2 _ shorter here)
    rw [List.length_take, List.length_append] at same
    omega

/-- What reads answered by a stream have made of it. -/
structure Drained (bytes : List UInt8) (events : List SslEvent) (rest : List UInt8) : Prop where
  bytes_eq : bytes = bytesRead events ++ rest
  valid : ∀ event ∈ events, SslEvent.Valid event
  ended : (∃ event ∈ events, event.Broken) → rest = []

theorem Drained.append {bytes middle rest : List UInt8} {first second : List SslEvent}
    (one : Drained bytes first middle) (two : Drained middle second rest) :
    Drained bytes (first ++ second) rest where
  bytes_eq := by rw [one.bytes_eq, two.bytes_eq, bytesRead_append, List.append_assoc]
  valid := List.forall_mem_append.mpr ⟨one.valid, two.valid⟩
  ended := by
    rintro ⟨event, member, broken⟩
    cases List.mem_append.mp member with
    | inr later => exact two.ended ⟨event, later, broken⟩
    | inl earlier =>
        have none := two.bytes_eq
        rw [one.ended ⟨event, earlier, broken⟩] at none
        exact (List.append_eq_nil_iff.mp none.symm).2

section Deliver

variable {ended : SslFailure} {schedule : Nat → Nat}

/-- One read is answered by the next bytes of the stream; it fails only at the end. -/
theorem drained_read (feed : Feed UInt8) {limit : Nat} (positive : 0 < limit) :
    Drained feed.rest [⟨.read limit, (deliver ended schedule feed (.read limit)).1⟩]
      (deliver ended schedule feed (.read limit)).2.rest := by
  dsimp only [deliver, Feed.answer]
  split
  next => exact ⟨rfl, by simp [SslEvent.Valid, ValidTransfer], by simp [SslEvent.Broken]⟩
  next moves =>
    split
    next empty =>
      rw [List.isEmpty_iff] at empty
      exact ⟨rfl, by simp [SslEvent.Valid, ValidTransfer], fun _ => empty⟩
    next some =>
      have length : 0 < feed.rest.length := by
        rw [List.length_pos_iff]
        intro none
        exact some (List.isEmpty_iff.mpr none)
      constructor
      · rw [bytesRead_received, List.take_append_drop]
      · intro event member
        cases List.mem_singleton.mp member
        constructor
        · rw [List.length_take]
          omega
        · rw [List.length_take]
          omega
      · rintro ⟨event, member, broken⟩
        cases List.mem_singleton.mp member
        exact broken.elim

theorem drained_of_answered {feed final : Feed UInt8} {events : List SslEvent}
    (answered : Answered (deliver ended schedule) feed events final)
    (reads : ∀ event ∈ events, IsRead event.1) : Drained feed.rest events final.rest := by
  induction events generalizing feed with
  | nil =>
      cases answered
      exact ⟨rfl, nofun, fun ⟨_, member, _⟩ => absurd member List.not_mem_nil⟩
  | cons event events ih =>
      obtain ⟨call, answer⟩ := event
      obtain ⟨here, later⟩ := answered
      rw [List.forall_mem_cons] at reads
      cases call with
      | write => exact reads.1.elim
      | read limit =>
          have first : Drained feed.rest [⟨.read limit, (deliver ended schedule feed (.read limit)).1⟩]
              (deliver ended schedule feed (.read limit)).2.rest := drained_read feed reads.1
          have both := first.append (ih later reads.2)
          rw [← here] at both
          exact both

theorem ends_readExact (fair : Fair schedule) (fatal : ended ≠ .negative .wantRead)
    (buf : List UInt8) (len : UInt8) : Ends (deliver ended schedule) (readExact buf len) := by
  unfold readExact
  apply Ends.ite
  · apply ends_iterate_feed fair
    · intro state state' again
      cases ended with
      | zero => cases again
      | negative error =>
          have other : error ≠ .wantRead := fun same => fatal (by rw [same])
          simp only [readExactBody, if_pos other] at again
          cases again
    · intro state state' data more
      simp only [readExactBody] at more
      split at more
      next short => omega
      next => cases more
  · exact ends_done _

theorem ends_huntStart (fair : Fair schedule) (fatal : ended ≠ .negative .wantRead) :
    Ends (deliver ended schedule) huntStart := by
  apply ends_iterate_feed fair
  · intro state state' again
    cases ended with
    | zero => cases again
    | negative error =>
        have other : error ≠ .wantRead := fun same => fatal (by rw [same])
        simp only [huntBody, if_pos other] at again
        cases again
  · intro _ _ _ _
    exact Nat.one_pos

theorem ends_recStream (fair : Fair schedule) (fatal : ended ≠ .negative .wantRead)
    (outBuf : List UInt8) (len : UInt8) :
    Ends (deliver ended schedule) (recStream outBuf len) := by
  refine Ends.bind (ends_huntStart fair fatal) fun found => ?_
  cases found with
  | none => exact ends_done _
  | some seqBuf =>
      refine Ends.bind (ends_readExact fair fatal outBuf len) fun filled => ?_
      refine Ends.ite (ends_done _)
        (Ends.bind (ends_readExact fair fatal seqBuf stopSeqLen) fun window => ?_)
      exact Ends.ite (ends_done _) (Ends.ite (ends_done _) (ends_done _))

theorem reference_none {outBuf : List UInt8} {len : Nat} {bytes : List UInt8}
    (unseen : Unseen bytes) : reference outBuf len bytes = ⟨1, outBuf, bytes.length⟩ := by
  rw [reference, firstStart_of_unseen unseen]

/-- The reference on a stream that has a start sequence. -/
theorem reference_start {outBuf : List UInt8} {len : Nat} {hunted behind : List UInt8}
    (start : EndsAtStart hunted) :
    reference outBuf len (hunted ++ behind) =
      if len + 4 ≤ behind.length then
        ⟨if (behind.drop len).take 4 = stopSeq then 0 else 1, store outBuf 0 (behind.take len),
          hunted.length + len + 4⟩
      else ⟨1, store outBuf 0 (behind.take len), hunted.length + behind.length⟩ := by
  obtain ⟨index, found, length⟩ := firstStart_of_endsAtStart start behind
  have cut : (hunted ++ behind).drop (index + 4) = behind := List.drop_left' length
  rw [reference, found]
  dsimp only
  rw [cut, List.length_append, length]
  have enough : index + 4 + len + 4 ≤ index + 4 + behind.length ↔ len + 4 ≤ behind.length := by
    omega
  simp only [enough]

/-- What `recStream` returns, and what it leaves of the stream, are the reference's. -/
def MatchesReference (expected : Outcome) (bytes : List UInt8) (result : Int × List UInt8)
    (rest : List UInt8) : Prop :=
  result = (expected.code, expected.out) ∧ rest = bytes.drop expected.consumed

/-- A whole payload and what came of the stop sequence. -/
theorem matches_of_payload {outBuf hunted body closing rest : List UInt8} {len : Nat}
    {result : Int × List UInt8} (start : EndsAtStart hunted) (whole : body.length = len)
    (stop : closing.length = 4 ∨ closing.length < 4 ∧ rest = [])
    (code : result.1 = if closing = stopSeq then 0 else 1) (filled : result.2 = store outBuf 0 body) :
    MatchesReference (reference outBuf len (hunted ++ (body ++ (closing ++ rest))))
      (hunted ++ (body ++ (closing ++ rest))) result rest := by
  have payload : (body ++ (closing ++ rest)).take len = body := List.take_left' whole
  have behind : (body ++ (closing ++ rest)).drop len = closing ++ rest := List.drop_left' whole
  rw [reference_start start, payload, behind]
  obtain four | ⟨short, none⟩ := stop
  · rw [if_pos (by simp only [List.length_append]; omega), List.take_left' four, ← code, ← filled]
    refine ⟨rfl, ?_⟩
    rw [← List.append_assoc, ← List.append_assoc, List.drop_left']
    simp only [List.length_append]
    omega
  · have other : closing ≠ stopSeq := by
      intro same
      rw [same] at short
      exact absurd short (by decide)
    rw [if_neg other] at code
    subst none
    rw [if_neg (by simp only [List.length_append, List.length_nil]; omega), ← code, ← filled]
    refine ⟨rfl, ?_⟩
    rw [List.drop_of_length_le (by simp)]

theorem matches_of_streamEnd {outBuf : List UInt8} {len : Nat} {feed final : Feed UInt8}
    {events : List SslEvent} {result : Int × List UInt8}
    (answered : Answered (deliver ended schedule) feed events final)
    (reads : ∀ event ∈ events, IsRead event.1) (returned : StreamEnd outBuf len events result) :
    MatchesReference (reference outBuf len feed.rest) feed.rest result final.rest := by
  have drained := drained_of_answered answered reads
  cases returned with
  | lost broken unseen =>
      obtain ⟨_, broken⟩ := broken
      have none := drained.ended ⟨_, by simp, broken⟩
      have all := drained.bytes_eq
      rw [none, List.append_nil] at all
      rw [← all] at unseen
      rw [reference_none unseen, none]
      exact ⟨rfl, by simp⟩
  | @ended hunted body closing _ _ _ unbroken start payload stop code filled =>
      have all := drained.bytes_eq
      rw [bytesRead_append, bytesRead_append, List.append_assoc, List.append_assoc] at all
      rw [all]
      cases payload with
      | full _ whole =>
          refine matches_of_payload start whole ?_ code filled
          cases stop with
          | full _ four => exact .inl four
          | cut broken short =>
              obtain ⟨_, broken⟩ := broken
              exact .inr ⟨short, drained.ended ⟨_, by simp, broken⟩⟩
      | cut broken short =>
          -- The stream is at its end already, so nothing is read behind the payload.
          obtain ⟨middle, first, second⟩ := answered_append.mp answered
          have before := drained_of_answered first fun event member =>
            reads event (List.mem_append_left closing member)
          have after := drained_of_answered second fun event member =>
            reads event (List.mem_append_right (hunted ++ body) member)
          obtain ⟨_, broken⟩ := broken
          have none := after.bytes_eq
          rw [before.ended ⟨_, by simp, broken⟩] at none
          obtain ⟨nothing, atEnd⟩ := List.append_eq_nil_iff.mp none.symm
          rw [nothing] at code ⊢
          rw [atEnd, List.append_nil, List.append_nil, reference_start start,
            List.take_of_length_le short.le, if_neg (by omega), ← filled]
          rw [if_neg (by decide)] at code
          rw [← code]
          exact ⟨rfl, by simp⟩

theorem matches_recStream (fair : Fair schedule) (fatal : ended ≠ .negative .wantRead)
    (outBuf : List UInt8) (len : UInt8) (feed : Feed UInt8) :
    ∃ events result final,
      Plays (deliver ended schedule) feed (recStream outBuf len) events (.done result) final ∧
      MatchesReference (reference outBuf len.toNat feed.rest) feed.rest result final.rest := by
  obtain ⟨events, result, final, plays⟩ := ends_recStream fair fatal outBuf len feed
  have reads := uses_recStream outBuf len plays.runs
  have drained := drained_of_answered plays.answered reads
  exact ⟨events, result, final, plays,
    matches_of_streamEnd plays.answered reads (streamEnd drained.valid plays.runs)⟩

/-- However a stream is cut into reads, `recStream` returns what the reference
returns and consumes as much. -/
theorem recStream_reference (fair : Fair schedule) (fatal : ended ≠ .negative .wantRead)
    (outBuf : List UInt8) (len : UInt8) (feed : Feed UInt8) :
    ∃ events final,
      Plays (deliver ended schedule) feed (recStream outBuf len) events
        (.done ((reference outBuf len.toNat feed.rest).code,
          (reference outBuf len.toNat feed.rest).out)) final ∧
      final.rest = feed.rest.drop (reference outBuf len.toNat feed.rest).consumed := by
  obtain ⟨events, result, final, plays, rfl, rest⟩ := matches_recStream fair fatal outBuf len feed
  exact ⟨events, final, plays, rest⟩

end Deliver

theorem recStream_reference_split :
    ∃ events final,
      Plays (deliver (.zero (.other 0)) fun turn => turn % 3) ⟨[7] ++ frame [1, 2] ++ [9], 0⟩
        (recStream [0, 0, 0] 2) events (.done (0, [1, 2, 0])) final ∧ final.rest = [9] :=
  recStream_reference (by
    intro turn
    refine ⟨3 * turn + 1, by omega, ?_⟩
    show (3 * turn + 1) % 3 ≠ 0
    omega) (by decide) [0, 0, 0] 2 ⟨[7] ++ frame [1, 2] ++ [9], 0⟩

/-- `recStream` takes a frame whole that comes after other bytes. -/
def Resynchronises (ended : SslFailure) (schedule : Nat → Nat) (outBuf : List UInt8) (len : UInt8)
    (noise payload : List UInt8) : Prop :=
  ∃ events final,
    Plays (deliver ended schedule) ⟨noise ++ frame payload, 0⟩ (recStream outBuf len) events
      (.done (0, store outBuf 0 payload)) final ∧ final.rest = []

theorem getLast_of_suffix {noise : List UInt8} {count : Nat} (few : count < 4)
    (seen : startSeq <:+ noise ++ List.replicate count 0x55) : noise.getLast? = some 0x55 := by
  obtain ⟨before, same⟩ := seen
  have parts : startSeq = List.replicate (3 - count) 0x55 ++ [0x55] ++ List.replicate count 0x55 := by
    rw [← List.replicate_succ', List.replicate_append_replicate]
    have four : 3 - count + 1 + count = 4 := by omega
    rw [four]
    rfl
  rw [parts, ← List.append_assoc, ← List.append_assoc] at same
  rw [← List.append_cancel_right same, List.getLast?_concat]

/-- Noise without a start sequence ends where the next one starts, unless its last
byte could be the first of that sequence. -/
theorem endsAtStart_append_iff {noise : List UInt8} (quiet : ¬ startSeq <:+: noise) :
    EndsAtStart (noise ++ startSeq) ↔ noise.getLast? ≠ some 0x55 := by
  constructor
  · intro start last
    obtain ⟨before, rfl⟩ := List.getLast?_eq_some_iff.mp last
    have shifted : before ++ [0x55] ++ startSeq = before ++ startSeq ++ [0x55] := by
      simp [startSeq]
    have same := start.2 (before ++ startSeq) (shifted ▸ List.prefix_append _ _)
      (List.suffix_append _ _)
    have length := congrArg List.length same
    simp only [List.length_append, List.length_singleton] at length
    omega
  · intro other
    refine ⟨List.suffix_append _ _, ?_⟩
    intro earlier before seen
    cases List.prefix_or_prefix_of_prefix before (List.prefix_append noise startSeq) with
    | inl within => exact absurd (seen.isInfix.trans within.isInfix) quiet
    | inr beyond =>
        obtain ⟨part, rfl⟩ := beyond
        have inside : part <+: List.replicate 4 0x55 := (List.prefix_append_right_inj noise).mp before
        obtain ⟨bound, same⟩ := List.prefix_replicate_iff.mp inside
        by_cases whole : part.length = 4
        · rw [same, whole]
          rfl
        · rw [same] at seen
          exact absurd (getLast_of_suffix (by omega) seen) other

theorem resynchronises_iff {ended : SslFailure} {schedule : Nat → Nat} (fair : Fair schedule)
    (fatal : ended ≠ .negative .wantRead) {outBuf noise payload : List UInt8} {len : UInt8}
    (quiet : ¬ startSeq <:+: noise) (length : payload.length = len.toNat) :
    Resynchronises ended schedule outBuf len noise payload ↔ noise.getLast? ≠ some 0x55 := by
  obtain ⟨events, result, final, plays, matched⟩ :=
    matches_recStream fair fatal outBuf len ⟨noise ++ frame payload, 0⟩
  have parts : noise ++ frame payload = noise ++ startSeq ++ (payload ++ (stopSeq ++ [])) := by
    simp [frame]
  constructor
  · rintro ⟨events', final', whole, none⟩ last
    obtain ⟨_, _, rfl⟩ := plays.unique whole
    have all := matched.2
    rw [none, eq_comm, List.drop_eq_nil_iff] at all
    obtain ⟨before, rfl⟩ := List.getLast?_eq_some_iff.mp last
    have here : startSeq <+: (before ++ [0x55] ++ frame payload).drop before.length := by
      rw [List.append_assoc, List.drop_left]
      exact ⟨0x55 :: (payload ++ stopSeq), by simp [frame, startSeq]⟩
    obtain ⟨first, early, found⟩ := firstStart_le here
    have size : (before ++ [0x55] ++ frame payload).length = before.length + 1 + (len.toNat + 8) := by
      simp [frame, startSeq, stopSeq, length]
      omega
    dsimp only [reference] at all
    rw [found] at all
    dsimp only at all
    rw [if_pos (by omega), size] at all
    dsimp only at all
    omega
  · intro other
    have start := (endsAtStart_append_iff quiet).mpr other
    rw [parts] at matched plays
    rw [reference_start start, if_pos (by simp [length, stopSeq]),
      List.take_left' length, List.drop_left' length] at matched
    obtain ⟨same, rest⟩ := matched
    have matched : (stopSeq ++ []).take 4 = stopSeq := rfl
    rw [matched, if_pos rfl] at same
    subst same
    refine ⟨events, final, ?_, ?_⟩
    · rw [parts]
      exact plays
    · rw [rest, List.drop_eq_nil_iff]
      simp [length, stopSeq]
      omega

theorem resynchronises_noise :
    ¬ startSeq <:+: [0x55, 7] ∧ [0x55, (7 : UInt8)].getLast? ≠ some 0x55 ∧
      Resynchronises (.zero (.other 0)) (fun _ => 2) [0] 1 [0x55, 7] [9] :=
  have quiet : ¬ startSeq <:+: [0x55, 7] := by decide
  ⟨quiet, by decide, (resynchronises_iff (fun turn => ⟨turn, Nat.le_refl turn, Nat.succ_ne_zero 1⟩)
    (by decide) quiet rfl).mpr (by decide)⟩

theorem not_resynchronises :
    ¬ ∀ ended schedule, Fair schedule → ended ≠ SslFailure.negative .wantRead →
      ∀ outBuf len noise payload, ¬ startSeq <:+: noise → payload.length = len.toNat →
        Resynchronises ended schedule outBuf len noise payload := by
  intro all
  obtain ⟨events, final, one, _⟩ := all (.zero (.other 0)) (fun _ => 1)
    (fun turn => ⟨turn, Nat.le_refl turn, Nat.one_ne_zero⟩) (by decide) [0] 1 [0x55] [9] (by decide) rfl
  obtain ⟨final', two⟩ := plays_play (deliver (.zero (.other 0)) fun _ => 1) 9
    ⟨[0x55] ++ frame [9], 0⟩ (recStream [0] 1)
  have rejects : (play (deliver (.zero (.other 0)) fun _ => 1) 9 ⟨[0x55] ++ frame [9], 0⟩
      (recStream [0] 1)).2 = .done (1, [0x55]) := rfl
  rw [rejects] at two
  obtain ⟨_, same, _⟩ := one.unique two
  cases same

end Uc1Integration.Transport
