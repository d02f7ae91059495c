import Mathlib.Data.List.Range
import Uc1Integration.Interaction.Environments
import Uc1Integration.Transport.Stages

/-!
# Read errors

`recStream` against every sequence of `wolfSSL_read` results. `readExact` returns
1 on an error and `recStream` looks for a negative code, so an error in the
payload shows only in the stop sequence read after it.
-/

set_option autoImplicit false

namespace Uc1Integration.Transport

open Interaction Program

abbrev ReadResults := Nat → ReadAnswer UInt8 SslFailure

/-- Each read gets the next result of the sequence. -/
def replay (results : ReadResults) (turn : Nat) :
    (call : StreamCall UInt8) → StreamAnswer UInt8 SslFailure call × Nat
  | .read _ => (results turn, turn + 1)
  | .write _ => (.failed (.zero (.other 0)), turn + 1)

/-- The results are none that `wolfSSL_read` never gives to the reads of the program. -/
def Admissible {α : Type} (results : ReadResults) (program : Ssl α) : Prop :=
  ∀ events final turn, Plays (replay results) 0 program events final turn →
    ∀ event ∈ events, SslEvent.Valid event

/-- A result that is no data, and not for want of data. -/
def Fails : ReadAnswer UInt8 SslFailure → Prop
  | .received _ => False
  | .failed (.zero _) => True
  | .failed (.negative error) => error ≠ .wantRead

def delivered : ReadAnswer UInt8 SslFailure → List UInt8
  | .received data => data
  | .failed _ => []

/-- The bytes of `count` results from `first` on. -/
def gained (results : ReadResults) (first count : Nat) : List UInt8 :=
  (List.range' first count).flatMap fun turn => delivered (results turn)

/-- Result `turn` is the first failure, and comes after the first start sequence
but before `len` more bytes. -/
structure Interrupted (results : ReadResults) (len turn : Nat) : Prop where
  fails : Fails (results turn)
  first : ∀ earlier < turn, ¬ Fails (results earlier)
  within : ∃ hunted rest, gained results 0 turn = hunted ++ rest ∧ EndsAtStart hunted ∧
    rest.length < len

/-- From result `first` on a read fails before four bytes have come, or four
bytes come that are no stop sequence. -/
def StopRefused (results : ReadResults) (first : Nat) : Prop :=
  ∃ count, (∀ turn < count, ¬ Fails (results (first + turn))) ∧
    ((Fails (results (first + count)) ∧ (gained results first count).length < stopSeq.length) ∨
      ((gained results first count).length = stopSeq.length ∧
        gained results first count ≠ stopSeq))

/-- Only a whole frame is accepted, and an error inside a frame is reported. -/
structure Reports (outBuf : List UInt8) (len : UInt8) (results : ReadResults) : Prop where
  whole : ∀ events out turn,
    Plays (replay results) 0 (recStream outBuf len) events (.done (0, out)) turn →
      ∃ hunted payload, bytesRead events = hunted ++ payload ++ stopSeq ∧ EndsAtStart hunted ∧
        payload.length = len.toNat ∧ out = store outBuf 0 payload
  noticed : ∀ turn, Interrupted results (len.toNat + stopSeq.length) turn →
    ∃ events out last, Plays (replay results) 0 (recStream outBuf len) events (.done (1, out)) last

theorem gained_add (results : ReadResults) (first count more : Nat) :
    gained results first (count + more) =
      gained results first count ++ gained results (first + count) more := by
  rw [gained, ← List.range'_append_1, List.flatMap_append]
  rfl

/-- These are reads, which got the results from `first` on. -/
def Replayed (results : ReadResults) : Nat → List SslEvent → Prop
  | _, [] => True
  | first, event :: events =>
      (∃ limit, event = ⟨.read limit, results first⟩) ∧ Replayed results (first + 1) events

theorem replayed_of_answered {results : ReadResults} {first last : Nat} {events : List SslEvent}
    (answered : Answered (replay results) first events last)
    (reads : ∀ event ∈ events, IsRead event.1) : Replayed results first events := by
  induction events generalizing first with
  | nil => trivial
  | cons event events ih =>
      obtain ⟨here, later⟩ := answered
      obtain ⟨call, answer⟩ := event
      have isRead := reads _ List.mem_cons_self
      cases call with
      | write => exact isRead.elim
      | read limit =>
          cases here
          exact ⟨⟨limit, rfl⟩, ih later fun event member => reads event (List.mem_cons_of_mem _ member)⟩

theorem Replayed.split {results : ReadResults} {first : Nat} {before after : List SslEvent}
    (replayed : Replayed results first (before ++ after)) :
    Replayed results first before ∧ Replayed results (first + before.length) after := by
  induction before generalizing first with
  | nil => exact ⟨trivial, replayed⟩
  | cons event before ih =>
      obtain ⟨here, later⟩ := replayed
      obtain ⟨one, two⟩ := ih later
      rw [List.length_cons, Nat.add_comm before.length, ← Nat.add_assoc]
      exact ⟨⟨here, one⟩, two⟩

theorem Replayed.bytes {results : ReadResults} {first : Nat} {events : List SslEvent}
    (replayed : Replayed results first events) :
    bytesRead events = gained results first events.length := by
  induction events generalizing first with
  | nil => rfl
  | cons event events ih =>
      obtain ⟨⟨limit, rfl⟩, later⟩ := replayed
      rw [List.length_cons, Nat.add_comm events.length, gained_add, ← ih later]
      cases answer : results first <;> simp [bytesRead, SslEvent.read, gained, delivered, answer]

theorem broken_read {limit : Nat} {answer : ReadAnswer UInt8 SslFailure} :
    SslEvent.Broken ⟨.read limit, answer⟩ ↔ Fails answer := by
  rcases answer with _ | _ | _ <;> rfl

theorem Replayed.unbroken_iff {results : ReadResults} {first : Nat} {events : List SslEvent}
    (replayed : Replayed results first events) :
    Unbroken events ↔ ∀ turn < events.length, ¬ Fails (results (first + turn)) := by
  induction events generalizing first with
  | nil => exact ⟨fun _ => nofun, fun _ => unbroken_nil⟩
  | cons event events ih =>
      obtain ⟨⟨limit, rfl⟩, later⟩ := replayed
      rw [List.length_cons, Nat.forall_lt_succ_left, Unbroken, List.forall_mem_cons, broken_read]
      have next : ∀ turn, first + (turn + 1) = first + 1 + turn := by
        intro turn
        omega
      have others := ih later
      simp only [← next] at others
      exact and_congr_right' others

/-- Where reads break off, the last of them got the first failure. -/
theorem Replayed.brokenOff {results : ReadResults} {first : Nat} {events : List SslEvent}
    (replayed : Replayed results first events) (broken : BrokenOff events) :
    ∃ count, events.length = count + 1 ∧ (∀ turn < count, ¬ Fails (results (first + turn))) ∧
      Fails (results (first + count)) ∧ bytesRead events = gained results first count := by
  cases broken with
  | @intro before event unbroken broken =>
      obtain ⟨earlier, ⟨limit, rfl⟩, _⟩ := replayed.split
      refine ⟨before.length, by simp, earlier.unbroken_iff.mp unbroken, broken_read.mp broken, ?_⟩
      rw [bytesRead_broken broken]
      exact earlier.bytes

theorem gained_mono (results : ReadResults) (first : Nat) {count more : Nat}
    (fewer : count ≤ more) : gained results first count <+: gained results first more := by
  obtain ⟨extra, rfl⟩ := Nat.exists_eq_add_of_le fewer
  rw [gained_add]
  exact List.prefix_append _ _

section Interrupted

variable {results : ReadResults} {len turn : Nat} {events : List SslEvent}

/-- Reads that are unbroken came before the first failure. -/
theorem Interrupted.length_le (strikes : Interrupted results len turn)
    (replayed : Replayed results 0 events) (unbroken : Unbroken events) : events.length ≤ turn := by
  by_contra later
  have fine := replayed.unbroken_iff.mp unbroken turn (by omega)
  rw [Nat.zero_add] at fine
  exact fine strikes.fails

theorem Interrupted.at_break (strikes : Interrupted results len turn)
    (replayed : Replayed results 0 events) (broken : BrokenOff events) :
    events.length = turn + 1 ∧ bytesRead events = gained results 0 turn := by
  obtain ⟨count, length, fine, fails, bytes⟩ := replayed.brokenOff broken
  simp only [Nat.zero_add] at fine fails
  have same : count = turn := by
    cases Nat.lt_trichotomy count turn with
    | inl before => exact absurd fails (strikes.first count before)
    | inr rest =>
        cases rest with
        | inl same => exact same
        | inr behind => exact absurd strikes.fails (fine turn behind)
  subst same
  exact ⟨length, bytes⟩

/-- The failure comes after the start sequence. -/
theorem Interrupted.not_lost (strikes : Interrupted results len turn)
    (replayed : Replayed results 0 events) (broken : BrokenOff events)
    (unseen : Unseen (bytesRead events)) : False := by
  obtain ⟨_, bytes⟩ := strikes.at_break replayed broken
  obtain ⟨hunted, rest, same, start, _⟩ := strikes.within
  rw [bytes, same] at unseen
  exact unseen hunted (List.prefix_append _ _) start.1

/-- What was read behind the start sequence before the failure is short. -/
theorem Interrupted.short {hunted body : List SslEvent} (strikes : Interrupted results len turn)
    (start : EndsAtStart (bytesRead hunted)) {more : List UInt8}
    (bytes : gained results 0 turn = bytesRead (hunted ++ body) ++ more) :
    (bytesRead body).length < len := by
  obtain ⟨before, rest, same, first, few⟩ := strikes.within
  rw [same, bytesRead_append, List.append_assoc] at bytes
  obtain ⟨_, rfl⟩ := first.unique start bytes
  rw [List.length_append] at few
  omega

theorem Interrupted.short_of_unbroken {hunted body : List SslEvent}
    (strikes : Interrupted results len turn) (replayed : Replayed results 0 (hunted ++ body))
    (unbroken : Unbroken (hunted ++ body)) (start : EndsAtStart (bytesRead hunted)) :
    (bytesRead body).length < len := by
  obtain ⟨more, bytes⟩ := gained_mono results 0 (strikes.length_le replayed unbroken)
  rw [← replayed.bytes] at bytes
  exact strikes.short start bytes.symm

end Interrupted

/-- A payload that is cut short is an interruption. -/
theorem interrupted_of_cut {results : ReadResults} {len : Nat} {hunted body : List SslEvent}
    (replayed : Replayed results 0 (hunted ++ body)) (unbroken : Unbroken hunted)
    (start : EndsAtStart (bytesRead hunted)) (broken : BrokenOff body)
    (short : (bytesRead body).length < len) :
    ∃ turn, (hunted ++ body).length = turn + 1 ∧ Interrupted results len turn := by
  obtain ⟨count, length, fine, fails, bytes⟩ := replayed.brokenOff (broken.behind unbroken)
  simp only [Nat.zero_add] at fine fails
  refine ⟨count, length, fails, fine, bytesRead hunted, bytesRead body, ?_, start, short⟩
  rw [← bytes, bytesRead_append]

/-- Whatever is refused, it is not a stop sequence that comes without a failure. -/
theorem StopRefused.not_stop {results : ReadResults} {first : Nat} {closing : List SslEvent}
    (refused : StopRefused results first) (replayed : Replayed results first closing)
    (unbroken : Unbroken closing) : bytesRead closing ≠ stopSeq := by
  intro stop
  rw [replayed.bytes] at stop
  obtain ⟨count, _, failing | other⟩ := refused
  · obtain ⟨fails, few⟩ := failing
    cases Nat.lt_or_ge count closing.length with
    | inl within => exact replayed.unbroken_iff.mp unbroken count within fails
    | inr beyond =>
        have least := (gained_mono results first beyond).length_le
        rw [stop] at least
        omega
  · obtain ⟨four, different⟩ := other
    apply different
    rw [← stop] at four ⊢
    cases Nat.le_total count closing.length with
    | inl within => exact (gained_mono results first within).eq_of_length four
    | inr beyond => exact ((gained_mono results first beyond).eq_of_length four.symm).symm

theorem stopRefused_of_exactStage {results : ReadResults} {first : Nat} {closing : List SslEvent}
    {code : Int} (replayed : Replayed results first closing)
    (stage : ExactStage stopSeqLen.toNat closing code) (other : bytesRead closing ≠ stopSeq) :
    StopRefused results first := by
  cases stage with
  | full unbroken whole =>
      rw [replayed.bytes] at whole other
      exact ⟨closing.length, replayed.unbroken_iff.mp unbroken, .inr ⟨whole, other⟩⟩
  | cut broken short =>
      obtain ⟨count, _, fine, fails, bytes⟩ := replayed.brokenOff broken
      rw [bytes] at short
      exact ⟨count, fine, .inl ⟨fails, short⟩⟩

/-- Reads that are unbroken and still short have not reached what is refused. -/
theorem StopRefused.length_le {results : ReadResults} {first : Nat} (refused : StopRefused results first) :
    ∃ count, ∀ closing : List SslEvent, Replayed results first closing → Unbroken closing →
      (bytesRead closing).length < stopSeqLen.toNat → closing.length ≤ count := by
  obtain ⟨count, _, refused⟩ := refused
  refine ⟨count, ?_⟩
  intro closing replayed unbroken short
  by_contra longer
  rw [replayed.bytes] at short
  obtain failing | other := refused
  · exact replayed.unbroken_iff.mp unbroken count (by omega) failing.1
  · have least := (gained_mono results first (Nat.le_of_not_le longer)).length_le
    have four : stopSeq.length = stopSeqLen.toNat := rfl
    omega

section Reports

variable {outBuf : List UInt8} {len : UInt8} {results : ReadResults}

theorem replayed_of_plays {events : List SslEvent} {final : Ssl (Int × List UInt8)} {last : Nat}
    (plays : Plays (replay results) 0 (recStream outBuf len) events final last) :
    Replayed results 0 events :=
  replayed_of_answered plays.answered (uses_recStream outBuf len plays.runs)

theorem Interrupted.unique {one two more less : Nat} (first : Interrupted results more one)
    (second : Interrupted results less two) : one = two := by
  cases Nat.lt_trichotomy one two with
  | inl before => exact absurd first.fails (second.first one before)
  | inr rest =>
      cases rest with
      | inl same => exact same
      | inr behind => exact absurd second.fails (first.first two behind)

/-- An error in the payload is followed by something that is no stop sequence. -/
def Caught (len : Nat) (results : ReadResults) : Prop :=
  ∀ turn, Interrupted results len turn → StopRefused results (turn + 1)

/-- The stop sequence is accepted only behind a whole payload. -/
theorem Caught.whole (caught : Caught len.toNat results) {hunted body closing : List SslEvent}
    {code stopCode : Int} (replayed : Replayed results 0 (hunted ++ body ++ closing))
    (unbroken : Unbroken hunted) (start : EndsAtStart (bytesRead hunted))
    (payload : ExactStage len.toNat body code) (stop : ExactStage stopSeqLen.toNat closing stopCode)
    (matched : bytesRead closing = stopSeq) :
    Unbroken body ∧ (bytesRead body).length = len.toNat := by
  cases payload with
  | full fine whole => exact ⟨fine, whole⟩
  | cut broken short =>
      obtain ⟨earlier, later⟩ := replayed.split
      obtain ⟨turn, length, cut⟩ := interrupted_of_cut earlier unbroken start broken short
      rw [Nat.zero_add, length] at later
      exact absurd matched ((caught turn cut).not_stop later (stop.unbroken_of_stop matched))

/-- How long `recStream` goes on after a failure inside a frame. -/
theorem Caught.bounded (caught : Caught len.toNat results)
    (admissible : Admissible results (recStream outBuf len)) {turn more : Nat}
    (strikes : Interrupted results more turn) :
    ∃ steps, ∀ events final last,
      Plays (replay results) 0 (recStream outBuf len) events final last →
      final.result? = none → events.length < steps := by
  obtain ⟨count, within⟩ : ∃ count, Interrupted results len.toNat turn →
      ∀ closing, Replayed results (turn + 1) closing → Unbroken closing →
      (bytesRead closing).length < stopSeqLen.toNat → closing.length ≤ count := by
    by_cases cut : Interrupted results len.toNat turn
    · obtain ⟨count, bound⟩ := (caught turn cut).length_le
      exact ⟨count, fun _ => bound⟩
    · exact ⟨0, fun some => absurd some cut⟩
  refine ⟨turn + 1 + count + 1, ?_⟩
  intro events final last plays unfinished
  have replayed := replayed_of_plays plays
  cases streamStage (admissible events final last plays) plays.runs with
  | hunting _ unbroken =>
      have early := strikes.length_le replayed unbroken
      omega
  | reading _ unbroken _ fine =>
      have early := strikes.length_le replayed (unbroken.append fine)
      omega
  | stopping _ unbroken start payload fine short =>
      cases payload with
      | full whole =>
          have early := strikes.length_le replayed ((unbroken.append whole).append fine)
          omega
      | cut broken few =>
          obtain ⟨earlier, later⟩ := replayed.split
          obtain ⟨turn', length, cut⟩ := interrupted_of_cut earlier unbroken start broken few
          obtain rfl := strikes.unique cut
          rw [Nat.zero_add, length] at later
          have bound := within cut _ later fine short
          rw [List.length_append, length]
          omega
  | returned => cases unfinished

theorem Caught.noticed (caught : Caught len.toNat results)
    (admissible : Admissible results (recStream outBuf len)) {turn : Nat}
    (strikes : Interrupted results (len.toNat + stopSeq.length) turn) :
    ∃ events out last,
      Plays (replay results) 0 (recStream outBuf len) events (.done (1, out)) last := by
  obtain ⟨steps, bound⟩ := caught.bounded admissible strikes
  obtain ⟨events, final, last, plays, long⟩ :=
    exists_plays (replay results) steps 0 (recStream outBuf len)
  cases returned : final.result? with
  | none =>
      have early := bound events final last plays returned
      obtain exact | ⟨_, value, rfl⟩ := long
      · omega
      · cases returned
  | some result =>
      obtain rfl := view_eq_done (view_eq_done_iff.mpr returned)
      have replayed := replayed_of_plays plays
      cases streamEnd (admissible events _ last plays) plays.runs with
      | lost => exact ⟨events, outBuf, last, plays⟩
      | @ended hunted body closing _ _ _ unbroken start payload stop code filled =>
          obtain ⟨code', out⟩ := result
          by_cases matched : bytesRead closing = stopSeq
          · exfalso
            obtain ⟨fine, whole⟩ := caught.whole replayed unbroken start payload stop matched
            have closed := stop.unbroken_of_stop matched
            rw [List.append_assoc] at replayed
            have short := strikes.short_of_unbroken replayed (unbroken.append (fine.append closed))
              start
            rw [bytesRead_append, List.length_append, whole, matched] at short
            omega
          · rw [if_neg matched] at code
            obtain rfl := code
            exact ⟨_, out, last, plays⟩

theorem Reports.caught (reports : Reports outBuf len results)
    (admissible : Admissible results (recStream outBuf len)) : Caught len.toNat results := by
  intro turn strikes
  obtain ⟨hunted, rest, same, start, few⟩ := strikes.within
  obtain ⟨events, out, last, plays⟩ := reports.noticed turn
    ⟨strikes.fails, strikes.first, hunted, rest, same, start, by omega⟩
  have replayed := replayed_of_plays plays
  cases streamEnd (admissible events _ last plays) plays.runs with
  | lost broken unseen => exact (strikes.not_lost replayed broken unseen).elim
  | @ended hunted body closing _ _ _ unbroken start payload stop code filled =>
      obtain ⟨earlier, later⟩ := replayed.split
      cases payload with
      | full fine whole =>
          have short := strikes.short_of_unbroken earlier (unbroken.append fine) start
          omega
      | cut broken short =>
          obtain ⟨turn', length, cut⟩ := interrupted_of_cut earlier unbroken start broken short
          obtain rfl := strikes.unique cut
          rw [Nat.zero_add, length] at later
          refine stopRefused_of_exactStage later stop ?_
          intro matched
          rw [if_pos matched] at code
          cases code

/-- Errors are reported exactly when every error in the payload is caught by the stop sequence. -/
theorem reports_iff (admissible : Admissible results (recStream outBuf len)) :
    Reports outBuf len results ↔ Caught len.toNat results := by
  constructor
  · intro reports
    exact reports.caught admissible
  · intro caught
    constructor
    · intro events out last plays
      have replayed := replayed_of_plays plays
      cases streamEnd (admissible events _ last plays) plays.runs with
      | @ended hunted body closing _ _ _ unbroken start payload stop code filled =>
          have matched : bytesRead closing = stopSeq := by
            by_contra other
            rw [if_neg other] at code
            cases code
          obtain ⟨_, whole⟩ := caught.whole replayed unbroken start payload stop matched
          refine ⟨bytesRead hunted, bytesRead body, ?_, start, whole, filled⟩
          rw [bytesRead_append, bytesRead_append, matched]
    · intro turn strikes
      exact caught.noticed admissible strikes

end Reports

/-- Results that are single bytes or failures. -/
theorem admissible_of_bytes {results : ReadResults}
    (single : ∀ turn data, results turn = .received data → data.length = 1) (outBuf : List UInt8)
    (len : UInt8) : Admissible results (recStream outBuf len) := by
  intro events final last plays
  have replayed := replayed_of_plays plays
  have reads := uses_recStream outBuf len plays.runs
  clear plays
  generalize 0 = first at replayed
  induction events generalizing first with
  | nil => exact nofun
  | cons event events ih =>
      obtain ⟨⟨limit, rfl⟩, later⟩ := replayed
      rw [List.forall_mem_cons] at reads ⊢
      refine ⟨?_, ih reads.2 (first + 1) later⟩
      have positive : 0 < limit := reads.1
      show ValidTransfer (.read limit) (results first)
      cases answer : results first with
      | failed => trivial
      | received data =>
          have one := single first data answer
          show 0 < data.length ∧ data.length ≤ limit
          omega

/-- The connection fails for good behind the start sequence. -/
def hangUp : ReadResults := fun turn =>
  if turn < 4 then .received [0x55] else .failed (.zero (.other 0))

theorem reports_hangUp : Reports [0] 1 hangUp := by
  have single : ∀ turn data, hangUp turn = .received data → data.length = 1 := by
    intro turn data received
    unfold hangUp at received
    split at received
    · cases received
      rfl
    · cases received
  refine (reports_iff (admissible_of_bytes single [0] 1)).mpr ?_
  intro turn strikes
  have behind : ¬ turn < 4 := by
    intro early
    have fails := strikes.fails
    rw [hangUp, if_pos early] at fails
    exact fails
  have none : (gained hangUp (turn + 1) 0).length < stopSeq.length := Nat.succ_pos 3
  refine ⟨0, nofun, .inl ⟨?_, none⟩⟩
  rw [hangUp, if_neg (by omega)]
  trivial

/-- One read of the payload fails, and the stop sequence comes all the same. -/
def hiccup : ReadResults := fun turn =>
  if turn < 4 then .received [0x55]
  else if turn = 4 then .failed (.zero (.other 0))
  else .received [0xFF]

theorem interrupted_hiccup : Interrupted hiccup 5 4 where
  fails := trivial
  first := by
    intro earlier early
    rw [hiccup, if_pos early]
    exact id
  within := by
    refine ⟨startSeq, [], rfl, ⟨List.suffix_refl _, ?_⟩, by decide⟩
    intro earlier before seen
    exact before.eq_of_length (Nat.le_antisymm before.length_le seen.length_le)

theorem not_reports_hiccup :
    ¬ ∀ outBuf len results, Admissible results (recStream outBuf len) →
      Reports outBuf len results := by
  intro all
  have single : ∀ turn data, hiccup turn = .received data → data.length = 1 := by
    intro turn data received
    unfold hiccup at received
    split at received
    · cases received
      rfl
    · split at received <;> cases received
      rfl
  have reports := all [0] 1 hiccup (admissible_of_bytes single [0] 1)
  obtain ⟨events, out, last, one⟩ := reports.noticed 4 interrupted_hiccup
  obtain ⟨last', two⟩ := plays_play (replay hiccup) 9 0 (recStream [0] 1)
  have accepts : (play (replay hiccup) 9 0 (recStream [0] 1)).2 = .done (0, [0]) := rfl
  rw [accepts] at two
  obtain ⟨_, same, _⟩ := one.unique two
  cases same

end Uc1Integration.Transport
