import Uc1Integration.Interaction.StreamLoops
import Uc1Integration.Transport.Transmission

/-! Each transfer function, as one side of the conversation it is meant for. -/

set_option autoImplicit false

namespace Uc1Integration.Transport

open Interaction Conversation

/-- wolfSSL as a medium. A broken connection reports neither WANT_READ nor
WANT_WRITE, or returns 0. -/
def sslMedium : Medium SslFailure where
  readBlocked := .negative .wantRead
  writeBlocked := .negative .wantWrite
  fatal
    | .zero _ => True
    | .negative (.other _) => True
    | .negative _ => False

def frame (data : List UInt8) : List UInt8 :=
  startSeq ++ data ++ stopSeq

theorem startSeq_ne_nil : startSeq ≠ [] := by decide

theorem stopSeq_ne_nil : stopSeq ≠ [] := by decide

theorem store_nil (buf : List UInt8) (offset : Nat) : store buf offset [] = buf := by
  simp [store]

theorem store_zero (buf data : List UInt8) : store buf 0 data = data ++ buf.drop data.length := by
  simp [store]

theorem length_store {buf data : List UInt8} {offset : Nat}
    (inside : offset + data.length ≤ buf.length) : (store buf offset data).length = buf.length := by
  simp only [store, List.length_append, List.length_take, List.length_drop]
  omega

theorem store_chunk {buf data : List UInt8} {count more : Nat}
    (inside : count + more ≤ data.length) :
    store (store buf 0 (data.take count)) count ((data.drop count).take more) =
      store buf 0 (data.take (count + more)) := by
  have first : (data.take count).length = count := by
    rw [List.length_take]
    omega
  have second : ((data.drop count).take more).length = more := by
    rw [List.length_take, List.length_drop]
    omega
  have both : (data.take (count + more)).length = count + more := by
    rw [List.length_take]
    omega
  simp only [store_zero, first, both]
  rw [store, second, List.take_left' first, ← List.drop_drop, List.drop_left' first,
    List.drop_drop, List.take_add]

theorem follows_perform_write {me : Side} {data : List UInt8} (some : data ≠ []) :
    Follows sslMedium me
      { good := (· = .accepted data.length)
        bad := fun answer => ∃ failure, answer = .failed failure
        quit := (· ≠ .accepted data.length) }
      (saying me data) (Endpoint.write data) := by
  have whole : saying me data = saying me data ++ ([] : Conversation UInt8) := by simp
  rw [whole]
  refine .write (· = data.length) (Program.view_perform _) some rfl ?_ ?_ ?_ ?_
  · rintro count positive bounded rfl
    simpa using Follows.of_done rfl
  · intro count positive bounded short
    exact ⟨_, rfl, by simpa using short⟩
  · exact .inr ⟨_, rfl, by simp⟩
  · exact fun failure _ => .done ⟨failure, rfl⟩

/-- A call that returns `expected` along its conversation and something else
whenever it leaves it. -/
def exactly (expected : Int) : Results Int where
  good := (· = expected)
  bad := (· ≠ expected)
  quit := (· ≠ expected)

abbrev codes : Results Int := exactly 0

theorem codes_bad_one : codes.bad 1 := by
  show (1 : Int) ≠ 0
  decide

/-- The test after a call: any other result than the expected one ends the function. -/
theorem follows_guard {α : Type} {me : Side} {results : Results α} {expected : Int}
    {first second : Conversation UInt8} {program : Ssl Int} {next : Ssl α} {failed : α}
    (follows : Follows sslMedium me (exactly expected) first program)
    (onward : Follows sslMedium me results second next)
    (bad : results.bad failed) (quit : results.quit failed) :
    Follows sslMedium me results (first ++ second)
      (program.bind fun code => if code ≠ expected then .done failed else next) := by
  apply follows.bind
  · rintro _ rfl
    rw [if_neg (by simp)]
    exact onward
  · intro code (wrong : code ≠ expected)
    rw [if_pos wrong]
    exact .done bad
  · intro code (wrong : code ≠ expected)
    rw [if_pos wrong]
    exact ⟨failed, rfl, quit⟩

/-- A write returns the length only when it was accepted in full. -/
theorem follows_wolfSslWrite {me : Side} {data : List UInt8} (some : data ≠ []) :
    Follows sslMedium me (exactly data.length) (saying me data) (wolfSslWrite data) := by
  have positive : 0 < data.length := List.length_pos_of_ne_nil some
  have whole : saying me data = saying me data ++ ([] : Conversation UInt8) := by simp
  rw [whole]
  apply (follows_perform_write some).bind
  · rintro answer rfl
    exact .of_done rfl
  · rintro answer ⟨failure, rfl⟩
    cases failure <;> refine .done ?_ <;> simp only [exactly, ne_eq] <;> omega
  · intro answer short
    rcases answer with count | ⟨error⟩ | ⟨error⟩
    · refine ⟨_, rfl, ?_⟩
      intro same
      exact short (by rw [Int.ofNat_inj.mp same])
    · exact ⟨_, rfl, by simp only [exactly, ne_eq]; omega⟩
    · exact ⟨_, rfl, by simp only [exactly, ne_eq]; omega⟩

theorem waitForAck_loop :
    ReadLoop sslMedium codes.bad (fun state => ackLen - state.totalRead) waitForAckBody
      (fun count => ⟨store (List.replicate ackLen 0) 0 (ackStr.take count), count⟩) ackStr 0 := by
  have length : ackStr.length = ackLen := rfl
  constructor
  · intro count inside
    show 0 < ackLen - count
    omega
  · intro count inside
    show ackLen - count ≤ ackStr.length - count
    omega
  · intro count more positive short before
    have taken : ((ackStr.drop count).take more).length = more := by
      rw [List.length_take, List.length_drop]
      omega
    simp only [waitForAckBody, taken, store_chunk (Nat.le_of_lt before)]
    rw [if_pos (by omega)]
  · intro count more positive short last
    have taken : ((ackStr.drop count).take more).length = more := by
      rw [List.length_take, List.length_drop]
      omega
    simp only [waitForAckBody, taken, store_chunk (Nat.le_of_eq last), last]
    rfl
  · intro count inside
    rfl
  · intro count inside failure fatal
    by_cases wants : failure.error = .wantRead
    · left
      simp [waitForAckBody, wants]
    · right
      exact ⟨1, by simp [waitForAckBody, wants], codes_bad_one⟩

theorem follows_waitForAck {me : Side} :
    Follows sslMedium me codes (saying me.other ackStr) waitForAck :=
  waitForAck_loop.follows me codes rfl (by decide)

theorem sendAck_loop :
    WriteLoop sslMedium codes.bad
      (fun totalSent => (ackStr.drop totalSent).take (ackLen - totalSent)) sendAckBody id ackStr
      0 := by
  have length : ackStr.length = ackLen := rfl
  constructor
  · intro count inside
    rw [List.take_of_length_le]
    · rfl
    · rw [List.length_drop]
      exact Nat.le_refl _
  · intro count more positive before
    simp only [id, sendAckBody]
    rw [if_neg (by omega), if_pos (by omega)]
  · intro count more positive last
    simp only [id, sendAckBody]
    rw [if_neg (by omega), if_neg (by omega)]
  · intro count inside
    rfl
  · intro count inside failure fatal
    right
    rcases failure with error | _ | _ | code
    · exact ⟨1, rfl, codes_bad_one⟩
    · exact absurd fatal id
    · exact absurd fatal id
    · exact ⟨1, rfl, codes_bad_one⟩

theorem follows_sendAck {me : Side} : Follows sslMedium me codes (saying me ackStr) sendAck :=
  sendAck_loop.follows me codes rfl (by decide)

/-- What is left in the buffer when an exact read is cut short. -/
def cutShort (buf data : List UInt8) (result : Int × List UInt8) : Prop :=
  ∃ count < data.length, result = (1, store buf 0 (data.take count))

def exactRead (buf data : List UInt8) : Results (Int × List UInt8) where
  good := (· = (0, store buf 0 data))
  bad := cutShort buf data
  quit := fun _ => False

theorem readExact_loop {buf data : List UInt8} {len : UInt8} (length : data.length = len.toNat) :
    ReadLoop sslMedium (cutShort buf data) (fun state => len.toNat - state.totalRead)
      (readExactBody len) (fun count => ⟨store buf 0 (data.take count), count⟩) data
      (0, store buf 0 data) := by
  constructor
  · intro count inside
    show 0 < len.toNat - count
    omega
  · intro count inside
    show len.toNat - count ≤ data.length - count
    omega
  · intro count more positive short before
    have taken : ((data.drop count).take more).length = more := by
      rw [List.length_take, List.length_drop]
      omega
    simp only [readExactBody, taken, store_chunk (Nat.le_of_lt before)]
    rw [if_pos (by omega)]
  · intro count more positive short last
    have taken : ((data.drop count).take more).length = more := by
      rw [List.length_take, List.length_drop]
      omega
    simp only [readExactBody, taken, store_chunk (Nat.le_of_eq last), last, List.take_length]
    rw [if_neg (by omega)]
  · intro count inside
    rfl
  · intro count inside failure fatal
    right
    rcases failure with error | _ | _ | code
    · exact ⟨_, rfl, count, inside, rfl⟩
    · exact absurd fatal id
    · exact absurd fatal id
    · exact ⟨_, rfl, count, inside, rfl⟩

theorem follows_readExact {me : Side} {buf data : List UInt8} {len : UInt8}
    (length : data.length = len.toNat) :
    Follows sslMedium me (exactRead buf data) (saying me.other data) (readExact buf len) := by
  unfold readExact
  by_cases some : 0 < len.toNat
  · rw [if_pos some]
    have follows := (readExact_loop length).follows me (exactRead buf data) rfl
      (List.ne_nil_of_length_pos (length ▸ some))
    simpa only [List.take_zero, store_nil] using follows
  · rw [if_neg some]
    have nothing : data = [] := List.eq_nil_of_length_eq_zero (by omega)
    subst nothing
    exact .of_done (by simp [exactRead, store_nil])

theorem doomed_readExact {buf : List UInt8} {len : UInt8} (some : 0 < len.toNat) :
    Doomed sslMedium (· = (1, buf)) (readExact buf len) := by
  unfold readExact
  rw [if_pos some]
  apply Doomed.iterate
  intro answer refused
  rcases refused with @⟨_, failure, fatal⟩
  right
  rcases failure with error | _ | _ | code
  · exact ⟨_, rfl, rfl⟩
  · exact absurd fatal id
  · exact absurd fatal id
  · exact ⟨_, rfl, rfl⟩

def startHunt : Results (Option (List UInt8)) where
  good := (· = some startSeq)
  bad := (· = none)
  quit := fun _ => False

theorem huntStart_loop :
    ReadLoop sslMedium (· = none) (fun _ => 1) huntBody
      (fun count => ⟨store (List.replicate startSeqLen 0) 0 (startSeq.take count), count⟩) startSeq
      (some startSeq) := by
  have length : startSeq.length = startSeqLen := rfl
  have four : startSeqLen = 4 := rfl
  constructor
  · exact fun _ _ => Nat.one_pos
  · intro count inside
    show 1 ≤ startSeq.length - count
    omega
  · intro count more positive short before
    obtain rfl : more = 1 := by omega
    simp only [huntBody, store_chunk (Nat.le_of_lt before)]
    rw [if_pos (by omega)]
  · intro count more positive short last
    obtain rfl : more = 1 := by omega
    obtain rfl : count = 3 := by omega
    rfl
  · intro count inside
    rfl
  · intro count inside failure fatal
    right
    rcases failure with error | _ | _ | code
    · exact ⟨none, rfl, rfl⟩
    · exact absurd fatal id
    · exact absurd fatal id
    · exact ⟨none, rfl, rfl⟩

theorem follows_huntStart {me : Side} :
    Follows sslMedium me startHunt (saying me.other startSeq) huntStart := by
  have follows := huntStart_loop.follows me startHunt rfl (by decide)
  exact follows

end Uc1Integration.Transport
