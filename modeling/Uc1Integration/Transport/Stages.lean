import Mathlib.Order.Lattice
import Uc1Integration.Interaction.Runs
import Uc1Integration.Transport.TransmissionProperties

/-!
# Where a reception stands

A run of a receiving function, finished or not: which bytes it has read, which
read failed, and what it does next.
-/

set_option autoImplicit false

namespace Uc1Integration.Transport

open Interaction Program

/-- What wolfSSL promises of a transfer: it moves something, and no more than it
was asked to. -/
def ValidTransfer : (call : StreamCall UInt8) → StreamAnswer UInt8 SslFailure call → Prop
  | .read limit, .received data => 0 < data.length ∧ data.length ≤ limit
  | .read _, .failed _ => True
  | .write data, .accepted count => 0 < count ∧ count ≤ data.length
  | .write _, .failed _ => True

abbrev SslEvent := Event (StreamCall UInt8) (StreamAnswer UInt8 SslFailure)

def SslEvent.Valid (event : SslEvent) : Prop :=
  ValidTransfer event.1 event.2

/-- The bytes one event brings in. -/
def SslEvent.read : SslEvent → List UInt8
  | ⟨.read _, .received data⟩ => data
  | _ => []

def bytesRead (events : List SslEvent) : List UInt8 :=
  events.flatMap SslEvent.read

/-- A read failed, and not for want of data. -/
def SslEvent.Broken : SslEvent → Prop
  | ⟨.read _, .failed (.zero _)⟩ => True
  | ⟨.read _, .failed (.negative error)⟩ => error ≠ .wantRead
  | _ => False

@[simp] theorem bytesRead_append (first second : List SslEvent) :
    bytesRead (first ++ second) = bytesRead first ++ bytesRead second := by
  simp [bytesRead]

theorem bytesRead_nil : bytesRead [] = [] := rfl

@[simp] theorem bytesRead_received (limit : Nat) (data : List UInt8) :
    bytesRead [⟨.read limit, .received data⟩] = data := by
  simp [bytesRead, SslEvent.read]

@[simp] theorem bytesRead_failed (limit : Nat) (failure : SslFailure) :
    bytesRead [⟨.read limit, .failed failure⟩] = [] := rfl

/-- The bytes end with their first start sequence. -/
def EndsAtStart (bytes : List UInt8) : Prop :=
  startSeq <:+ bytes ∧ ∀ earlier, earlier <+: bytes → startSeq <:+ earlier → earlier = bytes

/-- Only one beginning of a stream ends with its first start sequence. -/
theorem EndsAtStart.unique {one two rest tail : List UInt8} (first : EndsAtStart one)
    (second : EndsAtStart two) (same : one ++ rest = two ++ tail) : one = two ∧ rest = tail := by
  have equal : one = two := by
    have before : one <+: two ++ tail := ⟨rest, same⟩
    cases List.prefix_or_prefix_of_prefix before (List.prefix_append two tail) with
    | inl shorter => exact second.2 one shorter first.1
    | inr longer => exact (first.2 two longer second.1).symm
  subst equal
  exact ⟨rfl, List.append_cancel_left same⟩

def Unbroken (events : List SslEvent) : Prop :=
  ∀ event ∈ events, ¬ event.Broken

theorem unbroken_nil : Unbroken [] :=
  nofun

theorem Unbroken.snoc {events : List SslEvent} {event : SslEvent} (unbroken : Unbroken events)
    (fine : ¬ event.Broken) : Unbroken (events ++ [event]) := by
  intro one member
  cases List.mem_append.mp member with
  | inl earlier => exact unbroken one earlier
  | inr last =>
      cases List.mem_singleton.mp last
      exact fine

theorem Unbroken.append {first second : List SslEvent} (one : Unbroken first)
    (two : Unbroken second) : Unbroken (first ++ second) := by
  intro event member
  cases List.mem_append.mp member with
  | inl earlier => exact one event earlier
  | inr later => exact two event later

/-- No start sequence anywhere in these bytes. -/
def Unseen (bytes : List UInt8) : Prop :=
  ∀ earlier, earlier <+: bytes → ¬ startSeq <:+ earlier

/-- The reads up to a first failure. -/
inductive BrokenOff : List SslEvent → Prop where
  | intro {before : List SslEvent} {event : SslEvent} :
      Unbroken before → event.Broken → BrokenOff (before ++ [event])

theorem BrokenOff.behind {first second : List SslEvent} (one : Unbroken first)
    (two : BrokenOff second) : BrokenOff (first ++ second) := by
  cases two with
  | intro unbroken broken =>
      rw [← List.append_assoc]
      exact .intro (one.append unbroken) broken

theorem SslEvent.Broken.read_eq_nil {event : SslEvent} (broken : event.Broken) :
    event.read = [] := by
  obtain ⟨call, answer⟩ := event
  cases call with
  | write => exact broken.elim
  | read limit =>
      cases answer with
      | received => exact broken.elim
      | failed => rfl

theorem bytesRead_broken {before : List SslEvent} {event : SslEvent} (broken : event.Broken) :
    bytesRead (before ++ [event]) = bytesRead before := by
  simp [bytesRead, broken.read_eq_nil]

/-- The search has seen these bytes and no start sequence in them. -/
structure Hunting (state : HuntState) (bytes : List UInt8) : Prop where
  length : state.seqBuf.length = startSeqLen
  idx : state.idx = min bytes.length 3
  window : state.seqBuf.take state.idx = bytes.drop (bytes.length - state.idx)
  unseen : ∀ earlier, earlier <+: bytes → ¬ startSeq <:+ earlier

theorem hunting_begin : Hunting ⟨List.replicate startSeqLen 0, 0⟩ [] where
  length := rfl
  idx := rfl
  window := rfl
  unseen := by
    intro earlier before seen
    rw [List.prefix_nil.mp before] at seen
    exact absurd seen (by decide)

theorem Hunting.idx_le {state : HuntState} {bytes : List UInt8} (hunting : Hunting state bytes) :
    state.idx ≤ 3 := by
  rw [hunting.idx]
  exact Nat.min_le_right _ _

theorem Hunting.length_store {state : HuntState} {bytes : List UInt8} (hunting : Hunting state bytes)
    (byte : UInt8) : (store state.seqBuf state.idx [byte]).length = startSeqLen := by
  have inside := Nat.succ_le_succ hunting.idx_le
  rw [Transport.length_store (by rw [hunting.length]; exact inside), hunting.length]

/-- One more byte behind what the search has seen. -/
theorem Hunting.window_snoc {state : HuntState} {bytes : List UInt8} (hunting : Hunting state bytes)
    (byte : UInt8) :
    (store state.seqBuf state.idx [byte]).take (state.idx + 1) =
      (bytes ++ [byte]).drop (bytes.length - state.idx) := by
  have four : startSeqLen = 4 := rfl
  have short := hunting.idx_le
  have inside : (state.seqBuf.take state.idx).length = state.idx := by
    rw [List.length_take, hunting.length]
    omega
  rw [store, List.take_append_of_le_length (by simp [inside]), List.take_of_length_le (by simp),
    hunting.window, List.drop_append_of_le_length (by omega)]

theorem unseen_snoc {bytes : List UInt8} {byte : UInt8}
    (unseen : ∀ earlier, earlier <+: bytes → ¬ startSeq <:+ earlier)
    (last : ¬ startSeq <:+ bytes ++ [byte]) :
    ∀ earlier, earlier <+: bytes ++ [byte] → ¬ startSeq <:+ earlier := by
  intro earlier before
  cases List.prefix_concat_iff.mp before with
  | inl whole =>
      rw [whole]
      exact last
  | inr shorter => exact unseen earlier shorter

theorem Hunting.grow {state : HuntState} {bytes : List UInt8} (hunting : Hunting state bytes)
    (byte : UInt8) (filling : state.idx < startSeqLen - 1) :
    Hunting ⟨store state.seqBuf state.idx [byte], state.idx + 1⟩ (bytes ++ [byte]) := by
  have four : startSeqLen = 4 := rfl
  have idx := hunting.idx
  have all : state.idx = bytes.length := by omega
  constructor
  · exact hunting.length_store byte
  · simp only [List.length_append, List.length_singleton]
    omega
  · rw [hunting.window_snoc]
    simp [all]
  · apply unseen_snoc hunting.unseen
    intro seen
    have enough := seen.length_le
    have length : startSeq.length = 4 := rfl
    simp only [List.length_append, List.length_singleton, length] at enough
    omega

/-- The full window is the last four bytes. -/
theorem Hunting.full {state : HuntState} {bytes : List UInt8} (hunting : Hunting state bytes)
    (byte : UInt8) (filled : ¬ state.idx < startSeqLen - 1) :
    3 ≤ bytes.length ∧
      store state.seqBuf state.idx [byte] = (bytes ++ [byte]).drop (bytes.length - 3) := by
  have four : startSeqLen = 4 := rfl
  have idx := hunting.idx
  have three : state.idx = 3 := by omega
  have window := hunting.window_snoc byte
  have length := hunting.length_store byte
  refine ⟨by omega, ?_⟩
  rw [three] at window length ⊢
  rw [← window, List.take_of_length_le (by omega)]

theorem Hunting.found {state : HuntState} {bytes : List UInt8} (hunting : Hunting state bytes)
    (byte : UInt8) (filled : ¬ state.idx < startSeqLen - 1)
    (found : store state.seqBuf state.idx [byte] = startSeq) :
    EndsAtStart (bytes ++ [byte]) := by
  obtain ⟨_, window⟩ := hunting.full byte filled
  constructor
  · rw [← found, window]
    exact List.drop_suffix _ _
  · intro earlier before seen
    cases List.prefix_concat_iff.mp before with
    | inl whole => exact whole
    | inr shorter => exact absurd seen (hunting.unseen earlier shorter)

theorem Hunting.slide {state : HuntState} {bytes : List UInt8} (hunting : Hunting state bytes)
    (byte : UInt8) (filled : ¬ state.idx < startSeqLen - 1)
    (other : store state.seqBuf state.idx [byte] ≠ startSeq) :
    Hunting
      ⟨store (store state.seqBuf state.idx [byte]) 0
        (((store state.seqBuf state.idx [byte]).drop 1).take (startSeqLen - 1)), startSeqLen - 1⟩
      (bytes ++ [byte]) := by
  have three : startSeqLen - 1 = 3 := rfl
  obtain ⟨enough, window⟩ := hunting.full byte filled
  have length : (store state.seqBuf state.idx [byte]).length = 4 := hunting.length_store byte
  generalize store state.seqBuf state.idx [byte] = full at *
  have moved : ((full.drop 1).take 3).length = 3 := by
    rw [List.length_take, List.length_drop]
    omega
  constructor
  · rw [three, Transport.length_store (by omega)]
    exact length
  · simp only [List.length_append, List.length_singleton]
    omega
  · rw [three, store_zero, List.take_left' moved, List.take_of_length_le (by simp [length]), window,
      List.drop_drop, List.length_append, List.length_singleton]
    congr 1
    change bytes.length - 3 + 1 = bytes.length + 1 - 3
    omega
  · apply unseen_snoc hunting.unseen
    intro seen
    rw [List.suffix_iff_eq_drop] at seen
    apply other
    rw [window, seen]
    congr 1
    simp only [List.length_append, List.length_singleton]
    change _ = _ - 4
    omega

theorem eq_singleton_of_valid {data : List UInt8}
    (valid : SslEvent.Valid ⟨.read 1, .received data⟩) : ∃ byte, data = [byte] := by
  obtain ⟨some, one⟩ := valid
  exact List.length_eq_one_iff.mp (Nat.le_antisymm one some)

theorem matchSeq_startSeq {seqBuf : List UInt8} (length : seqBuf.length = startSeqLen) :
    matchSeq seqBuf startSeq startSeqLen = true ↔ seqBuf = startSeq := by
  rw [matchSeq, List.take_of_length_le length.le, List.take_of_length_le (by decide)]
  exact beq_iff_eq

inductive HuntStage (events : List SslEvent) : Ssl (Option (List UInt8)) → Prop where
  | hunting {final : Ssl (Option (List UInt8))} :
      final.result? = none → Unbroken events → Unseen (bytesRead events) → HuntStage events final
  | found : Unbroken events → EndsAtStart (bytesRead events) →
      HuntStage events (.done (some startSeq))
  | failed : BrokenOff events → Unseen (bytesRead events) → HuntStage events (.done none)

theorem not_broken_received (limit : Nat) (data : List UInt8) :
    ¬ SslEvent.Broken ⟨.read limit, .received data⟩ := id

theorem not_broken_wantRead {limit : Nat} {error : SslError} (again : ¬ error ≠ .wantRead) :
    ¬ SslEvent.Broken ⟨.read limit, .failed (.negative error)⟩ := again

/-- One read of the search that goes on. -/
theorem Hunting.again {state state' : HuntState} {earlier : List SslEvent}
    {answer : ReadAnswer UInt8 SslFailure} (hunting : Hunting state (bytesRead earlier))
    (unbroken : Unbroken earlier) (valid : SslEvent.Valid ⟨.read 1, answer⟩)
    (next : huntBody state answer = .inl state') :
    Unbroken (earlier ++ [⟨.read 1, answer⟩]) ∧
      Hunting state' (bytesRead (earlier ++ [⟨.read 1, answer⟩])) := by
  cases answer with
  | received data =>
      obtain ⟨byte, rfl⟩ := eq_singleton_of_valid valid
      refine ⟨unbroken.snoc (not_broken_received _ _), ?_⟩
      rw [bytesRead_append, bytesRead_received]
      simp only [huntBody] at next
      split at next
      next filling =>
        cases next
        exact hunting.grow byte filling
      next filled =>
        split at next
        next => cases next
        next other =>
          cases next
          rw [matchSeq_startSeq (hunting.length_store byte)] at other
          exact hunting.slide byte filled other
  | failed failure =>
      cases failure with
      | zero => cases next
      | negative error =>
          simp only [huntBody] at next
          split at next
          next => cases next
          next again =>
            cases next
            refine ⟨unbroken.snoc (not_broken_wantRead again), ?_⟩
            rw [bytesRead_append, bytesRead_failed, List.append_nil]
            exact hunting

theorem Hunting.broken {state : HuntState} {earlier : List SslEvent} {failure : SslFailure}
    (hunting : Hunting state (bytesRead earlier)) (unbroken : Unbroken earlier)
    (broken : SslEvent.Broken ⟨.read 1, .failed failure⟩) :
    HuntStage (earlier ++ [⟨.read 1, .failed failure⟩]) (.done none) := by
  refine .failed (.intro unbroken broken) ?_
  rw [bytesRead_broken broken]
  exact hunting.unseen

/-- The read that ends the search. -/
theorem Hunting.leave {state : HuntState} {earlier : List SslEvent}
    {answer : ReadAnswer UInt8 SslFailure} {result : Option (List UInt8)}
    (hunting : Hunting state (bytesRead earlier)) (unbroken : Unbroken earlier)
    (valid : SslEvent.Valid ⟨.read 1, answer⟩) (next : huntBody state answer = .inr result) :
    HuntStage (earlier ++ [⟨.read 1, answer⟩]) (.done result) := by
  cases answer with
  | received data =>
      obtain ⟨byte, rfl⟩ := eq_singleton_of_valid valid
      simp only [huntBody] at next
      split at next
      next => cases next
      next filled =>
        split at next
        next found =>
          cases next
          rw [matchSeq_startSeq (hunting.length_store byte)] at found
          rw [found]
          refine .found (unbroken.snoc (not_broken_received _ _)) ?_
          rw [bytesRead_append, bytesRead_received]
          exact hunting.found byte filled found
        next => cases next
  | failed failure =>
      cases failure with
      | zero error =>
          cases next
          exact hunting.broken unbroken trivial
      | negative error =>
          simp only [huntBody] at next
          split at next
          next wrong =>
            cases next
            exact hunting.broken unbroken wrong
          next => cases next

theorem huntStage {events : List SslEvent} {final : Ssl (Option (List UInt8))}
    (valid : ∀ event ∈ events, SslEvent.Valid event) (runs : Runs huntStart events final) :
    HuntStage events final := by
  have stage := Runs.of_iterate_stage SslEvent.Valid
    (fun state events => Unbroken events ∧ Hunting state (bytesRead events))
    (fun result events => HuntStage events (.done result))
    (fun _ _ _ _ inv valid next => inv.2.again inv.1 valid next)
    (fun _ _ _ _ inv valid next => inv.2.leave inv.1 valid next)
    ⟨unbroken_nil, hunting_begin⟩ valid runs
  cases stage with
  | inl within =>
      obtain ⟨state, rfl, unbroken, hunting⟩ := within
      exact .hunting rfl unbroken hunting.unseen
  | inr left =>
      obtain ⟨result, rfl, stage⟩ := left
      exact stage

theorem store_store {buf first second : List UInt8} :
    store (store buf 0 first) first.length second = store buf 0 (first ++ second) := by
  rw [store_zero, store_zero, store, List.take_left' rfl, ← List.drop_drop, List.drop_left' rfl,
    List.drop_drop, List.length_append, List.append_assoc]

/-- The loop of `readExact` has read these bytes, and needs more. -/
structure Reading (buf : List UInt8) (len : Nat) (state : ReadState) (bytes : List UInt8) :
    Prop where
  totalRead : state.totalRead = bytes.length
  short : bytes.length < len
  buffer : state.buf = store buf 0 bytes

theorem Reading.store_eq {buf bytes data : List UInt8} {len : Nat} {state : ReadState}
    (reading : Reading buf len state bytes) :
    store state.buf state.totalRead data = store buf 0 (bytes ++ data) := by
  rw [reading.buffer, reading.totalRead, store_store]

/-- What `readExact` has read when it returns, and its code. -/
inductive ExactStage (len : Nat) : List SslEvent → Int → Prop where
  | full {events : List SslEvent} : Unbroken events → (bytesRead events).length = len →
      ExactStage len events 0
  | cut {events : List SslEvent} : BrokenOff events → (bytesRead events).length < len →
      ExactStage len events 1

inductive ReadStage (buf : List UInt8) (len : Nat) (events : List SslEvent) :
    Ssl (Int × List UInt8) → Prop where
  | reading {final : Ssl (Int × List UInt8)} :
      final.result? = none → Unbroken events → (bytesRead events).length < len →
      ReadStage buf len events final
  | ended {code : Int} : ExactStage len events code →
      ReadStage buf len events (.done (code, store buf 0 (bytesRead events)))

/-- One read of the loop that goes on. -/
theorem Reading.again {buf : List UInt8} {len : UInt8} {state state' : ReadState}
    {earlier : List SslEvent} {answer : ReadAnswer UInt8 SslFailure}
    (reading : Reading buf len.toNat state (bytesRead earlier)) (unbroken : Unbroken earlier)
    (next : readExactBody len state answer = .inl state') :
    Unbroken (earlier ++ [⟨.read (len.toNat - state.totalRead), answer⟩]) ∧
      Reading buf len.toNat state'
        (bytesRead (earlier ++ [⟨.read (len.toNat - state.totalRead), answer⟩])) := by
  have total := reading.totalRead
  cases answer with
  | received data =>
      simp only [readExactBody] at next
      split at next
      next more =>
        cases next
        refine ⟨unbroken.snoc (not_broken_received _ _), ?_⟩
        rw [bytesRead_append, bytesRead_received]
        constructor
        · rw [List.length_append, total]
        · rw [List.length_append]
          omega
        · exact reading.store_eq
      next => cases next
  | failed failure =>
      cases failure with
      | zero => cases next
      | negative error =>
          simp only [readExactBody] at next
          split at next
          next => cases next
          next again =>
            cases next
            refine ⟨unbroken.snoc (not_broken_wantRead again), ?_⟩
            rw [bytesRead_append, bytesRead_failed, List.append_nil]
            exact reading

theorem Reading.cut {buf : List UInt8} {len limit : Nat} {state : ReadState}
    {earlier : List SslEvent} {failure : SslFailure}
    (reading : Reading buf len state (bytesRead earlier)) (unbroken : Unbroken earlier)
    (broken : SslEvent.Broken ⟨.read limit, .failed failure⟩) :
    ReadStage buf len (earlier ++ [⟨.read limit, .failed failure⟩]) (.done (1, state.buf)) := by
  rw [reading.buffer, ← bytesRead_broken broken]
  refine .ended (.cut (.intro unbroken broken) ?_)
  rw [bytesRead_broken broken]
  exact reading.short

/-- The read that ends the loop. -/
theorem Reading.leave {buf : List UInt8} {len : UInt8} {state : ReadState}
    {earlier : List SslEvent} {answer : ReadAnswer UInt8 SslFailure} {result : Int × List UInt8}
    (reading : Reading buf len.toNat state (bytesRead earlier)) (unbroken : Unbroken earlier)
    (valid : SslEvent.Valid ⟨.read (len.toNat - state.totalRead), answer⟩)
    (next : readExactBody len state answer = .inr result) :
    ReadStage buf len.toNat (earlier ++ [⟨.read (len.toNat - state.totalRead), answer⟩])
      (.done result) := by
  have total := reading.totalRead
  cases answer with
  | received data =>
      have bounded : data.length ≤ len.toNat - state.totalRead := valid.2
      have short := reading.short
      simp only [readExactBody] at next
      split at next
      next => cases next
      next full =>
        cases next
        have stage : ExactStage len.toNat
            (earlier ++ [⟨.read (len.toNat - state.totalRead), .received data⟩]) 0 := by
          refine .full (unbroken.snoc (not_broken_received _ _)) ?_
          rw [bytesRead_append, bytesRead_received, List.length_append]
          omega
        have filled : ReadStage buf len.toNat
            (earlier ++ [⟨.read (len.toNat - state.totalRead), .received data⟩]) _ :=
          .ended stage
        rw [bytesRead_append, bytesRead_received, ← reading.store_eq] at filled
        exact filled
  | failed failure =>
      cases failure with
      | zero error =>
          cases next
          exact reading.cut unbroken trivial
      | negative error =>
          simp only [readExactBody] at next
          split at next
          next wrong =>
            cases next
            exact reading.cut unbroken wrong
          next => cases next

theorem readStage {buf : List UInt8} {len : UInt8} {events : List SslEvent}
    {final : Ssl (Int × List UInt8)} (valid : ∀ event ∈ events, SslEvent.Valid event)
    (runs : Runs (readExact buf len) events final) : ReadStage buf len.toNat events final := by
  unfold readExact at runs
  split at runs
  next positive =>
    have stage := Runs.of_iterate_stage SslEvent.Valid
      (fun state events => Unbroken events ∧ Reading buf len.toNat state (bytesRead events))
      (fun result events => ReadStage buf len.toNat events (.done result))
      (fun _ _ _ _ inv _ next => inv.2.again inv.1 next)
      (fun _ _ _ _ inv valid next => inv.2.leave inv.1 valid next)
      ⟨unbroken_nil, rfl, positive, (store_nil buf 0).symm⟩ valid runs
    cases stage with
    | inl within =>
        obtain ⟨state, rfl, unbroken, reading⟩ := within
        exact .reading rfl unbroken reading.short
    | inr left =>
        obtain ⟨result, rfl, stage⟩ := left
        exact stage
  next empty =>
    obtain ⟨rfl, rfl⟩ := runs.of_done
    have stage : ReadStage buf len.toNat [] (.done (0, store buf 0 (bytesRead []))) :=
      .ended (.full unbroken_nil (by simp only [bytesRead_nil, List.length_nil]; omega))
    rwa [bytesRead_nil, store_nil] at stage

/-- Only a whole stop sequence overwrites the start sequence with it. -/
theorem eq_stopSeq_of_match {bytes : List UInt8} (short : bytes.length ≤ stopSeqLen.toNat)
    (same : matchSeq (store startSeq 0 bytes) stopSeq stopSeqLen.toNat = true) :
    bytes = stopSeq := by
  have four : stopSeqLen.toNat = 4 := rfl
  rw [four] at short
  rw [matchSeq, beq_iff_eq, four, store_zero] at same
  have length : startSeq.length = 4 := rfl
  rw [List.take_of_length_le (by rw [List.length_append, List.length_drop]; omega),
    List.take_of_length_le (by decide)] at same
  by_cases whole : bytes.length = 4
  · rw [whole, List.drop_of_length_le (by decide), List.append_nil] at same
    exact same
  · -- The last byte of the window is still one of the start sequence.
    have last := congrArg (fun window => window[3]?) same
    rw [List.getElem?_append_right (by omega), List.getElem?_drop] at last
    have inside : bytes.length + (3 - bytes.length) = 3 := by omega
    rw [inside] at last
    exact absurd last (by decide)

theorem ExactStage.length_le {len : Nat} {events : List SslEvent} {code : Int}
    (stage : ExactStage len events code) : (bytesRead events).length ≤ len := by
  cases stage with
  | full _ whole => exact whole.le
  | cut _ short => exact short.le

/-- The code of an exact read is never negative. -/
theorem ExactStage.not_neg {len : Nat} {events : List SslEvent} {code : Int}
    (stage : ExactStage len events code) : ¬ code < 0 := by
  cases stage <;> decide

/-- A stop sequence that was read came without a failure. -/
theorem ExactStage.unbroken_of_stop {closing : List SslEvent} {code : Int}
    (stage : ExactStage stopSeqLen.toNat closing code) (stop : bytesRead closing = stopSeq) :
    Unbroken closing := by
  cases stage with
  | full unbroken => exact unbroken
  | cut _ short =>
      rw [stop] at short
      exact absurd short (by decide)

theorem matchSeq_stopSeq_iff {closing : List SslEvent} {code : Int}
    (stage : ExactStage stopSeqLen.toNat closing code) :
    matchSeq (store startSeq 0 (bytesRead closing)) stopSeq stopSeqLen.toNat = true ↔
      bytesRead closing = stopSeq := by
  constructor
  · exact eq_stopSeq_of_match stage.length_le
  · intro whole
    rw [whole]
    decide

/-- How `recStream` returns: the connection broke before a start sequence, or the
payload and the stop sequence were read as far as they came. -/
inductive StreamEnd (outBuf : List UInt8) (len : Nat) :
    List SslEvent → Int × List UInt8 → Prop where
  | lost {hunted : List SslEvent} :
      BrokenOff hunted → Unseen (bytesRead hunted) → StreamEnd outBuf len hunted (1, outBuf)
  | ended {hunted body closing : List SslEvent} {code stopCode : Int}
      {result : Int × List UInt8} :
      Unbroken hunted → EndsAtStart (bytesRead hunted) → ExactStage len body code →
      ExactStage stopSeqLen.toNat closing stopCode →
      result.1 = (if bytesRead closing = stopSeq then 0 else 1) →
      result.2 = store outBuf 0 (bytesRead body) →
      StreamEnd outBuf len (hunted ++ body ++ closing) result

inductive StreamStage (outBuf : List UInt8) (len : Nat) :
    List SslEvent → Ssl (Int × List UInt8) → Prop where
  | hunting {hunted : List SslEvent} {final : Ssl (Int × List UInt8)} :
      final.result? = none → Unbroken hunted → Unseen (bytesRead hunted) →
      StreamStage outBuf len hunted final
  | reading {hunted body : List SslEvent} {final : Ssl (Int × List UInt8)} :
      final.result? = none → Unbroken hunted → EndsAtStart (bytesRead hunted) →
      Unbroken body → (bytesRead body).length < len →
      StreamStage outBuf len (hunted ++ body) final
  | stopping {hunted body closing : List SslEvent} {code : Int}
      {final : Ssl (Int × List UInt8)} :
      final.result? = none → Unbroken hunted → EndsAtStart (bytesRead hunted) →
      ExactStage len body code → Unbroken closing →
      (bytesRead closing).length < stopSeqLen.toNat →
      StreamStage outBuf len (hunted ++ body ++ closing) final
  | returned {events : List SslEvent} {result : Int × List UInt8} :
      StreamEnd outBuf len events result → StreamStage outBuf len events (.done result)

theorem streamStage {outBuf : List UInt8} {len : UInt8} {events : List SslEvent}
    {final : Ssl (Int × List UInt8)} (valid : ∀ event ∈ events, SslEvent.Valid event)
    (runs : Runs (recStream outBuf len) events final) :
    StreamStage outBuf len.toNat events final := by
  unfold recStream at runs
  cases runs.of_bind_unfinished with
  | inl within =>
      obtain ⟨middle, unfinished, hunt, also⟩ := within
      cases huntStage valid hunt with
      | hunting _ unbroken unseen => exact .hunting also unbroken unseen
      | found => cases unfinished
      | failed => cases unfinished
  | inr through =>
      obtain ⟨found, hunted, behind, rfl, hunt, runs⟩ := through
      cases huntStage (fun event member => valid event (List.mem_append_left behind member)) hunt with
      | hunting unfinished => cases unfinished
      | failed broken unseen =>
          obtain ⟨rfl, rfl⟩ := runs.of_done
          rw [List.append_nil]
          exact .returned (.lost broken unseen)
      | found unbroken start =>
          cases runs.of_bind_unfinished with
          | inl within =>
              obtain ⟨middle, unfinished, read, also⟩ := within
              cases readStage (fun event member => valid event (by simp [member])) read with
              | reading _ fine short => exact .reading also unbroken start fine short
              | ended => cases unfinished
          | inr through =>
              obtain ⟨⟨err, filled⟩, body, behind, rfl, read, runs⟩ := through
              cases readStage (fun event member => valid event (by simp [member])) read with
              | reading unfinished => cases unfinished
              | ended payload =>
                  dsimp only at runs
                  rw [if_neg payload.not_neg] at runs
                  cases runs.of_bind_unfinished with
                  | inl within =>
                      obtain ⟨middle, unfinished, read, also⟩ := within
                      cases readStage (fun event member => valid event (by simp [member])) read with
                      | reading _ fine short =>
                          rw [← List.append_assoc]
                          exact .stopping also unbroken start payload fine short
                      | ended => cases unfinished
                  | inr through =>
                      obtain ⟨⟨err, window⟩, closing, behind, rfl, read, runs⟩ := through
                      cases readStage (fun event member => valid event (by simp [member])) read with
                      | reading unfinished => cases unfinished
                      | ended stop =>
                          have matched := matchSeq_stopSeq_iff stop
                          dsimp only at runs
                          rw [if_neg stop.not_neg] at runs
                          rw [← List.append_assoc]
                          split at runs
                          next other =>
                            obtain ⟨rfl, rfl⟩ := runs.of_done
                            rw [List.append_nil]
                            rw [Bool.not_eq_true', ← Bool.not_eq_true, matched] at other
                            exact .returned (.ended unbroken start payload stop (if_neg other).symm rfl)
                          next same =>
                            obtain ⟨rfl, rfl⟩ := runs.of_done
                            rw [List.append_nil]
                            rw [Bool.not_eq_true', Bool.not_eq_false, matched] at same
                            exact .returned (.ended unbroken start payload stop (if_pos same).symm rfl)

theorem streamEnd {outBuf : List UInt8} {len : UInt8} {events : List SslEvent}
    {result : Int × List UInt8} (valid : ∀ event ∈ events, SslEvent.Valid event)
    (runs : Runs (recStream outBuf len) events (.done result)) :
    StreamEnd outBuf len.toNat events result := by
  cases streamStage valid runs with
  | hunting unfinished => cases unfinished
  | reading unfinished => cases unfinished
  | stopping unfinished => cases unfinished
  | returned ended => exact ended

def IsRead : StreamCall UInt8 → Prop
  | .read limit => 0 < limit
  | .write _ => False

theorem uses_huntStart : Uses IsRead huntStart := by
  apply uses_iterate
  intro state
  exact Nat.one_pos

theorem uses_readExact (buf : List UInt8) (len : UInt8) : Uses IsRead (readExact buf len) := by
  unfold readExact
  split
  next positive =>
    refine uses_iterate_inv (fun state : ReadState => state.totalRead < len.toNat) ?_ ?_ ?_
    · intro state short
      exact Nat.sub_pos_of_lt short
    rotate_left
    · exact positive
    intro state answer state' short next
    cases answer with
    | received data =>
        simp only [readExactBody] at next
        split at next
        next more =>
          cases next
          exact more
        next => cases next
    | failed failure =>
        cases failure with
        | zero => cases next
        | negative error =>
            simp only [readExactBody] at next
            split at next
            next => cases next
            next =>
              cases next
              exact short
  next => exact uses_done _

theorem uses_recStream (outBuf : List UInt8) (len : UInt8) : Uses IsRead (recStream outBuf len) := by
  refine Uses.bind uses_huntStart fun found => ?_
  cases found with
  | none => exact uses_done _
  | some seqBuf =>
      refine Uses.bind (uses_readExact outBuf len) fun filled => ?_
      refine Uses.ite (uses_done _) (Uses.bind (uses_readExact seqBuf stopSeqLen) fun window => ?_)
      exact Uses.ite (uses_done _) (Uses.ite (uses_done _) (uses_done _))

end Uc1Integration.Transport
