import Uc1Integration.Interaction.Feeds
import Uc1Integration.Transport.Challenge
import Uc1Integration.Transport.Stages

/-!
# What the senders put on the wire

`sendAck` goes on after a partial write and after WANT_WRITE. `sendFramedStream`
calls `wolfSSL_write` once for each part of the frame and gives up on either.
-/

set_option autoImplicit false

namespace Uc1Integration.Transport

open Interaction Program

/-- The bytes one event puts on the wire. -/
def SslEvent.written : SslEvent → List UInt8
  | ⟨.write data, .accepted count⟩ => data.take count
  | _ => []

def bytesWritten (events : List SslEvent) : List UInt8 :=
  events.flatMap SslEvent.written

@[simp] theorem bytesWritten_nil : bytesWritten [] = [] := rfl

@[simp] theorem bytesWritten_append (first second : List SslEvent) :
    bytesWritten (first ++ second) = bytesWritten first ++ bytesWritten second := by
  simp [bytesWritten]

@[simp] theorem bytesWritten_accepted (data : List UInt8) (count : Nat) :
    bytesWritten [⟨.write data, .accepted count⟩] = data.take count := by
  simp [bytesWritten, SslEvent.written]

@[simp] theorem bytesWritten_failed (data : List UInt8) (failure : SslFailure) :
    bytesWritten [⟨.write data, .failed failure⟩] = [] := rfl

/-- A read or a write failed, and the code that retries does not try again. -/
def SslEvent.GivenUp : SslEvent → Prop
  | ⟨.write _, .failed (.zero _)⟩ => True
  | ⟨.write _, .failed (.negative error)⟩ => error ≠ .wantWrite
  | ⟨.write _, .accepted _⟩ => False
  | ⟨.read limit, answer⟩ => SslEvent.Broken ⟨.read limit, answer⟩

/-- A run of `sendAck`: what it has written, and why it returned. -/
inductive AckStage (events : List SslEvent) : Ssl Int → Prop where
  | sending {final : Ssl Int} :
      final.result? = none → bytesWritten events <+: ackStr → bytesWritten events ≠ ackStr →
      AckStage events final
  | sent : bytesWritten events = ackStr → AckStage events (.done 0)
  | failed : bytesWritten events <+: ackStr → bytesWritten events ≠ ackStr →
      (∃ event ∈ events, event.GivenUp) → AckStage events (.done 1)

/-- So much of the acknowledgement is written. -/
structure Acking (totalSent : Nat) (events : List SslEvent) : Prop where
  written : bytesWritten events = ackStr.take totalSent
  short : totalSent < ackLen

theorem Acking.before {totalSent : Nat} {events : List SslEvent} (acking : Acking totalSent events) :
    bytesWritten events <+: ackStr ∧ bytesWritten events ≠ ackStr := by
  have short : totalSent < ackStr.length := acking.short
  constructor
  · rw [acking.written]
    exact List.take_prefix _ _
  · intro whole
    have length := congrArg List.length (acking.written.symm.trans whole)
    rw [List.length_take] at length
    omega

/-- A chunk more of the acknowledgement. -/
theorem Acking.grow {totalSent count : Nat} {events : List SslEvent}
    (acking : Acking totalSent events) :
    bytesWritten (events ++
        [⟨.write ((ackStr.drop totalSent).take (ackLen - totalSent)), .accepted count⟩]) =
      ackStr.take (totalSent + count) := by
  have all : (ackStr.drop totalSent).take (ackLen - totalSent) = ackStr.drop totalSent := by
    apply List.take_of_length_le
    rw [List.length_drop]
    exact Nat.le_refl _
  rw [bytesWritten_append, bytesWritten_accepted, acking.written, all, List.take_add]

theorem Acking.stay {totalSent : Nat} {events : List SslEvent} {data : List UInt8}
    {failure : SslFailure} (acking : Acking totalSent events) :
    Acking totalSent (events ++ [⟨.write data, .failed failure⟩]) := by
  refine ⟨?_, acking.short⟩
  rw [bytesWritten_append, bytesWritten_failed, List.append_nil]
  exact acking.written

theorem Acking.give_up {totalSent : Nat} {events : List SslEvent} {data : List UInt8}
    {failure : SslFailure} (acking : Acking totalSent events)
    (fatal : SslEvent.GivenUp ⟨.write data, .failed failure⟩) :
    AckStage (events ++ [⟨.write data, .failed failure⟩]) (.done 1) :=
  have before := acking.stay.before
  .failed before.1 before.2 ⟨_, List.mem_append_right _ (List.mem_singleton.mpr rfl), fatal⟩

/-- One write of the loop that goes on. -/
theorem Acking.again {totalSent totalSent' : Nat} {earlier : List SslEvent}
    {answer : WriteAnswer SslFailure} (acking : Acking totalSent earlier)
    (next : sendAckBody totalSent answer = .inl totalSent') :
    Acking totalSent' (earlier ++
      [⟨.write ((ackStr.drop totalSent).take (ackLen - totalSent)), answer⟩]) := by
  cases answer with
  | accepted count =>
      simp only [sendAckBody] at next
      split at next
      next => cases next
      next =>
        split at next
        next more =>
          cases next
          exact ⟨acking.grow, more⟩
        next => cases next
  | failed failure =>
      cases failure with
      | zero => cases next
      | negative error =>
          simp only [sendAckBody] at next
          split at next
          next => cases next
          next =>
            cases next
            exact acking.stay

/-- The write that ends the loop. -/
theorem Acking.leave {totalSent : Nat} {earlier : List SslEvent} {answer : WriteAnswer SslFailure}
    {code : Int} (acking : Acking totalSent earlier)
    (valid : SslEvent.Valid ⟨.write ((ackStr.drop totalSent).take (ackLen - totalSent)), answer⟩)
    (next : sendAckBody totalSent answer = .inr code) :
    AckStage (earlier ++ [⟨.write ((ackStr.drop totalSent).take (ackLen - totalSent)), answer⟩])
      (.done code) := by
  cases answer with
  | accepted count =>
      have positive : 0 < count := valid.1
      simp only [sendAckBody] at next
      split at next
      next nothing => omega
      next =>
        split at next
        next => cases next
        next whole =>
          cases next
          refine .sent (acking.grow.trans (List.take_of_length_le ?_))
          exact Nat.le_of_not_lt whole
  | failed failure =>
      cases failure with
      | zero error =>
          cases next
          exact acking.give_up trivial
      | negative error =>
          simp only [sendAckBody] at next
          split at next
          next wrong =>
            cases next
            exact acking.give_up wrong
          next => cases next

theorem ackStage {events : List SslEvent} {final : Ssl Int}
    (valid : ∀ event ∈ events, SslEvent.Valid event) (runs : Runs sendAck events final) :
    AckStage events final := by
  have stage := Runs.of_iterate_stage SslEvent.Valid Acking
    (fun code events => AckStage events (.done code))
    (fun _ _ _ _ acking _ next => acking.again next)
    (fun _ _ _ _ acking valid next => acking.leave valid next) ⟨rfl, by decide⟩ valid runs
  cases stage with
  | inl within =>
      obtain ⟨totalSent, rfl, acking⟩ := within
      exact .sending rfl acking.before.1 acking.before.2
  | inr left =>
      obtain ⟨code, rfl, stage⟩ := left
      exact stage

/-- A part of a frame that is written at one go, or ends the function. -/
inductive PartStage (data : List UInt8) (next : Ssl Int) : List SslEvent → Ssl Int → Prop where
  | ahead {final : Ssl Int} : final.result? = none → PartStage data next [] final
  | failed {event : SslEvent} : event.written <+: data → event.written ≠ data →
      PartStage data next [event] (.done 1)
  | whole {count : Nat} {later : List SslEvent} {final : Ssl Int} : data.length ≤ count →
      Runs next later final →
      PartStage data next (⟨.write data, .accepted count⟩ :: later) final

theorem partStage {data : List UInt8} {next : Ssl Int} {events : List SslEvent} {final : Ssl Int}
    {expected : Int} (some : data ≠ []) (length : expected = data.length)
    (valid : ∀ event ∈ events, SslEvent.Valid event)
    (runs : Runs ((wolfSslWrite data).bind fun code =>
      if code ≠ expected then .done 1 else next) events final) :
    PartStage data next events final := by
  have positive : 0 < data.length := List.length_pos_of_ne_nil some
  have short : ∀ failure, SslEvent.written ⟨.write data, .failed failure⟩ ≠ data :=
    fun _ same => some same.symm
  cases runs with
  | stop => exact .ahead rfl
  | call answer calls onward =>
      cases calls
      cases answer with
      | accepted count =>
          have bounded : count ≤ data.length := (valid _ List.mem_cons_self).2
          change Runs (if (count : Int) ≠ expected then .done 1 else next) _ final at onward
          split at onward
          next partly =>
            obtain ⟨rfl, rfl⟩ := onward.of_done
            refine .failed (List.take_prefix _ _) ?_
            intro whole
            have size := congrArg List.length whole
            simp only [SslEvent.written, List.length_take] at size
            omega
          next full => exact .whole (by omega) onward
      | failed failure =>
          cases failure with
          | zero error =>
              change Runs (if (0 : Int) ≠ expected then .done 1 else next) _ final at onward
              rw [if_pos (by omega)] at onward
              obtain ⟨rfl, rfl⟩ := onward.of_done
              exact .failed List.nil_prefix (short _)
          | negative error =>
              change Runs (if (-1 : Int) ≠ expected then .done 1 else next) _ final at onward
              rw [if_pos (by omega)] at onward
              obtain ⟨rfl, rfl⟩ := onward.of_done
              exact .failed List.nil_prefix (short _)

/-- A run of `sendFramedStream` that returned 0 is three writes accepted in full. -/
structure FrameSent (data : List UInt8) (events : List SslEvent) : Prop where
  parts : ∃ opening body closing, startSeq.length ≤ opening ∧ data.length ≤ body ∧
    stopSeq.length ≤ closing ∧ events = [⟨.write startSeq, .accepted opening⟩,
      ⟨.write data, .accepted body⟩, ⟨.write stopSeq, .accepted closing⟩]

theorem FrameSent.written {data : List UInt8} {events : List SslEvent}
    (sent : FrameSent data events) : bytesWritten events = frame data := by
  obtain ⟨opening, body, closing, first, second, third, rfl⟩ := sent.parts
  simp [bytesWritten, SslEvent.written, frame, List.take_of_length_le, first, second, third]

/-- A run of `sendFramedStream`: what it has written. -/
inductive FrameStage (data : List UInt8) (events : List SslEvent) : Ssl Int → Prop where
  | cut {final : Ssl Int} : final ≠ .done 0 → bytesWritten events <+: frame data →
      FrameStage data events final
  | sent : FrameSent data events → FrameStage data events (.done 0)

theorem not_done_of_result {final : Ssl Int} (unfinished : final.result? = none) :
    final ≠ .done 0 := by
  rintro rfl
  cases unfinished

theorem frameStage {data : List UInt8} {len : UInt8} {events : List SslEvent} {final : Ssl Int}
    (some : 0 < len.toNat) (length : data.length = len.toNat)
    (valid : ∀ event ∈ events, SslEvent.Valid event)
    (runs : Runs (sendFramedStream data len) events final) : FrameStage data events final := by
  have all : data.take len.toNat = data := List.take_of_length_le (by omega)
  have failing : (Program.done 1 : Ssl Int) ≠ .done 0 := by
    intro same
    cases same
  have one : ∀ event : SslEvent, bytesWritten [event] = event.written := by
    intro event
    simp [bytesWritten]
  unfold sendFramedStream at runs
  rw [all] at runs
  cases partStage startSeq_ne_nil rfl valid runs with
  | ahead unfinished => exact .cut (not_done_of_result unfinished) List.nil_prefix
  | failed partly =>
      refine .cut failing ?_
      rw [one, frame, List.append_assoc]
      exact partly.trans (List.prefix_append _ _)
  | @whole opening later _ first runs =>
      have start : bytesWritten (⟨.write startSeq, .accepted opening⟩ :: later) =
          startSeq ++ bytesWritten later := by
        simp [bytesWritten, SslEvent.written, List.take_of_length_le first]
      have payload : data ≠ [] := List.ne_nil_of_length_pos (by omega)
      cases partStage payload (by simp [length]) (fun event member =>
          valid event (List.mem_cons_of_mem _ member)) runs with
      | ahead unfinished =>
          refine .cut (not_done_of_result unfinished) ?_
          rw [start, bytesWritten_nil, List.append_nil, frame, List.append_assoc]
          exact List.prefix_append _ _
      | failed partly =>
          refine .cut failing ?_
          rw [start, one, frame, List.append_assoc, List.prefix_append_right_inj]
          exact partly.trans (List.prefix_append _ _)
      | @whole body later _ second runs =>
          have both : bytesWritten (⟨.write startSeq, .accepted opening⟩ ::
              ⟨.write data, .accepted body⟩ :: later) = startSeq ++ data ++ bytesWritten later := by
            simp [bytesWritten, SslEvent.written, List.take_of_length_le first,
              List.take_of_length_le second]
          cases partStage stopSeq_ne_nil rfl (fun event member =>
              valid event (List.mem_cons_of_mem _ (List.mem_cons_of_mem _ member))) runs with
          | ahead unfinished =>
              refine .cut (not_done_of_result unfinished) ?_
              rw [both, bytesWritten_nil, List.append_nil, frame]
              exact List.prefix_append _ _
          | failed partly =>
              refine .cut failing ?_
              rw [both, one, frame, List.prefix_append_right_inj]
              exact partly
          | @whole closing later _ third runs =>
              obtain ⟨rfl, rfl⟩ := runs.of_done
              exact .sent ⟨opening, body, closing, first, second, third, rfl⟩

def IsWrite : StreamCall UInt8 → Prop
  | .read _ => False
  | .write data => data ≠ []

theorem uses_sendAck : Uses IsWrite sendAck := by
  refine uses_iterate_inv (fun totalSent => totalSent < ackLen) ?_ ?_ ?_
  · intro totalSent short same
    have size := congrArg List.length same
    have three : ackStr.length = ackLen := rfl
    rw [List.length_take, List.length_drop, three, List.length_nil] at size
    omega
  · intro totalSent answer totalSent' short next
    cases answer with
    | accepted count =>
        simp only [sendAckBody] at next
        split at next
        next => cases next
        next =>
          split at next
          next more =>
            cases next
            exact more
          next => cases next
    | failed failure =>
        cases failure with
        | zero => cases next
        | negative error =>
            simp only [sendAckBody] at next
            split at next
            next => cases next
            next =>
              cases next
              exact short
  · decide

theorem uses_wolfSslWrite {data : List UInt8} (some : data ≠ []) :
    Uses IsWrite (wolfSslWrite data) := by
  have permitted : IsWrite (.write data) := some
  refine Uses.bind (uses_perform permitted) fun answer => ?_
  rcases answer with _ | _ | _ <;> exact uses_done _

theorem uses_sendFramedStream {data : List UInt8} {len : UInt8} (some : data.take len.toNat ≠ []) :
    Uses IsWrite (sendFramedStream data len) := by
  refine Uses.bind (uses_wolfSslWrite startSeq_ne_nil) fun _ => Uses.ite (uses_done _) ?_
  refine Uses.bind (uses_wolfSslWrite some) fun _ => Uses.ite (uses_done _) ?_
  exact Uses.bind (uses_wolfSslWrite stopSeq_ne_nil) fun _ => Uses.ite (uses_done _) (uses_done _)

/-- A connection that takes writes by the schedule and answers WANT_WRITE when it blocks. -/
abbrev outlet (schedule : Nat → Nat) :
    Nat → (call : StreamCall UInt8) → StreamAnswer UInt8 SslFailure call × Nat :=
  outletAnswer (.negative .wantWrite) schedule

section Outlet

variable {schedule : Nat → Nat}

theorem outlet_event (turn : Nat) {call : StreamCall UInt8} (writes : IsWrite call) :
    SslEvent.Valid ⟨call, (outlet schedule turn call).1⟩ ∧
      ¬ SslEvent.GivenUp ⟨call, (outlet schedule turn call).1⟩ := by
  cases call with
  | read => exact writes.elim
  | write data =>
      have positive : 0 < data.length := List.length_pos_of_ne_nil writes
      dsimp only [outlet, outletAnswer]
      split
      next => exact ⟨trivial, fun other => other rfl⟩
      next moves => exact ⟨⟨by omega, Nat.min_le_right _ _⟩, id⟩

theorem outlet_answered {turn last : Nat} {events : List SslEvent}
    (answered : Answered (outlet schedule) turn events last)
    (writes : ∀ event ∈ events, IsWrite event.1) :
    ∀ event ∈ events, event.Valid ∧ ¬ event.GivenUp := by
  induction events generalizing turn with
  | nil => exact nofun
  | cons event events ih =>
      obtain ⟨call, answer⟩ := event
      obtain ⟨here, later⟩ := answered
      rw [List.forall_mem_cons] at writes ⊢
      refine ⟨?_, ih later writes.2⟩
      have same : answer = (outlet schedule turn call).1 := here
      rw [same]
      exact outlet_event turn writes.1

theorem ends_sendAck (fair : Fair schedule) : Ends (outlet schedule) sendAck := by
  refine ends_iterate (fun _ totalSent => ackLen - totalSent) (fun turn _ => fair.wait turn) ?_ 0
  intro turn totalSent totalSent' next
  dsimp only [outlet, outletAnswer] at next ⊢
  split at next
  next blocks =>
    rw [if_pos blocks]
    cases next
    exact .inr ⟨rfl, fair.wait_succ blocks⟩
  next moves =>
    rw [if_neg moves]
    simp only [sendAckBody] at next
    split at next
    next => cases next
    next =>
      split at next
      next more =>
        cases next
        left
        omega
      next => cases next

/-- A part of a frame under a schedule that takes it whole. -/
theorem plays_part {data : List UInt8} {next final : Ssl Int} {turn last : Nat} {expected : Int}
    (some : data ≠ []) (length : expected = data.length) (full : data.length ≤ schedule turn)
    (onward : ∃ later, Plays (outlet schedule) (turn + 1) next later final last) :
    ∃ events, Plays (outlet schedule) turn ((wolfSslWrite data).bind fun code =>
      if code ≠ expected then .done 1 else next) events final last := by
  obtain ⟨later, onward⟩ := onward
  have positive : 0 < data.length := List.length_pos_of_ne_nil some
  have taken : outlet schedule turn (.write data) = (.accepted data.length, turn + 1) := by
    dsimp only [outlet, outletAnswer]
    rw [if_neg (by omega), Nat.min_eq_right full]
  refine ⟨⟨.write data, (outlet schedule turn (.write data)).1⟩ :: later, .call rfl ?_⟩
  rw [taken]
  show Plays (outlet schedule) (turn + 1)
    (if (data.length : Int) ≠ expected then .done 1 else next) later final last
  rw [if_neg (by omega)]
  exact onward

/-- The sender puts its message on the wire and returns 0. -/
def Sends (schedule : Nat → Nat) (program : Ssl Int) (message : List UInt8) : Prop :=
  ∃ events last, Plays (outlet schedule) 0 program events (.done 0) last ∧
    bytesWritten events = message

/-- Whatever the writes return, a prefix of the message is written, and all of it
when the sender returns 0. -/
def Honest (program : Ssl Int) (message : List UInt8) : Prop :=
  ∀ events final, (∀ event ∈ events, SslEvent.Valid event) → Runs program events final →
    bytesWritten events <+: message ∧ (final = .done 0 → bytesWritten events = message)

structure WriteReliable (schedule : Nat → Nat) (data : List UInt8) (len : UInt8) : Prop where
  framed : Sends schedule (sendFramedStream data len) (frame data)
  acked : Sends schedule sendAck ackStr
  framedHonest : Honest (sendFramedStream data len) (frame data)
  ackHonest : Honest sendAck ackStr

theorem honest_sendAck : Honest sendAck ackStr := by
  intro events final valid runs
  cases ackStage valid runs with
  | sending unfinished before =>
      refine ⟨before, ?_⟩
      rintro rfl
      cases unfinished
  | sent whole =>
      rw [whole]
      exact ⟨List.prefix_rfl, fun _ => rfl⟩
  | failed before =>
      refine ⟨before, ?_⟩
      intro same
      cases same

theorem honest_sendFramedStream {data : List UInt8} {len : UInt8} (some : 0 < len.toNat)
    (length : data.length = len.toNat) : Honest (sendFramedStream data len) (frame data) := by
  intro events final valid runs
  cases frameStage some length valid runs with
  | cut unfinished before => exact ⟨before, fun sent => absurd sent unfinished⟩
  | sent whole =>
      rw [whole.written]
      exact ⟨List.prefix_rfl, fun _ => rfl⟩

theorem sends_sendAck (fair : Fair schedule) : Sends schedule sendAck ackStr := by
  obtain ⟨events, code, last, plays⟩ := ends_sendAck fair 0
  have fine := outlet_answered plays.answered (uses_sendAck plays.runs)
  generalize returned : (Program.done code : Ssl Int) = final at plays
  cases ackStage (fun event member => (fine event member).1) plays.runs with
  | sending unfinished =>
      subst returned
      cases unfinished
  | sent whole => exact ⟨events, last, plays, whole⟩
  | failed _ _ fatal =>
      obtain ⟨event, member, fatal⟩ := fatal
      exact absurd fatal (fine event member).2

theorem outlet_next (turn : Nat) (data : List UInt8) :
    (outlet schedule turn (.write data)).2 = turn + 1 := by
  dsimp only [outlet, outletAnswer]
  split <;> rfl

/-- One write accepted in full under the schedule. -/
theorem le_of_accepted {data : List UInt8} {turn count : Nat}
    (answer : WriteAnswer.accepted count = (outlet schedule turn (.write data)).1)
    (full : data.length ≤ count) : data.length ≤ schedule turn := by
  dsimp only [outlet, outletAnswer] at answer
  split at answer
  next => cases answer
  next =>
    cases answer
    omega

theorem sends_sendFramedStream_iff {data : List UInt8} {len : UInt8} (some : 0 < len.toNat)
    (length : data.length = len.toNat) :
    Sends schedule (sendFramedStream data len) (frame data) ↔
      startSeq.length ≤ schedule 0 ∧ data.length ≤ schedule 1 ∧ stopSeq.length ≤ schedule 2 := by
  have all : data.take len.toNat = data := List.take_of_length_le (by omega)
  have payload : data ≠ [] := List.ne_nil_of_length_pos (by omega)
  have valids := fun {events final last}
      (plays : Plays (outlet schedule) 0 (sendFramedStream data len) events final last) =>
    outlet_answered plays.answered
      (uses_sendFramedStream (by rw [all]; exact payload) plays.runs)
  constructor
  · rintro ⟨events, last, plays, _⟩
    have valid := fun event member => (valids plays event member).1
    generalize returned : (Program.done 0 : Ssl Int) = final at plays
    cases frameStage some length valid plays.runs with
    | cut other => exact absurd returned.symm other
    | sent whole =>
        obtain ⟨opening, body, closing, first, second, third, rfl⟩ := whole.parts
        obtain ⟨one, two, three, _⟩ := plays.answered
        simp only [outlet_next] at two three
        exact ⟨le_of_accepted one first, le_of_accepted two second, le_of_accepted three third⟩
  · rintro ⟨first, second, third⟩
    obtain ⟨events, plays⟩ := plays_part startSeq_ne_nil rfl first
      (plays_part payload (by rw [length]) second
        (plays_part stopSeq_ne_nil rfl third ⟨[], .stop _ (.done 0)⟩))
    have sends : Plays (outlet schedule) 0 (sendFramedStream data len) events (.done 0) 3 := by
      unfold sendFramedStream
      rw [all]
      exact plays
    exact ⟨events, 3, sends, (honest_sendFramedStream some length events _ (fun event member =>
      (valids sends event member).1) sends.runs).2 rfl⟩

/-- The senders keep the contract exactly when the three writes of the frame are
taken whole at their first call. -/
theorem writeReliable_iff (fair : Fair schedule) {data : List UInt8} {len : UInt8}
    (some : 0 < len.toNat) (length : data.length = len.toNat) :
    WriteReliable schedule data len ↔
      startSeq.length ≤ schedule 0 ∧ data.length ≤ schedule 1 ∧ stopSeq.length ≤ schedule 2 := by
  constructor
  · intro reliable
    exact (sends_sendFramedStream_iff some length).mp reliable.framed
  · intro full
    exact ⟨(sends_sendFramedStream_iff some length).mpr full, sends_sendAck fair,
      honest_sendFramedStream some length, honest_sendAck⟩

end Outlet

theorem writeReliable_roomy : WriteReliable (fun _ => 16) [1, 2, 3] 3 :=
  (writeReliable_iff (fun turn => ⟨turn, Nat.le_refl turn, Nat.succ_ne_zero 15⟩) (by decide)
    rfl).mpr (by decide)

/-- A connection that takes three bytes at a time cuts the start sequence. -/
theorem not_writeReliable_narrow :
    ¬ ∀ schedule, Fair schedule → ∀ data (len : UInt8), 0 < len.toNat → data.length = len.toNat →
      WriteReliable schedule data len := by
  intro all
  have reliable := all (fun _ => 3) (fun turn => ⟨turn, Nat.le_refl turn, Nat.succ_ne_zero 2⟩) [1] 1
    (by decide) rfl
  obtain ⟨events, last, one, _⟩ := reliable.framed
  obtain ⟨last', two⟩ := plays_play (outlet fun _ => 3) 3 0 (sendFramedStream [1] 1)
  have fails : (play (outlet fun _ => 3) 3 0 (sendFramedStream [1] 1)).2 = .done 1 := rfl
  rw [fails] at two
  obtain ⟨_, same, _⟩ := one.unique two
  cases same

end Uc1Integration.Transport
