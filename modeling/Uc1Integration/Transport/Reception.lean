import Uc1Integration.Transport.ChallengeProperties
import Uc1Integration.Transport.Stages

/-!
# What a reception accepts

Whatever the peer sends and wherever the connection breaks: a frame that is
accepted was there, and the id a record ends with is the one its first frame
carried.
-/

set_option autoImplicit false

namespace Uc1Integration.Transport

open Interaction Program

/-- A frame as it was read. Its payload is cut short where a read failed. -/
structure FrameRead (len : Nat) (events : List SslEvent) (payload : List UInt8) : Prop where
  parts : ∃ hunting body closing, events = hunting ++ body ++ closing ∧
    EndsAtStart (bytesRead hunting) ∧ bytesRead body = payload ∧
    bytesRead closing = stopSeq ∧
    (payload.length = len ∨ ∃ event ∈ body, SslEvent.Broken event)
  bounded : payload.length ≤ len

/-- What `recStream` accepts is a frame, and its payload is what the buffer gets. -/
theorem frameRead_of_recStream {buf out : List UInt8} {len : UInt8} {events : List SslEvent}
    (valid : ∀ event ∈ events, SslEvent.Valid event)
    (runs : Runs (recStream buf len) events (.done (0, out))) :
    ∃ payload, FrameRead len.toNat events payload ∧ out = store buf 0 payload := by
  cases streamEnd valid runs with
  | @ended hunted body closing code stopCode _ unbroken start payload stop matched filled =>
      have same : bytesRead closing = stopSeq := by
        by_contra other
        rw [if_neg other] at matched
        cases matched
      refine ⟨bytesRead body, ⟨⟨hunted, body, closing, rfl, start, rfl, same, ?_⟩,
        payload.length_le⟩, filled⟩
      cases payload with
      | full _ whole => exact .inl whole
      | cut broken _ =>
          obtain ⟨_, broken⟩ := broken
          exact .inr ⟨_, by simp, broken⟩

/-- The id carried by the first frame of what was read; where a failed read cut
it short, zeros take the place of its missing bytes. -/
def CarriesId (id : UInt32) (events : List SslEvent) : Prop :=
  ∃ first rest payload, events = first ++ rest ∧ FrameRead idLen.toNat first payload ∧
    id = idOfBytes (payload ++ List.replicate (4 - payload.length) 0)

/-- What every copy into a portion keeps. -/
theorem recPortions_keeps (property : FuncCall → Prop)
    (copies : ∀ call i source, property call → property (call.setData i source))
    {buffer : List UInt8} {call : FuncCall} {indices : List (Fin dataPortions)}
    {events : List SslEvent} {result : Int × FuncCall} (holds : property call)
    (runs : Runs (recPortions buffer call indices) events (.done result)) : property result.2 := by
  induction indices generalizing buffer call events with
  | nil =>
      obtain ⟨_, same⟩ := runs.of_done
      cases same
      exact holds
  | cons i rest ih =>
      rw [recPortions] at runs
      split at runs
      next => exact ih holds runs
      next =>
        obtain ⟨⟨err, buffer⟩, _, _, rfl, _, runs⟩ := Runs.of_bind_done runs
        dsimp only at runs
        split at runs
        next =>
          obtain ⟨_, same⟩ := runs.of_done
          cases same
          exact holds
        next =>
          obtain ⟨code, _, _, rfl, _, runs⟩ := Runs.of_bind_done runs
          split at runs
          next =>
            obtain ⟨_, same⟩ := runs.of_done
            cases same
            exact holds
          next => exact ih (copies call i buffer holds) runs

theorem func_of_recPortions {buffer : List UInt8} {call : FuncCall}
    {indices : List (Fin dataPortions)} {events : List SslEvent} {result : Int × FuncCall}
    (runs : Runs (recPortions buffer call indices) events (.done result)) :
    result.2.func = call.func := by
  refine recPortions_keeps (fun record => record.func = call.func) ?_ rfl runs
  intro record i source same
  exact (FuncCall.func_setData _ _ _).trans same

theorem recChallenge_keeps (property : FuncCall → Prop)
    (copies : ∀ call i source, property call → property (call.setData i source))
    (renames : ∀ call func, property call → property { call with func }) {call : FuncCall}
    {events : List SslEvent} {result : Int × FuncCall} (holds : property call)
    (runs : Runs (recChallenge call) events (.done result)) : property result.2 := by
  obtain ⟨⟨err, buffer⟩, _, _, rfl, _, runs⟩ := Runs.of_bind_done runs
  dsimp only at runs
  split at runs
  next =>
    obtain ⟨_, same⟩ := runs.of_done
    cases same
    exact holds
  next =>
    obtain ⟨code, _, _, rfl, _, runs⟩ := Runs.of_bind_done runs
    split at runs
    next =>
      obtain ⟨_, same⟩ := runs.of_done
      cases same
      exact holds
    next => exact recPortions_keeps property copies (renames call _ holds) runs

theorem take_four_store {payload : List UInt8} (short : payload.length ≤ 4) :
    (store (List.replicate bufSize 0) 0 payload).take 4 =
      payload ++ List.replicate (4 - payload.length) 0 := by
  have size : bufSize = 256 := rfl
  rw [store_zero, List.take_append, List.take_of_length_le short, List.drop_replicate,
    List.take_replicate, Nat.min_eq_left (by omega)]

theorem carriesId_of_recChallenge {call received : FuncCall} {events : List SslEvent}
    (valid : ∀ event ∈ events, SslEvent.Valid event)
    (runs : Runs (recChallenge call) events (.done (0, received))) :
    CarriesId received.func events := by
  obtain ⟨⟨err, buffer⟩, first, rest, rfl, one, runs⟩ := Runs.of_bind_done runs
  dsimp only at runs
  split at runs
  next =>
    obtain ⟨_, same⟩ := runs.of_done
    cases same
  next fine =>
    obtain ⟨code, _, _, rfl, _, runs⟩ := Runs.of_bind_done runs
    split at runs
    next =>
      obtain ⟨_, same⟩ := runs.of_done
      cases same
    next =>
      rw [ne_eq, not_not] at fine
      rw [fine] at one
      obtain ⟨payload, frame, filled⟩ := frameRead_of_recStream
        (fun event member => valid event (List.mem_append_left _ member)) one
      refine ⟨first, _, payload, rfl, frame, ?_⟩
      rw [← take_four_store frame.bounded, ← filled]
      exact func_of_recPortions runs

/-- How a reception ends depends only on the lengths of the portions. -/
theorem recPortions_code {buffer : List UInt8} {one two : FuncCall}
    {indices : List (Fin dataPortions)}
    (shape : ∀ i, (one.dataP i).liveLen = (two.dataP i).liveLen) :
    (recPortions buffer one indices).bind (fun result => .done result.1) =
      (recPortions buffer two indices).bind (fun result => .done result.1) := by
  induction indices generalizing buffer one two with
  | nil => rfl
  | cons i rest ih =>
      have here := shape i
      have onward : ∀ buffer, (recPortions buffer (one.setData i buffer) rest).bind
            (fun result => .done result.1) =
          (recPortions buffer (two.setData i buffer) rest).bind (fun result => .done result.1) := by
        intro buffer
        apply ih
        intro j
        by_cases same : j = i
        · subst same
          rw [FuncCall.dataP_setData_self, FuncCall.dataP_setData_self, liveLen_copyFrom,
            liveLen_copyFrom, here]
        · rw [FuncCall.dataP_setData_of_ne same, FuncCall.dataP_setData_of_ne same, shape j]
      simp only [recPortions]
      cases first : (one.dataP i).live with
      | none =>
          cases second : (two.dataP i).live with
          | none => exact ih shape
          | some block => simp [DataPortion.liveLen, first, second] at here
      | some block =>
          cases second : (two.dataP i).live with
          | none => simp [DataPortion.liveLen, first, second] at here
          | some block =>
              have lens : (one.dataP i).len = (two.dataP i).len := by
                simpa [DataPortion.liveLen, first, second] using here
              simp only [bind_eq, bind_assoc, lens]
              congr 1
              funext result
              obtain ⟨err, buffer⟩ := result
              dsimp only
              split
              · rfl
              · simp only [bind_assoc]
                congr 1
                funext code
                split
                · rfl
                · exact onward buffer

theorem recChallenge_code {one two : FuncCall}
    (shape : ∀ i, (one.dataP i).liveLen = (two.dataP i).liveLen) :
    (recChallenge one).bind (fun result => .done result.1) =
      (recChallenge two).bind (fun result => .done result.1) := by
  simp only [recChallenge, bind_eq, bind_assoc]
  congr 1
  funext result
  obtain ⟨err, buffer⟩ := result
  dsimp only
  split
  · rfl
  · simp only [bind_assoc]
    congr 1
    funext code
    split
    · rfl
    · exact recPortions_code shape

end Uc1Integration.Transport
