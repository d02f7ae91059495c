import Uc1Integration.TlsClient.Events

/-! What `initFunc` leaves behind, for every outcome of `malloc`. -/

set_option autoImplicit false

namespace Uc1Integration.TlsClient

open Interaction Transport Tee Program

theorem setPortion_self (record : FuncCall) (i : Fin dataPortions) (portion : DataPortion) :
    (setPortion record i portion).dataP i = portion := by
  simp [setPortion]

theorem setPortion_of_ne {record : FuncCall} {i j : Fin dataPortions} (different : j ≠ i)
    (portion : DataPortion) : (setPortion record i portion).dataP j = record.dataP j := by
  simp [setPortion, different]

theorem liveLen_zeroedPortion {len : UInt8} (some : 0 < len) (addr : Nat) :
    (zeroedPortion len addr).liveLen = .some len := by
  have positive : 0 < len.toNat := some
  simp [DataPortion.liveLen, DataPortion.live, zeroedPortion, positive]

theorem uses_freePortions (record : FuncCall) (indices : List (Fin dataPortions)) :
    Uses (fun operation => ∃ address, operation = .free address) (freePortions record indices) := by
  induction indices generalizing record with
  | nil => exact uses_done _
  | cons i rest ih =>
      refine Uses.bind (Uses.bind (uses_perform ⟨_, rfl⟩) fun _ => uses_done _) fun record => ?_
      exact ih record

theorem allocates_of_free {operation : ClientCall} (frees : ∃ address, operation = .free address) :
    operation.Allocates := by
  obtain ⟨address, rfl⟩ := frees
  trivial

theorem uses_initPortions (pattern : Fin dataPortions → UInt8) (record : FuncCall)
    (indices : List (Fin dataPortions)) :
    Uses ClientCall.Allocates (initPortions pattern record indices) := by
  induction indices generalizing record with
  | nil => exact uses_done _
  | cons i rest ih =>
      rw [initPortions]
      refine Uses.ite (Uses.bind (uses_perform trivial) fun address => ?_) (ih _)
      cases address with
      | none =>
          refine Uses.bind ((uses_freePortions _ _).mono fun _ => allocates_of_free) fun _ => ?_
          exact uses_done _
      | some address => exact ih _

/-- `initFunc` returns 0 exactly when `malloc` never failed. -/
theorem initPortions_code {pattern : Fin dataPortions → UInt8} {record result : FuncCall}
    {indices : List (Fin dataPortions)} {events : List ClientEvent} {code : Int}
    (runs : Runs (initPortions pattern record indices) events (.done (code, result))) :
    code = 0 ↔ none ∉ mallocs events := by
  induction indices generalizing record events with
  | nil =>
      obtain ⟨rfl, same⟩ := runs.of_done
      cases same
      simp [mallocs]
  | cons i rest ih =>
      rw [initPortions] at runs
      split at runs
      next =>
        obtain ⟨address, first, second, rfl, one, onward⟩ := Runs.of_bind_done runs
        rw [one.of_perform, mallocs_append]
        cases address with
        | none =>
            obtain ⟨_, _, _, rfl, _, ended⟩ := Runs.of_bind_done onward
            obtain ⟨rfl, same⟩ := ended.of_done
            cases same
            simp [mallocs, mallocOf]
        | some address =>
            rw [ih onward]
            simp [mallocs, mallocOf]
      next => exact ih runs

/-- What `initFunc` is to leave for a length: a zeroed block of its own, or nothing. -/
structure Allocated (events : List ClientEvent) (len : UInt8) (portion : DataPortion) : Prop where
  block : 0 < len → ∃ addr, ⟨.malloc len, some addr⟩ ∈ events ∧ portion = zeroedPortion len addr
  nothing : len = 0 → portion = nullPortion 0

theorem Allocated.mono {events more : List ClientEvent} {len : UInt8} {portion : DataPortion}
    (allocated : Allocated events len portion) (inside : events ⊆ more) :
    Allocated more len portion := by
  refine ⟨?_, allocated.nothing⟩
  intro positive
  obtain ⟨addr, member, same⟩ := allocated.block positive
  exact ⟨addr, inside member, same⟩

theorem allocated_zeroedPortion {len : UInt8} (positive : 0 < len) (addr : Nat) :
    Allocated [⟨.malloc len, some addr⟩] len (zeroedPortion len addr) := by
  refine ⟨fun _ => ⟨addr, List.mem_singleton_self _, rfl⟩, ?_⟩
  rintro rfl
  exact absurd positive (by decide)

theorem allocated_nullPortion {events : List ClientEvent} {len : UInt8} (zero : ¬ 0 < len) :
    Allocated events len (nullPortion len) := by
  refine ⟨fun positive => absurd positive zero, ?_⟩
  intro same
  rw [same]

theorem portions_of_initPortions {pattern : Fin dataPortions → UInt8} {record result : FuncCall}
    {indices : List (Fin dataPortions)} {events : List ClientEvent}
    (distinct : indices.Nodup)
    (runs : Runs (initPortions pattern record indices) events (.done (0, result))) :
    (∀ i ∈ indices, Allocated events (pattern i) (result.dataP i)) ∧
      ∀ i ∉ indices, result.dataP i = record.dataP i := by
  induction indices generalizing record events with
  | nil =>
      obtain ⟨rfl, same⟩ := runs.of_done
      cases same
      exact ⟨nofun, fun _ _ => rfl⟩
  | cons i rest ih =>
      obtain ⟨fresh, distinct⟩ := List.nodup_cons.mp distinct
      -- Portion `i` is not touched again.
      have onward : ∀ {portion : DataPortion} {first events : List ClientEvent},
          Runs (initPortions pattern (setPortion record i portion) rest) events
            (.done (0, result)) →
          Allocated first (pattern i) portion →
          (∀ j ∈ i :: rest, Allocated (first ++ events) (pattern j) (result.dataP j)) ∧
            ∀ j ∉ i :: rest, result.dataP j = record.dataP j := by
        intro portion first events runs allocated
        obtain ⟨inside, outside⟩ := ih distinct runs
        constructor
        · intro j member
          rcases List.mem_cons.mp member with rfl | behind
          · rw [outside j fresh, setPortion_self]
            exact allocated.mono (List.subset_append_left first events)
          · exact (inside j behind).mono (List.subset_append_right first events)
        · intro j absent
          rw [outside j (List.not_mem_of_not_mem_cons absent),
            setPortion_of_ne (List.ne_of_not_mem_cons absent)]
      rw [initPortions] at runs
      split at runs
      next positive =>
        obtain ⟨address, first, second, rfl, one, runs⟩ := Runs.of_bind_done runs
        cases address with
        | none =>
            obtain ⟨_, _, _, rfl, _, runs⟩ := Runs.of_bind_done runs
            obtain ⟨_, same⟩ := runs.of_done
            cases same
        | some address =>
            rw [one.of_perform]
            exact onward runs (allocated_zeroedPortion positive address)
      next zero =>
        have nothing : Allocated [] (pattern i) (nullPortion (pattern i)) :=
          allocated_nullPortion zero
        exact onward runs nothing

/-- After a success every portion of a positive length is live. -/
theorem liveLen_of_initPortions {pattern : Fin dataPortions → UInt8} {record result : FuncCall}
    {indices : List (Fin dataPortions)} {events : List ClientEvent}
    (distinct : indices.Nodup)
    (runs : Runs (initPortions pattern record indices) events (.done (0, result)))
    {i : Fin dataPortions} (member : i ∈ indices) (positive : 0 < pattern i) :
    (result.dataP i).liveLen = some (pattern i) := by
  obtain ⟨addr, _, same⟩ := ((portions_of_initPortions distinct runs).1 i member).block positive
  rw [same, liveLen_zeroedPortion positive]

end Uc1Integration.TlsClient
