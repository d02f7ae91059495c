import Uc1Integration.TlsClient.Resources

/-!
# Who owns the blocks of a record

`initFunc` is to hand over a record that owns exactly what it points to, or
nothing at all. Four functions rely on it: they decide from a portion's pointer
and length what they may dereference.
-/

set_option autoImplicit false

namespace Uc1Integration.TlsClient

open Interaction Transport Tee Program

inductive RecordUser where
  | freeFunc
  | sendChallenge
  | recChallenge
  | cpyLastResult
  deriving DecidableEq, Repr

/-- The pointer a function follows at a portion, if it follows one there. `free`
ignores `NULL`; `cpy_last_result` looks at the length only. -/
def RecordUser.follows (portion : DataPortion) : RecordUser → Option (Option Nat)
  | .freeFunc => portion.data.map fun block => some block.addr
  | .sendChallenge => portion.live.map fun block => some block.addr
  | .recChallenge => portion.live.map fun block => some block.addr
  | .cpyLastResult => if 0 < portion.len then some (portion.data.map Block.addr) else none

/-- No function follows `NULL` or a pointer to a block that is not live. -/
def Usable (live : Multiset Resource) (record : FuncCall) : Prop :=
  ∀ (user : RecordUser) i, ∀ pointer ∈ user.follows (record.dataP i),
    ∃ addr, pointer = some addr ∧ .block addr ∈ live

/-- What `initFunc` promises with the code 0, with the code 1, and after either. -/
structure Initialises (live : Multiset Resource) (pattern : Fin dataPortions → UInt8)
    (events : List ClientEvent) (code : Int) (result : FuncCall) : Prop where
  succeeded : code = 0 → resources.Settles live events (live + ownedBy result) ∧
    ∀ i, Allocated events (pattern i) (result.dataP i)
  failed : code = 1 → resources.Settles live events live ∧ ∀ i, result.dataP i = nullPortion 0
  usable : ∀ live', resources.Settles live events live' → Usable live' result
  freed : ∀ live' frees emptied, resources.Settles live events live' →
    Runs (freeFunc result) frees (.done emptied) →
    resources.Settles live' frees live ∧ live' = live + ownedBy result ∧
      ∀ more again, Runs (freeFunc emptied) more (.done again) →
        again = emptied ∧ ∀ event ∈ more, resources.Neutral event

theorem leaked_of_allocates {event : ClientEvent} (allocates : event.1.Allocates) :
    leaked event = 0 := by
  obtain ⟨operation, answer⟩ := event
  cases operation with
  | malloc | free => rfl
  | _ => exact allocates.elim

theorem settles_of_allocates {live live' : Multiset Resource} {events : List ClientEvent}
    (settles : forgiving.Settles live events live')
    (allocates : ∀ event ∈ events, event.1.Allocates) : resources.Settles live events live' := by
  have really := settles.of_writeOff
  have none : (events.map leaked).sum = 0 :=
    Ledger.sum_lost_eq_zero.mpr fun event member => leaked_of_allocates (allocates event member)
  rw [none, add_zero] at really
  exact really

theorem settles_initFunc {record result : FuncCall} {func : UInt32}
    {pattern : Fin dataPortions → UInt8} {events : List ClientEvent} {code : Int}
    (runs : Runs (initFunc record func pattern) events (.done (code, result)))
    (live : Multiset Resource) :
    ∃ live', resources.Settles live events live' ∧
      InitOutcome pattern live { record with func } (List.finRange dataPortions) (code, result)
        live' := by
  have leaves : forgiving.Leaves (fun _ => True) (live + owned { record with func } [])
      (initFunc record func pattern) _ :=
    leaves_initPortions pattern live { record with func } (List.nil_append _)
  rw [owned_nil, add_zero] at leaves
  obtain ⟨live', settles, outcome⟩ := leaves runs fun _ _ => trivial
  exact ⟨live', settles_of_allocates settles (uses_initPortions _ _ _ runs), outcome⟩

theorem settles_freeFunc {record result : FuncCall} {events : List ClientEvent}
    (runs : Runs (freeFunc record) events (.done result)) (live : Multiset Resource) :
    resources.Settles (live + ownedBy record) events live ∧
      ∀ i, result.dataP i = nullPortion 0 := by
  have leaves : forgiving.Leaves (fun _ => True) (live + ownedBy record) (freeFunc record) _ :=
    leaves_freePortions live record (List.nodup_finRange dataPortions)
  obtain ⟨live', settles, rfl, empties, _⟩ := leaves runs fun _ _ => trivial
  refine ⟨settles_of_allocates settles ?_, fun i => empties i (List.mem_finRange i)⟩
  intro event member
  exact allocates_of_free (uses_freePortions _ _ runs event member)

/-- A record that is empty already stays as it is, and nothing is freed. -/
theorem freePortions_empty {record result : FuncCall} {indices : List (Fin dataPortions)}
    {events : List ClientEvent} (empty : ∀ i, record.dataP i = nullPortion 0)
    (runs : Runs (freePortions record indices) events (.done result)) :
    result = record ∧ ∀ event ∈ events, resources.Neutral event := by
  induction indices generalizing events with
  | nil =>
      obtain ⟨rfl, same⟩ := runs.of_done
      cases same
      exact ⟨rfl, nofun⟩
  | cons i rest ih =>
      obtain ⟨emptied, first, later, rfl, one, onward⟩ := Runs.of_bind_done runs
      obtain ⟨_, freed, _, rfl, frees, returned⟩ := Runs.of_bind_done one
      obtain ⟨rfl, same⟩ := returned.of_done
      have unchanged : setPortion record i (nullPortion 0) = record := by
        rw [setPortion, ← empty i, Function.update_eq_self]
      rw [unchanged] at same
      cases same
      obtain ⟨kept, neutral⟩ := ih onward
      refine ⟨kept, ?_⟩
      rw [frees.of_perform, empty i]
      intro event member
      rcases List.mem_cons.mp member with rfl | behind
      · exact ⟨rfl, rfl⟩
      · exact neutral event behind

/-- A portion with a length has a block. -/
def Held (portion : DataPortion) : Prop :=
  0 < portion.len → portion.data ≠ none

theorem held_of_allocated {events : List ClientEvent} {len : UInt8} {portion : DataPortion}
    (allocated : Allocated events len portion) : Held portion := by
  intro positive
  by_cases zero : len = 0
  · rw [allocated.nothing zero] at positive
    exact absurd positive (by decide)
  · obtain ⟨addr, _, rfl⟩ := allocated.block (UInt8.pos_iff_ne_zero.mpr zero)
    exact Option.some_ne_none _

theorem exists_block_of_follows {portion : DataPortion} {user : RecordUser} {pointer : Option Nat}
    (held : Held portion) (follows : pointer ∈ user.follows portion) :
    ∃ block ∈ portion.data, pointer = some block.addr := by
  have ofLive : pointer ∈ portion.live.map (fun block => some block.addr) →
      ∃ block ∈ portion.data, pointer = some block.addr := by
    intro member
    obtain ⟨block, live, rfl⟩ := Option.mem_map.mp member
    unfold DataPortion.live at live
    split at live
    · exact ⟨block, live, rfl⟩
    · cases live
  cases user with
  | freeFunc =>
      obtain ⟨block, member, rfl⟩ := Option.mem_map.mp follows
      exact ⟨block, member, rfl⟩
  | sendChallenge => exact ofLive follows
  | recChallenge => exact ofLive follows
  | cpyLastResult =>
      simp only [RecordUser.follows] at follows
      split at follows
      next positive =>
        obtain ⟨block, holds⟩ := Option.ne_none_iff_exists'.mp (held positive)
        rw [holds] at follows ⊢
        cases follows
        exact ⟨block, rfl, rfl⟩
      next => cases follows

theorem mem_owned {record : FuncCall} {i : Fin dataPortions} {indices : List (Fin dataPortions)}
    {block : Block} (holds : block ∈ (record.dataP i).data) (member : i ∈ indices) :
    .block block.addr ∈ owned record indices := by
  induction indices with
  | nil => cases member
  | cons j rest ih =>
      rw [owned_cons, Multiset.mem_add]
      rcases List.mem_cons.mp member with rfl | behind
      · rw [blockOf, Option.mem_def.mp holds]
        exact .inl (Multiset.mem_singleton_self _)
      · exact .inr (ih behind)

theorem usable_of_held {live : Multiset Resource} {record : FuncCall}
    (held : ∀ i, Held (record.dataP i)) : Usable (live + ownedBy record) record := by
  intro user i pointer follows
  obtain ⟨block, holds, rfl⟩ := exists_block_of_follows (held i) follows
  exact ⟨block.addr, rfl, Multiset.mem_add.mpr (.inr (mem_owned holds (List.mem_finRange i)))⟩

/-- A failed allocation leaves a length without a block. -/
theorem RolledBack.not_empty {pattern : Fin dataPortions → UInt8} {record result : FuncCall}
    {i : Fin dataPortions} (rolledBack : RolledBack pattern record result i) :
    ¬ ∀ i, result.dataP i = nullPortion 0 := by
  intro empty
  have lengths : pattern i = 0 :=
    congrArg DataPortion.len (rolledBack.failing.symm.trans (empty i))
  have positive := rolledBack.positive
  rw [lengths] at positive
  exact absurd positive (by decide)

/-- `initFunc` keeps its promises exactly when no allocation fails. -/
theorem initialises_iff {live : Multiset Resource} {record result : FuncCall} {func : UInt32}
    {pattern : Fin dataPortions → UInt8} {events : List ClientEvent} {code : Int}
    (runs : Runs (initFunc record func pattern) events (.done (code, result))) :
    Initialises live pattern events code result ↔ none ∉ mallocs events := by
  obtain ⟨live', settles, outcome⟩ := settles_initFunc runs live
  rw [← initPortions_code runs]
  constructor
  · intro initialises
    rcases outcome with ⟨success, _⟩ | ⟨failure, _, i, _, rolledBack⟩
    · exact success
    · exact absurd (initialises.failed failure).2 rolledBack.not_empty
  · intro success
    subst success
    obtain ⟨_, rfl⟩ := outcome.resolve_right fun failure => absurd failure.1 Int.zero_ne_one
    have allocated := (portions_of_initPortions (List.nodup_finRange dataPortions) runs).1
    constructor
    · exact fun _ => ⟨settles, fun i => allocated i (List.mem_finRange i)⟩
    · intro failure
      exact absurd failure (by decide)
    · intro other settled
      rw [settled.unique settles]
      exact usable_of_held fun i => held_of_allocated (allocated i (List.mem_finRange i))
    · intro other frees emptied settled freeing
      rw [settled.unique settles]
      obtain ⟨freed, empty⟩ := settles_freeFunc freeing live
      exact ⟨freed, rfl, fun more again runs => freePortions_empty empty runs⟩

def emptyRecord (func : UInt32) : FuncCall :=
  ⟨func, fun _ => nullPortion 0⟩

/-- The second of four allocations fails, and the first block is given back. -/
def exhausted : List ClientEvent :=
  [⟨.malloc 32, some 0x20001000⟩, ⟨.malloc 32, none⟩, ⟨.free (some 0x20001000), ()⟩]

def exhaustedRecord : FuncCall :=
  setPortion
    (setPortion (setPortion (emptyRecord pufTaInitFuncId) 0 (zeroedPortion 32 0x20001000)) 1
      (nullPortion 32))
    0 (nullPortion 0)

theorem runs_exhausted :
    Runs (initFunc (emptyRecord 0) pufTaInitFuncId patternInitCommit) exhausted
      (.done (1, exhaustedRecord)) :=
  .call _ rfl (.call _ rfl (.call _ rfl (.stop _)))

theorem initialises_iff_exhausted :
    ¬ Initialises 0 patternInitCommit exhausted 1 exhaustedRecord := by
  rw [initialises_iff runs_exhausted]
  decide

theorem not_initialises_exhausted :
    ¬ ∀ live record func pattern events code result,
      Runs (initFunc record func pattern) events (.done (code, result)) →
        Initialises live pattern events code result := by
  intro always
  have empty := ((always 0 _ _ _ _ _ _ runs_exhausted).failed rfl).2 1
  exact absurd (congrArg DataPortion.len empty) (by decide)

end Uc1Integration.TlsClient
