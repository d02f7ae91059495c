import Uc1Integration.Interaction.Ledger
import Uc1Integration.TlsClient.Allocation
import Uc1Integration.TlsClient.SocketConnection

/-!
# The resources of the client

What the client acquires and releases outside its own code, and what the
allocation of a record makes of them.
-/

set_option autoImplicit false

namespace Uc1Integration.TlsClient

open Interaction Transport Tee Program

/-- An open socket, a reference of `wolfSSL_Init`, an object of wolfSSL or a
block of the heap. -/
inductive Resource where
  | socket (fd : Int)
  | library
  | context (addr : Nat)
  | object (addr : Nat)
  | block (addr : Nat)
  deriving DecidableEq, Repr

/-- A negative descriptor is not open. -/
def socketOf (sock : Int) : Multiset Resource :=
  if 0 ≤ sock then {.socket sock} else 0

def libraryOf (ret : Int) : Multiset Resource :=
  if ret = wolfsslSuccess then {.library} else 0

/-- What a pointer refers to; `NULL` refers to nothing. -/
def pointee (kind : Nat → Resource) : Option Nat → Multiset Resource
  | none => 0
  | some addr => {kind addr}

def acquired : ClientEvent → Multiset Resource
  | ⟨.socket, sock⟩ => socketOf sock
  | ⟨.wolfsslInit, ret⟩ => libraryOf ret
  | ⟨.ctxNew, ctx⟩ => pointee .context ctx
  | ⟨.sslNew _, ssl⟩ => pointee .object ssl
  | ⟨.malloc _, address⟩ => pointee .block address
  | _ => 0

def released : ClientEvent → Multiset Resource
  | ⟨.close sock, _⟩ => socketOf sock
  | ⟨.wolfsslCleanup, _⟩ => {.library}
  | ⟨.ctxFree ctx, _⟩ => {.context ctx}
  | ⟨.sslFree ssl, _⟩ => {.object ssl}
  | ⟨.free address, _⟩ => pointee .block address
  | _ => 0

def resources : Ledger ClientEvent Resource :=
  ⟨acquired, released⟩

/-- The jump to `end` leaves out `close`, and the jump to `socket_cleanup` for
want of a context leaves out `wolfSSL_Cleanup`. -/
def leaked : ClientEvent → Multiset Resource
  | ⟨.connect sock, ret⟩ => if ret = -1 then socketOf sock else 0
  | ⟨.ctxNew, none⟩ => {.library}
  | _ => 0

abbrev forgiving : Ledger ClientEvent Resource :=
  resources.writeOff leaked

theorem releases_eq {event : ClientEvent} (none : leaked event = 0) :
    forgiving.releases event = released event := by
  rw [show forgiving.releases event = released event + leaked event from rfl, none, add_zero]

/-- The block a portion holds. -/
def blockOf (portion : DataPortion) : Multiset Resource :=
  pointee .block (portion.data.map Block.addr)

/-- The blocks of these portions. -/
def owned (record : FuncCall) (indices : List (Fin dataPortions)) : Multiset Resource :=
  (indices.map fun i => blockOf (record.dataP i)).sum

def ownedBy (record : FuncCall) : Multiset Resource :=
  owned record (List.finRange dataPortions)

@[simp] theorem blockOf_nullPortion (len : UInt8) : blockOf (nullPortion len) = 0 := rfl

@[simp] theorem owned_nil (record : FuncCall) : owned record [] = 0 := rfl

@[simp] theorem owned_cons (record : FuncCall) (i : Fin dataPortions)
    (indices : List (Fin dataPortions)) :
    owned record (i :: indices) = blockOf (record.dataP i) + owned record indices :=
  List.sum_cons

theorem owned_congr {record record' : FuncCall} {indices : List (Fin dataPortions)}
    (same : ∀ i ∈ indices, blockOf (record.dataP i) = blockOf (record'.dataP i)) :
    owned record indices = owned record' indices :=
  congrArg List.sum (List.map_congr_left same)

theorem owned_setPortion {record : FuncCall} {i : Fin dataPortions} {portion : DataPortion}
    {indices : List (Fin dataPortions)} (absent : i ∉ indices) :
    owned (setPortion record i portion) indices = owned record indices := by
  apply owned_congr
  intro j member
  rw [setPortion_of_ne (ne_of_mem_of_not_mem member absent)]

theorem owned_concat (record : FuncCall) {i : Fin dataPortions} {portion : DataPortion}
    {before : List (Fin dataPortions)} (absent : i ∉ before) :
    owned (setPortion record i portion) (before ++ [i]) = owned record before + blockOf portion := by
  have kept : owned (setPortion record i portion) before = owned record before :=
    owned_setPortion absent
  rw [← kept]
  simp [owned, setPortion_self]

theorem owned_eq_zero {record : FuncCall} {indices : List (Fin dataPortions)}
    (none : ∀ i ∈ indices, (record.dataP i).data = none) : owned record indices = 0 := by
  apply List.sum_eq_zero
  intro block member
  obtain ⟨i, inside, rfl⟩ := List.mem_map.mp member
  rw [blockOf, none i inside]
  rfl

section Allocation

variable {valid : ClientEvent → Prop}

/-- `freePortions` releases the blocks of its portions and leaves them empty. -/
theorem leaves_freePortions (live : Multiset Resource) (record : FuncCall)
    {indices : List (Fin dataPortions)} (distinct : indices.Nodup) :
    forgiving.Leaves valid (live + owned record indices) (freePortions record indices)
      fun result live' => live' = live ∧ (∀ i ∈ indices, result.dataP i = nullPortion 0) ∧
        ∀ i ∉ indices, result.dataP i = record.dataP i := by
  induction indices generalizing record with
  | nil => exact Ledger.leaves_done ⟨add_zero live, nofun, fun _ _ => rfl⟩
  | cons i rest ih =>
      obtain ⟨absent, distinct⟩ := List.nodup_cons.mp distinct
      have onward := ih (setPortion record i (nullPortion 0)) distinct
      rw [owned_setPortion absent] at onward
      rw [owned_cons, add_comm (blockOf _), ← add_assoc]
      refine Ledger.leaves_release (fun _ => releases_eq rfl) (fun _ => rfl) fun _ => ?_
      refine Ledger.Leaves.mono onward ?_
      rintro result live' ⟨same, inside, outside⟩
      refine ⟨same, ?_, ?_⟩
      · intro j member
        rcases List.mem_cons.mp member with rfl | behind
        · rw [outside j absent, setPortion_self]
        · exact inside j behind
      · intro j notIn
        rw [outside j (List.not_mem_of_not_mem_cons notIn),
          setPortion_of_ne (List.ne_of_not_mem_cons notIn)]

/-- The portions in front of one are those with a smaller index. -/
theorem take_finRange {before rest : List (Fin dataPortions)} {i : Fin dataPortions}
    (split : before ++ i :: rest = List.finRange dataPortions) :
    (List.finRange dataPortions).take i = before := by
  have here : i.val = before.length := by
    have found := List.getElem_of_append split.symm rfl
    rw [List.getElem_finRange] at found
    exact (congrArg Fin.val found).symm
  rw [here, ← split, List.take_left]

theorem mem_before_iff {before rest : List (Fin dataPortions)} {i j : Fin dataPortions}
    (split : before ++ i :: rest = List.finRange dataPortions) : j ∈ before ↔ j < i := by
  rw [← take_finRange split, List.mem_take_iff_getElem]
  constructor
  · rintro ⟨k, small, rfl⟩
    rw [List.getElem_finRange]
    exact (lt_min_iff.mp small).1
  · intro ahead
    exact ⟨j, by simpa using ahead, by simp⟩

theorem lt_of_mem_rest {before rest : List (Fin dataPortions)} {i j : Fin dataPortions}
    (split : before ++ i :: rest = List.finRange dataPortions) (member : j ∈ rest) : i < j := by
  have increasing := List.pairwise_lt_finRange dataPortions
  rw [← split] at increasing
  exact List.rel_of_pairwise_cons (List.pairwise_append.mp increasing).2.1 member

/-- What `initFunc` leaves when the allocation of a portion failed. -/
structure RolledBack (pattern : Fin dataPortions → UInt8) (record result : FuncCall)
    (i : Fin dataPortions) : Prop where
  positive : 0 < pattern i
  failing : result.dataP i = nullPortion (pattern i)
  earlier : ∀ j < i, result.dataP j = nullPortion 0
  later : ∀ j, i < j → result.dataP j = record.dataP j

/-- What `initFunc` makes of the blocks that are live. -/
def InitOutcome (pattern : Fin dataPortions → UInt8) (live : Multiset Resource)
    (record : FuncCall) (indices : List (Fin dataPortions)) (outcome : Int × FuncCall)
    (live' : Multiset Resource) : Prop :=
  outcome.1 = 0 ∧ live' = live + ownedBy outcome.2 ∨
    outcome.1 = 1 ∧ live' = live ∧ ∃ i ∈ indices, RolledBack pattern record outcome.2 i

theorem InitOutcome.of_setPortion {pattern : Fin dataPortions → UInt8}
    {live live' : Multiset Resource} {record : FuncCall} {outcome : Int × FuncCall}
    {i : Fin dataPortions} {rest : List (Fin dataPortions)} {portion : DataPortion}
    (ordered : ∀ j ∈ rest, i < j)
    (outcomes : InitOutcome pattern live (setPortion record i portion) rest outcome live') :
    InitOutcome pattern live record (i :: rest) outcome live' := by
  rcases outcomes with succeeded | ⟨code, same, j, member, rolledBack⟩
  · exact .inl succeeded
  · refine .inr ⟨code, same, j, List.mem_cons_of_mem _ member, rolledBack.positive,
      rolledBack.failing, rolledBack.earlier, ?_⟩
    intro k behind
    rw [rolledBack.later k behind, setPortion_of_ne ((ordered j member).trans behind).ne']

theorem leaves_initPortions (pattern : Fin dataPortions → UInt8) (live : Multiset Resource)
    (record : FuncCall) {before indices : List (Fin dataPortions)}
    (split : before ++ indices = List.finRange dataPortions) :
    forgiving.Leaves valid (live + owned record before) (initPortions pattern record indices)
      (InitOutcome pattern live record indices) := by
  induction indices generalizing record before with
  | nil =>
      rw [List.append_nil] at split
      exact Ledger.leaves_done (.inl ⟨rfl, by rw [split, ownedBy]⟩)
  | cons i rest ih =>
      have absent : i ∉ before := fun inside => lt_irrefl i ((mem_before_iff split).mp inside)
      have onward : ∀ portion, forgiving.Leaves valid
          (live + owned record before + blockOf portion)
          (initPortions pattern (setPortion record i portion) rest)
          (InitOutcome pattern live record (i :: rest)) := by
        intro portion
        have leaves := ih (setPortion record i portion)
          ((List.append_assoc before [i] rest).trans split)
        rw [owned_concat record absent, ← add_assoc] at leaves
        exact leaves.mono fun outcome live' outcomes =>
          outcomes.of_setPortion fun j => lt_of_mem_rest split
      rw [initPortions]
      refine Ledger.Leaves.ite (fun positive => ?_) fun _ => ?_
      · refine Ledger.leaves_acquire (fun _ => releases_eq rfl) fun address _ => ?_
        cases address with
        | none =>
            have distinct : before.Nodup := by
              have whole := List.nodup_finRange dataPortions
              rw [← split] at whole
              exact (List.nodup_append.mp whole).1
            have kept : owned (setPortion record i (nullPortion (pattern i))) before =
                owned record before := owned_setPortion absent
            rw [take_finRange split, show forgiving.acquires ⟨.malloc (pattern i), none⟩ = 0 from rfl,
              add_zero, ← kept]
            refine Ledger.Leaves.bind (leaves_freePortions live _ distinct) ?_
            rintro result live' ⟨same, inside, outside⟩
            refine Ledger.leaves_done (.inr ⟨rfl, same, i, List.mem_cons_self, positive, ?_, ?_, ?_⟩)
            · rw [outside i absent, setPortion_self]
            · intro j ahead
              exact inside j ((mem_before_iff split).mpr ahead)
            · intro j behind
              rw [outside j fun member => ((mem_before_iff split).mp member).asymm behind,
                setPortion_of_ne behind.ne']
        | some addr => exact onward (zeroedPortion (pattern i) addr)
      · have leaves := onward (nullPortion (pattern i))
        rw [blockOf_nullPortion, add_zero] at leaves
        exact leaves

end Allocation

end Uc1Integration.TlsClient
