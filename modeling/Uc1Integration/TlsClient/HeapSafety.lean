import Uc1Integration.Tee.Copies
import Uc1Integration.TlsClient.Balance
import Uc1Integration.TlsClient.Ownership
import Uc1Integration.TlsClient.Responses

/-!
# The heap under `challenge_puf`

`challenge_puf` copies from and to the blocks of its records without looking
whether they are there. With replies in time it depends on the allocator alone whether
they are, in every run of the client.
-/

set_option autoImplicit false

namespace Uc1Integration.TlsClient

open Interaction Transport Tee Program

/-!
## The blocks that are live
-/

def Resource.isBlock : Resource → Bool
  | .block _ => true
  | _ => false

/-- The blocks among the resources. -/
def blocks (live : Multiset Resource) : Multiset Resource :=
  live.filter fun resource => resource.isBlock = true

def heap : Ledger ClientEvent Resource :=
  resources.restrict fun resource => resource.isBlock = true

section Blocks

theorem blocks_add (first second : Multiset Resource) :
    blocks (first + second) = blocks first + blocks second :=
  Multiset.filter_add _ first second

theorem blocks_socketOf (sock : Int) : blocks (socketOf sock) = 0 := by
  rw [socketOf]
  split <;> rfl

/-- What a connection loses are never blocks. -/
theorem blocks_leaked (event : ClientEvent) : blocks (leaked event) = 0 := by
  obtain ⟨operation, answer⟩ := event
  cases operation with
  | connect sock =>
      change blocks (if answer = -1 then socketOf sock else 0) = 0
      split
      · exact blocks_socketOf sock
      · rfl
  | ctxNew => cases answer <;> rfl
  | _ => rfl

theorem restrict_forgiving :
    forgiving.restrict (fun resource => resource.isBlock = true) = heap := by
  refine congrArg (Ledger.mk _) (funext fun event => ?_)
  change blocks (released event + leaked event) = blocks (released event)
  rw [blocks_add, blocks_leaked, add_zero]

theorem heap_of_forgiving {live live' : Multiset Resource} {events : List ClientEvent}
    (settles : forgiving.Settles live events live') :
    heap.Settles (blocks live) events (blocks live') := by
  rw [← restrict_forgiving]
  exact settles.restrict

theorem blocks_blockOf (portion : DataPortion) : blocks (blockOf portion) = blockOf portion := by
  rw [blockOf]
  cases portion.data.map Block.addr <;> rfl

theorem blocks_owned (record : FuncCall) (indices : List (Fin dataPortions)) :
    blocks (owned record indices) = owned record indices := by
  induction indices with
  | nil => rfl
  | cons i rest ih => rw [owned_cons, blocks_add, ih, blocks_blockOf]

theorem blocks_conversing (sock : Int) (ctx ssl : Nat) (records : Records) :
    blocks (conversing 0 sock ctx ssl records) = ownedByAll records := by
  have records' : blocks (ownedByAll records) = ownedByAll records := by
    rw [ownedByAll, blocks_add, blocks_add, ownedBy, ownedBy, ownedBy, blocks_owned, blocks_owned,
      blocks_owned]
  have library : blocks {.library} = 0 := rfl
  have context : blocks {.context ctx} = 0 := rfl
  have object : blocks {.object ssl} = 0 := rfl
  rw [conversing, withContext]
  simp only [blocks_add, blocks_socketOf, library, context, object, records', zero_add,
    add_zero]

end Blocks

section Accounts

variable {zephyr : Zephyr} {records asked : Records} {before : List ClientEvent}

/-- `challenge_puf` can always return. -/
theorem exists_outcome (zephyr : Zephyr) (asked : Records) :
    ∃ outcome, TeeOutcome zephyr asked outcome := by
  let own : Own := { bootOwn with record := asked }
  obtain ⟨client, reaches, returned, _⟩ :=
    Interaction.Client.reaches_alone mailbox
      (Interaction.Client.start own (bootShared default) (challengePuf zephyr)) rfl
  obtain ⟨code, result⟩ := Option.ne_none_iff_exists'.mp returned
  exact ⟨(code, client.own.record), own, bootShared default, client, .boot rfl, rfl, reaches,
    result, rfl⟩

/-- When `challenge_puf` is called, the blocks that are live are those of its records. -/
theorem heap_of_asked (bare : Bare records) (valid : ValidRun zephyr before)
    {outcome : Int × Records} {middle : Client (Int × Records)}
    (runs : Runs (testSocketConnection records) (before ++ [⟨.challengePuf asked, outcome⟩])
      middle) :
    heap.Settles 0 before (ownedByAll asked) := by
  -- The run is brought to an end: the TEE answers, and no response is accepted.
  obtain ⟨answered, possible⟩ := exists_outcome zephyr asked
  obtain ⟨asking, arrives, asks⟩ := runs.of_append
  have answers : ∃ responding,
      Runs asking [(⟨.challengePuf asked, answered⟩ : ClientEvent)] responding := by
    cases asks with
    | call _ calls _ => exact ⟨_, .call answered calls (.stop _)⟩
  obtain ⟨responding, answers⟩ := answers
  obtain ⟨_, ssl, ctx, sock, ret, rfl⟩ := runs_asked (arrives.append answers)
  obtain ⟨later, result, responds, fine⟩ := exists_cleanedUp ssl ctx sock ret answered.2
  have whole := validRun_answered valid possible (fine zephyr)
  obtain ⟨settles, _⟩ :=
    settles_testSocketConnection bare whole (arrives.append (answers.append responds)) 0
  obtain ⟨live, first, rest⟩ := settles.of_append
  obtain ⟨live', answering, last⟩ := rest.of_append
  have neutral : forgiving.Settles live [⟨.challengePuf asked, answered⟩] live := by
    refine Ledger.settles_neutral (fun event member => ?_) live
    rw [List.mem_singleton.mp member]
    exact neutral_of_quiet (show ClientCall.Quiet (.challengePuf asked) from trivial) answered
  obtain rfl := answering.unique neutral
  -- All that is live then is released behind it.
  obtain ⟨_, cleans, rfl, _⟩ := leaves_sendResponses ssl ctx sock ret answered.2 responds
    fun _ _ => trivial
  have held := heap_of_forgiving first
  rw [last.unique_start cleans, blocks_conversing, ownedByAll_of_teeOutcome possible] at held
  exact held

end Accounts

/-!
## The copies
-/

/-- So many bytes can be copied from or to the portion. -/
def Lends (live : Multiset Resource) (portion : DataPortion) (count : Nat) : Prop :=
  0 < count → ∃ block ∈ portion.data, .block block.addr ∈ live ∧ count ≤ block.bytes.length

/-- The `memcpy` that comes next stays in a live block. -/
abbrev CopiesInside (live : Multiset Resource) : PufClient → Prop :=
  CopiesAllowed (Lends live)

section Copies

variable {live : Multiset Resource} {records : Records}

theorem persists_lends (live : Multiset Resource) : Persists (Lends live) := by
  intro portion count source lends positive
  obtain ⟨block, held, member, long⟩ := lends positive
  have fits := portion.fits block held
  have copied : { block with bytes := store block.bytes 0 (source.take portion.len.toNat) } ∈
      (portion.copyFrom source).data := Option.mem_map_of_mem _ held
  refine ⟨_, copied, member, ?_⟩
  simp only [store, List.take_zero, List.nil_append, Nat.zero_add, List.length_append,
    List.length_take, List.length_drop]
  omega

theorem len_setData (record : FuncCall) (i j : Fin dataPortions) (source : List UInt8) :
    ((record.setData i source).dataP j).len = (record.dataP j).len := by
  by_cases same : j = i
  · subst same
    rw [FuncCall.dataP_setData_self, DataPortion.len_copyFrom]
  · rw [FuncCall.dataP_setData_of_ne same]

theorem isSome_setData (record : FuncCall) (i j : Fin dataPortions) (source : List UInt8) :
    ((record.setData i source).dataP j).data.isSome = (record.dataP j).data.isSome := by
  by_cases same : j = i
  · subst same
    rw [FuncCall.dataP_setData_self, DataPortion.copyFrom, Option.isSome_map]
  · rw [FuncCall.dataP_setData_of_ne same]

/-- A portion with a length and no block. -/
def Absent (portion : DataPortion) : Prop :=
  0 < portion.len ∧ portion.data.isSome = false

theorem Absent.not_lends {portion : DataPortion} (absent : Absent portion) :
    ¬ Lends live portion portion.len.toNat := by
  intro lends
  obtain ⟨block, held, _⟩ := lends absent.1
  have none := absent.2
  rw [Option.mem_def.mp held] at none
  cases none

theorem kept_absent (name : CallName) (i : Fin dataPortions) :
    Kept fun own => Absent ((own.record name).dataP i) where
  res := fun _ _ absent => absent
  sessionId := fun _ _ absent => absent
  sessionArg := fun _ _ _ absent => absent
  copy := by
    intro own call j source _ absent
    dsimp only
    by_cases same : name = call
    · subst same
      rw [Function.update_self, Absent, len_setData, isSome_setData]
      exact absent
    · rw [Function.update_of_ne same]
      exact absent

def Missing (record : FuncCall) : Prop :=
  ∃ i, Absent (record.dataP i)

/-- A record with a missing block is copied to all the same. -/
theorem Missing.not_inside {zephyr : Zephyr} (dispatches : zephyr.Dispatches) {name : CallName}
    {own : Own} (missing : Missing (own.record name)) (noError : own.sessionArg.ret = 0)
    (shared : Shared) :
    ∃ client, Interaction.Client.Reaches mailbox (.timely anything)
        (Interaction.Client.start own shared (challengePuf zephyr)) client ∧
      ¬ CopiesInside live client := by
  obtain ⟨i, absent⟩ := missing
  obtain ⟨client, rest, reaches, running, settled, next⟩ :=
    exists_at_copyResult dispatches noError shared name i
  refine ⟨client, reaches, fun inside => ?_⟩
  have keeps := keeps_challengePuf (kept_absent name i) zephyr
  have still : Absent ((client.own.record name).dataP i) := by
    refine Interaction.Client.keeps_of_reaches ?_ keeps reaches
    exact absent
  exact still.not_lends (inside running settled (.result name i) rest next)

theorem fit_of_hasPattern {own : Own} (shaped : ∀ name, HasPattern name (own.record name)) :
    Fit (Lends (ownedByAll own.record)) own := by
  intro name i
  refine ⟨(shaped name i).1, fun _ => ?_⟩
  obtain ⟨block, held⟩ := Option.isSome_iff_exists.mp (shaped name i).2
  have owned : .block block.addr ∈ ownedBy (own.record name) := mem_owned held (List.mem_finRange i)
  have long := ((own.record name).dataP i).fits block held
  rw [(shaped name i).1] at long
  refine ⟨block, held, ?_, long⟩
  simp only [ownedByAll, Multiset.mem_add]
  cases name with
  | init => exact .inr owned
  | commitment => exact .inl (.inr owned)
  | proofs => exact .inl (.inl owned)

end Copies

/-!
## The records that the client hands over
-/

section Phases

variable {records records' asked : Records} {events before : List ClientEvent}

/-- What the allocations of a phase make of its record. -/
def Furnished (name : CallName) (events : List ClientEvent) (record : FuncCall) : Prop :=
  none ∉ mallocs events ∧ HasPattern name record ∨ none ∈ mallocs events ∧ Missing record

theorem Furnished.setData {name : CallName} {record : FuncCall}
    (furnished : Furnished name events record) (i : Fin dataPortions) (source : List UInt8) :
    Furnished name events (record.setData i source) := by
  simpa only [Furnished, HasPattern, Missing, Absent, len_setData, isSome_setData] using furnished

/-- No pattern has a length 0, so that a success leaves four blocks. -/
theorem furnished_of_initFunc {name : CallName} {record result : FuncCall} {code : Int}
    (runs : Runs (initFunc record name.func name.pattern) events (.done (code, result))) :
    Furnished name events result := by
  obtain ⟨_, _, outcome⟩ := settles_initFunc runs 0
  rw [Furnished, ← initPortions_code runs]
  rcases outcome with ⟨success, _⟩ | ⟨failure, _, i, _, rolledBack⟩
  · left
    refine ⟨success, fun i => ?_⟩
    cases success
    have allocated := (portions_of_initPortions (List.nodup_finRange dataPortions) runs).1 i
      (List.mem_finRange i)
    obtain ⟨addr, _, same⟩ := allocated.block (CallName.pattern_pos name i)
    rw [same]
    exact ⟨rfl, rfl⟩
  · right
    have failed : none ∈ mallocs events := by
      by_contra enough
      have success := (initPortions_code runs).mpr enough
      exact Int.zero_ne_one (success.symm.trans failure)
    refine ⟨failed, i, ?_⟩
    rw [rolledBack.failing]
    exact ⟨rolledBack.positive, rfl⟩

theorem furnished_of_receiveInto {name : CallName}
    (runs : Runs (receiveInto records name name.func name.pattern) events (.done records')) :
    ∃ received, records' = Function.update records name received ∧
      Furnished name events received := by
  obtain ⟨⟨code, record⟩, first, _, rfl, allocates, onward⟩ := Runs.of_bind_done runs
  obtain ⟨_, second, _, rfl, warned, onward⟩ := Runs.of_bind_done onward
  obtain ⟨⟨code', received⟩, third, _, rfl, receives, onward⟩ := Runs.of_bind_done onward
  obtain ⟨_, fourth, _, rfl, warned', onward⟩ := Runs.of_bind_done onward
  obtain ⟨rfl, same⟩ := onward.of_done
  cases same
  obtain ⟨reception, _, unallocated⟩ := Runs.of_overSsl receives
  have allocated : mallocs (first ++ (second ++ (third ++ (fourth ++ [])))) = mallocs first := by
    rw [Runs.of_reportIf warned, Runs.of_reportIf warned']
    simp [mallocs_reported, unallocated]
  have furnished : Furnished name first received :=
    recChallenge_keeps (Furnished name first) (fun _ i source holds => holds.setData i source)
      (fun _ _ holds => holds) (furnished_of_initFunc allocates) reception
  refine ⟨received, rfl, ?_⟩
  rw [Furnished, allocated]
  exact furnished

theorem hasPattern_of_receiveAll (runs : Runs (receiveAll records) events (.done asked)) :
    none ∉ mallocs events ∧ (∀ name, HasPattern name (asked name)) ∨
      none ∈ mallocs events ∧ ∃ name, Missing (asked name) := by
  obtain ⟨afterInit, first, _, rfl, one, onward⟩ := Runs.of_bind_done runs
  obtain ⟨afterCommitment, second, third, rfl, two, three⟩ := Runs.of_bind_done onward
  obtain ⟨init, rfl, furnishedInit⟩ :=
    furnished_of_receiveInto (show Runs (receiveInto records .init _ _) _ _ from one)
  obtain ⟨commitment, rfl, furnishedCommitment⟩ :=
    furnished_of_receiveInto (show Runs (receiveInto _ .commitment _ _) _ _ from two)
  obtain ⟨proofs, rfl, furnishedProofs⟩ :=
    furnished_of_receiveInto (show Runs (receiveInto _ .proofs _ _) _ _ from three)
  simp only [mallocs_append, List.mem_append]
  rcases furnishedInit with ⟨enoughInit, patternInit⟩ | ⟨failed, missing⟩
  · rcases furnishedCommitment with ⟨enoughCommitment, patternCommitment⟩ | ⟨failed, missing⟩
    · rcases furnishedProofs with ⟨enoughProofs, patternProofs⟩ | ⟨failed, missing⟩
      · left
        refine ⟨by simp [enoughInit, enoughCommitment, enoughProofs], fun name => ?_⟩
        cases name with
        | init => exact patternInit
        | commitment => exact patternCommitment
        | proofs => exact patternProofs
      · exact .inr ⟨.inr (.inr failed), .proofs, missing⟩
    · exact .inr ⟨.inr (.inl failed), .commitment, missing⟩
  · exact .inr ⟨.inl failed, .init, missing⟩

/-- A run that calls `challenge_puf` has set the connection up and received its records. -/
theorem receives_of_asked {outcome : Int × Records} {middle : Client (Int × Records)}
    (runs : Runs (testSocketConnection records) (before ++ [⟨.challengePuf asked, outcome⟩])
      middle) :
    ∃ setUp received, before = setUp ++ received ∧ (∀ event ∈ setUp, event.1.Early) ∧
      Runs (receiveAll records) received (.done asked) := by
  have here : (⟨.challengePuf asked, outcome⟩ : ClientEvent) ∈
      before ++ [⟨.challengePuf asked, outcome⟩] :=
    List.mem_append_right _ (List.mem_singleton_self _)
  rcases passes_testSocketConnection records runs with early | crossed
  · exact (early _ here).elim
  · obtain ⟨_, setUp, events, ⟨ssl, ctx, sock, ret, rfl⟩, same, early, onward⟩ := crossed
    rw [same] at here
    -- The call is neither in the set-up nor in the receptions.
    have unreceived : ∀ events final, Runs (receiveAll records) events final →
        (⟨.challengePuf asked, outcome⟩ : ClientEvent) ∉ setUp ++ events := by
      intro events final receives member
      rcases List.mem_append.mp member with ahead | behind
      · exact early _ ahead
      · exact not_beforeTee_challengePuf asked (uses_receiveAll records receives _ behind)
    rcases onward.of_bind with ⟨_, within, _⟩ | ⟨value, received, rest, rfl, receives, asks⟩
    · exact absurd here (unreceived _ _ within)
    · rcases asks.of_perform_bind with rfl | ⟨answer, later, rfl, responds⟩
      · rw [List.append_nil] at here
        exact absurd here (unreceived _ _ receives)
      · rw [← List.append_assoc] at same
        obtain ⟨rfl, called, _⟩ :=
          split_challenge id same (uses_sendResponses ssl ctx sock ret _ responds)
        cases called
        exact ⟨setUp, received, rfl, early, receives⟩

end Phases

/-!
## Any number of connections
-/

section Connections

variable {zephyr : Zephyr} {records records' asked : Records} {calls : List (List ClientEvent)}

/-- Earlier connections have given back all their blocks. -/
theorem heap_of_connections (bare : Bare records)
    (connections : Connections zephyr records calls records') :
    heap.Settles 0 calls.flatten 0 ∧ Bare records' := by
  induction connections with
  | nil => exact ⟨.nil 0, bare⟩
  | cons runs valid _ ih =>
      obtain ⟨settles, bare'⟩ := settles_testSocketConnection bare valid runs 0
      obtain ⟨onward, last⟩ := ih bare'
      rw [List.flatten_cons]
      exact ⟨(heap_of_forgiving settles).append onward, last⟩

/-- With replies in time, whatever they hold, every copy of `challenge_puf` stays in the
blocks of its records. -/
def HeapSafe (zephyr : Zephyr) (asked : Records) : Prop :=
  ∀ own shared client, Callable zephyr own → own.record = asked →
    Interaction.Client.Reaches mailbox (.timely anything)
      (Interaction.Client.start own shared (challengePuf zephyr)) client →
    CopiesInside (ownedByAll asked) client

/-- Whenever the client calls `challenge_puf`, after any number of connections, the
blocks of the heap are those of its records, and the call is safe exactly when no
allocation has failed. -/
theorem copiesInside_iff {before : List ClientEvent} {outcome : Int × Records}
    {middle : Client (Int × Records)} (dispatches : zephyr.Dispatches)
    (connections : Connections zephyr bootRecords calls records)
    (valid : ValidRun zephyr before)
    (runs : Runs (testSocketConnection records) (before ++ [⟨.challengePuf asked, outcome⟩])
      middle) :
    heap.Settles 0 (calls.flatten ++ before) (ownedByAll asked) ∧
      (HeapSafe zephyr asked ↔ none ∉ mallocs before) := by
  obtain ⟨earlier, bare⟩ := heap_of_connections bare_bootRecords connections
  refine ⟨earlier.append (heap_of_asked bare valid runs), ?_⟩
  obtain ⟨setUp, received, rfl, early, receives⟩ := receives_of_asked runs
  have unallocated : mallocs setUp = [] := mallocs_eq_nil early fun _ => id
  rw [mallocs_append, unallocated, List.nil_append]
  rcases hasPattern_of_receiveAll receives with ⟨enough, shaped⟩ | ⟨failed, name, missing⟩
  · refine iff_of_true ?_ enough
    rintro own shared client _ rfl reaches
    exact copiesAllowed_of_fit (persists_lends _) (fit_of_hasPattern shaped) reaches
  · refine iff_of_false (fun always => ?_) (not_not.mpr failed)
    let own : Own := { bootOwn with record := asked }
    have absent : Missing (own.record name) := missing
    obtain ⟨client, reaches, outside⟩ := absent.not_inside dispatches rfl (bootShared default)
    exact outside (always own _ client (.boot rfl) rfl reaches)

/-- The heap is full. -/
def serveFull (serving : Serving) :
    (operation : ClientCall) → ClientAnswer operation × Serving
  | .malloc _ => (none, serving)
  | operation => serve serving operation

/-- The client has received three garbled challenges, and nothing could be allocated. -/
def fullRun : List ClientEvent × Client (Int × Records) :=
  play serveFull 40 ⟨0x20001000, garbled ++ garbled ++ garbled⟩ (testSocketConnection bootRecords)

theorem valid_serveFull (serving : Serving) (operation : ClientCall)
    (notTee : ∀ records, operation ≠ .challengePuf records) :
    Valid zephyr operation (serveFull serving operation).1 := by
  cases operation with
  | malloc => trivial
  | _ => exact valid_serve zephyr serving _ notTee

theorem fullRun_asks :
    ∃ asked resume, fullRun.2.view = .call (.challengePuf asked) resume :=
  ⟨_, _, rfl⟩

/-- With enough memory the call is safe, with none it is not. -/
theorem copiesInside_iff_full :
    (∃ asked, heap.Settles 0 garbledRun.1 (ownedByAll asked) ∧ HeapSafe zephyrOfImage asked) ∧
      ∃ asked, heap.Settles 0 fullRun.1 (ownedByAll asked) ∧ ¬ HeapSafe zephyrOfImage asked := by
  have dispatches := zephyrOfImage_dispatches
  constructor
  · obtain ⟨asked, resume, asks⟩ := garbledRun_asks
    have valid := valid_garbledRun zephyrOfImage
    have arrives : Runs (testSocketConnection bootRecords) garbledRun.1 garbledRun.2 :=
      runs_serveFirst _ _
    have runs := arrives.append (.call (0, asked) asks (.stop _))
    obtain ⟨settles, safe⟩ := copiesInside_iff dispatches (.nil bootRecords) valid runs
    exact ⟨asked, settles, safe.mpr (by decide +kernel)⟩
  · obtain ⟨asked, resume, asks⟩ := fullRun_asks
    have valid : ValidRun zephyrOfImage fullRun.1 :=
      validRun_of_unasked (play_forall valid_serveFull 40 _ _) (by decide +kernel)
    have arrives : Runs (testSocketConnection bootRecords) fullRun.1 fullRun.2 := runs_play _ _ _ _
    have runs := arrives.append (.call (0, asked) asks (.stop _))
    obtain ⟨settles, safe⟩ := copiesInside_iff dispatches (.nil bootRecords) valid runs
    have failed : none ∈ mallocs fullRun.1 := by decide +kernel
    exact ⟨asked, settles, safe.not.mpr (not_not.mpr failed)⟩

end Connections

end Uc1Integration.TlsClient
