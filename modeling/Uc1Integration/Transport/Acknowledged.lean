import Uc1Integration.Transport.ChallengeProperties
import Uc1Integration.Transport.Writing

/-!
# Stored when acknowledged

`recChallenge` on any stream and any connection that fails for good at some
point: the items it has acknowledged are those it has stored.
-/

set_option autoImplicit false

namespace Uc1Integration.Transport

open Interaction Program

/-- A read or a write that transferred nothing. -/
def SslEvent.Idle : SslEvent → Prop
  | ⟨.read _, .failed _⟩ => True
  | ⟨.write _, .failed _⟩ => True
  | _ => False

/-- Behind a result that is not retried every call fails. -/
def FailsForGood (events : List SslEvent) : Prop :=
  events.Pairwise fun earlier later => earlier.GivenUp → later.Idle

/-- The stream begins with frames of these payloads, each behind the first start
sequence that follows the one before. -/
inductive Frames : List (List UInt8) → List UInt8 → Prop where
  | nil {stream : List UInt8} : Frames [] stream
  | cons {hunted payload stream : List UInt8} {payloads : List (List UInt8)} :
      EndsAtStart hunted → Frames payloads stream →
      Frames (payload :: payloads) (hunted ++ payload ++ stopSeq ++ stream)

theorem Frames.append {payloads : List (List UInt8)} {stream : List UInt8}
    (frames : Frames payloads stream) (more : List UInt8) : Frames payloads (stream ++ more) := by
  induction frames with
  | nil => exact .nil
  | cons start _ ih =>
      rw [List.append_assoc]
      exact .cons start ih

/-- So many acknowledgements, and no further one that is complete. -/
def Acknowledges (count : Nat) (written : List UInt8) : Prop :=
  ∃ part, written = (List.replicate count ackStr).flatten ++ part ∧ part <+: ackStr ∧ part ≠ ackStr

/-- What of a record no reception may change: lengths, addresses, and bytes
behind the length of a portion. -/
def DataPortion.layout (portion : DataPortion) : UInt8 × Option (Nat × Nat × List UInt8) :=
  (portion.len, portion.data.map fun block =>
    (block.addr, block.bytes.length, block.bytes.drop portion.len.toNat))

theorem layout_copyFrom {portion : DataPortion} {source : List UInt8}
    (enough : portion.len.toNat ≤ source.length) :
    (portion.copyFrom source).layout = portion.layout := by
  have taken : (source.take portion.len.toNat).length = portion.len.toNat := by
    rw [List.length_take]
    omega
  unfold DataPortion.layout DataPortion.copyFrom
  rw [Option.map_map, Prod.mk.injEq]
  refine ⟨rfl, Option.map_congr ?_⟩
  intro block held
  have fits := portion.fits block held
  simp only [Function.comp_apply, store_zero, Prod.mk.injEq, true_and]
  constructor
  · rw [List.length_append, List.length_drop, taken]
    omega
  · rw [List.drop_left' taken, taken]

/-- An item received whole: its frame is read and an acknowledgement written. -/
structure ItemReceived (len : Nat) (events : List SslEvent) (payload : List UInt8) : Prop where
  frame : ∃ hunted, bytesRead events = hunted ++ payload ++ stopSeq ∧ EndsAtStart hunted
  length : payload.length = len
  acknowledged : bytesWritten events = ackStr

theorem bytesWritten_of_reads {events : List SslEvent} (reads : ∀ event ∈ events, IsRead event.1) :
    bytesWritten events = [] := by
  rw [bytesWritten, List.flatMap_eq_nil_iff]
  intro event member
  obtain ⟨call, answer⟩ := event
  have isRead := reads _ member
  cases call with
  | read => rfl
  | write => exact isRead.elim

theorem bytesRead_of_writes {events : List SslEvent} (writes : ∀ event ∈ events, IsWrite event.1) :
    bytesRead events = [] := by
  rw [bytesRead, List.flatMap_eq_nil_iff]
  intro event member
  obtain ⟨call, answer⟩ := event
  have isWrite := writes _ member
  cases call with
  | read => exact isWrite.elim
  | write => rfl

theorem SslEvent.Idle.read_eq_nil {event : SslEvent} (idle : event.Idle) : event.read = [] := by
  obtain ⟨call, answer⟩ := event
  cases call with
  | write => rfl
  | read limit =>
      cases answer with
      | received => exact idle.elim
      | failed => rfl

theorem SslEvent.Broken.givenUp {event : SslEvent} (broken : event.Broken) : event.GivenUp := by
  obtain ⟨call, answer⟩ := event
  cases call with
  | write => exact broken.elim
  | read => exact broken

/-- Nothing is read behind a payload that was cut short. -/
theorem FailsForGood.silent {before after : List SslEvent} (good : FailsForGood (before ++ after))
    (broken : BrokenOff before) : bytesRead after = [] := by
  rw [FailsForGood, List.pairwise_append] at good
  rw [bytesRead, List.flatMap_eq_nil_iff]
  intro event member
  cases broken with
  | intro _ broken =>
      exact (good.2.2 _ (List.mem_append_right _ (List.mem_singleton.mpr rfl)) event member
        broken.givenUp).read_eq_nil

theorem FailsForGood.left {before after : List SslEvent} (good : FailsForGood (before ++ after)) :
    FailsForGood before :=
  (List.pairwise_append.mp good).1

theorem FailsForGood.right {before after : List SslEvent} (good : FailsForGood (before ++ after)) :
    FailsForGood after :=
  (List.pairwise_append.mp good).2.1

theorem acknowledges_none : Acknowledges 0 [] :=
  ⟨[], rfl, List.nil_prefix, by decide⟩

/-- On a connection that fails for good an accepted frame is a whole one. -/
theorem whole_of_recStream {buffer out : List UInt8} {len : UInt8} {events : List SslEvent}
    (valid : ∀ event ∈ events, SslEvent.Valid event) (good : FailsForGood events)
    (runs : Runs (recStream buffer len) events (.done (0, out))) :
    ∃ hunted payload, bytesRead events = hunted ++ payload ++ stopSeq ∧ EndsAtStart hunted ∧
      payload.length = len.toNat ∧ out = store buffer 0 payload := by
  cases streamEnd valid runs with
  | @ended hunted body closing _ _ _ unbroken start payload stop code filled =>
      have matched : bytesRead closing = stopSeq := by
        by_contra other
        rw [if_neg other] at code
        cases code
      refine ⟨bytesRead hunted, bytesRead body, ?_, start, ?_, filled⟩
      · rw [bytesRead_append, bytesRead_append, matched]
      · cases payload with
        | full _ whole => exact whole
        | cut broken _ =>
            rw [List.append_assoc] at good
            rw [good.right.silent broken] at matched
            exact absurd matched (by decide)

theorem item_received {buffer : List UInt8} {len : UInt8} {result : Int × FuncCall}
    {events : List SslEvent} (failed : Int × FuncCall)
    (next : List UInt8 → Ssl (Int × FuncCall))
    (valid : ∀ event ∈ events, SslEvent.Valid event) (good : FailsForGood events)
    (runs : Runs ((recStream buffer len).bind fun result =>
      match result with
      | (err, buffer) =>
          if err ≠ 0 then .done failed
          else sendAck.bind fun code => if code ≠ 0 then .done failed else next buffer)
      events (.done result)) :
    (result = failed ∧ Acknowledges 0 (bytesWritten events)) ∨
      ∃ payload first rest, events = first ++ rest ∧ ItemReceived len.toNat first payload ∧
        Runs (next (store buffer 0 payload)) rest (.done result) := by
  obtain ⟨⟨err, out⟩, first, behind, rfl, stream, runs⟩ := Runs.of_bind_done runs
  have reads := bytesWritten_of_reads (uses_recStream buffer len stream)
  dsimp only at runs
  split at runs
  next =>
    obtain ⟨rfl, same⟩ := runs.of_done
    cases same
    left
    rw [bytesWritten_append, reads]
    exact ⟨rfl, acknowledges_none⟩
  next fine =>
    rw [ne_eq, not_not] at fine
    subst fine
    obtain ⟨hunted, payload, bytes, start, length, rfl⟩ := whole_of_recStream
      (fun event member => valid event (List.mem_append_left _ member)) good.left stream
    obtain ⟨code, second, rest, rfl, ack, runs⟩ := Runs.of_bind_done runs
    have silent := bytesRead_of_writes (uses_sendAck ack)
    cases ackStage (fun event member => valid event (by simp [member])) ack with
    | sending unfinished => cases unfinished
    | failed before other =>
        rw [if_pos (by decide)] at runs
        obtain ⟨rfl, same⟩ := runs.of_done
        cases same
        left
        refine ⟨rfl, bytesWritten second, ?_, before, other⟩
        rw [List.append_nil, bytesWritten_append, reads]
        rfl
    | sent whole =>
        rw [if_neg (by decide)] at runs
        right
        refine ⟨payload, first ++ second, rest, by simp, ⟨⟨hunted, ?_, start⟩, length, ?_⟩, runs⟩
        · rw [bytesRead_append, silent, List.append_nil, bytes]
        · rw [bytesWritten_append, reads, whole]
          rfl

theorem Frames.item {len : Nat} {first rest : List SslEvent} {payload : List UInt8}
    {payloads : List (List UInt8)} (item : ItemReceived len first payload)
    (frames : Frames payloads (bytesRead rest)) :
    Frames (payload :: payloads) (bytesRead (first ++ rest)) := by
  obtain ⟨hunted, bytes, start⟩ := item.frame
  rw [bytesRead_append, bytes]
  exact .cons start frames

theorem Acknowledges.item {len count : Nat} {first rest : List SslEvent} {payload : List UInt8}
    (item : ItemReceived len first payload) (acknowledges : Acknowledges count (bytesWritten rest)) :
    Acknowledges (count + 1) (bytesWritten (first ++ rest)) := by
  obtain ⟨part, written, before, other⟩ := acknowledges
  refine ⟨part, ?_, before, other⟩
  rw [bytesWritten_append, item.acknowledged, written, List.replicate_succ, List.flatten_cons,
    List.append_assoc]

/-- Of the portions at `indices` the first have the payloads of the frames that
were acknowledged, and nothing else has changed. -/
structure PortionsStored (call : FuncCall) (indices : List (Fin dataPortions))
    (events : List SslEvent) (result : Int × FuncCall) (payloads : List (List UInt8)) : Prop where
  frames : Frames payloads (bytesRead events)
  acknowledged : Acknowledges payloads.length (bytesWritten events)
  items : result.2.portionItems indices =
    payloads ++ (call.portionItems indices).drop payloads.length
  code : result.1 = 0 ↔ payloads.length = (call.portionItems indices).length
  func : result.2.func = call.func
  layout : ∀ i, (result.2.dataP i).layout = (call.dataP i).layout
  others : ∀ i, i ∉ indices ∨ (call.dataP i).live = none → result.2.dataP i = call.dataP i

theorem portionsStored_none {call : FuncCall} {indices : List (Fin dataPortions)}
    {events : List SslEvent} (acknowledges : Acknowledges 0 (bytesWritten events))
    (some : call.portionItems indices ≠ []) :
    PortionsStored call indices events (1, call) [] where
  frames := .nil
  acknowledged := acknowledges
  items := rfl
  code := by
    constructor
    · intro wrong
      cases wrong
    · intro none
      exact absurd (List.length_eq_zero_iff.mp none.symm) some
  func := rfl
  layout := fun _ => rfl
  others := fun _ _ => rfl

theorem PortionsStored.skip {call : FuncCall} {i : Fin dataPortions}
    {rest : List (Fin dataPortions)} {events : List SslEvent} {result : Int × FuncCall}
    {payloads : List (List UInt8)} (stored : PortionsStored call rest events result payloads)
    (fresh : i ∉ rest) (dead : (call.dataP i).live = none) :
    PortionsStored call (i :: rest) events result payloads where
  frames := stored.frames
  acknowledged := stored.acknowledged
  items := by
    have still : (result.2.dataP i).live = none := by
      rw [stored.others i (.inl fresh)]
      exact dead
    rw [FuncCall.portionItems_cons_dead still, FuncCall.portionItems_cons_dead dead]
    exact stored.items
  code := by
    rw [FuncCall.portionItems_cons_dead dead]
    exact stored.code
  func := stored.func
  layout := stored.layout
  others := by
    intro j outside
    apply stored.others j
    exact outside.imp_left List.not_mem_of_not_mem_cons

theorem portionItems_setData {call : FuncCall} {i : Fin dataPortions}
    {rest : List (Fin dataPortions)} (fresh : i ∉ rest) (source : List UInt8) :
    (call.setData i source).portionItems rest = call.portionItems rest := by
  apply List.filterMap_congr
  intro j member
  have different : j ≠ i := fun same => fresh (same ▸ member)
  rw [FuncCall.dataP_setData_of_ne different]

theorem PortionsStored.item {call : FuncCall} {i : Fin dataPortions}
    {rest : List (Fin dataPortions)} {first later : List SslEvent} {result : Int × FuncCall}
    {block : Block} {payload source : List UInt8} {payloads : List (List UInt8)}
    (stored : PortionsStored (call.setData i source) rest later result payloads)
    (item : ItemReceived (call.dataP i).len.toNat first payload)
    (filled : source.take (call.dataP i).len.toNat = payload) (fresh : i ∉ rest)
    (alive : (call.dataP i).live = some block) :
    PortionsStored call (i :: rest) (first ++ later) result (payload :: payloads) where
  frames := stored.frames.item item
  acknowledged := stored.acknowledged.item item
  items := by
    have enough : (call.dataP i).len.toNat ≤ source.length := by
      have length := congrArg List.length filled
      rw [List.length_take, item.length] at length
      omega
    have held : result.2.dataP i = (call.dataP i).copyFrom source := by
      rw [stored.others i (.inl fresh), FuncCall.dataP_setData_self]
    have lens : (result.2.dataP i).liveLen = some (call.dataP i).len := by
      rw [held, liveLen_copyFrom, DataPortion.liveLen, alive]
      rfl
    obtain ⟨_, still, _⟩ := DataPortion.live_of_liveLen_eq_some lens
    rw [FuncCall.portionItems_cons_live still, FuncCall.portionItems_cons_live alive, stored.items,
      portionItems_setData fresh, held, DataPortion.content_copyFrom alive enough, filled]
    rfl
  code := by
    rw [FuncCall.portionItems_cons_live alive, stored.code, portionItems_setData fresh]
    simp
  func := stored.func
  layout := by
    intro j
    rw [stored.layout j]
    by_cases same : j = i
    · subst same
      rw [FuncCall.dataP_setData_self, layout_copyFrom]
      have length := congrArg List.length filled
      rw [List.length_take, item.length] at length
      omega
    · rw [FuncCall.dataP_setData_of_ne same]
  others := by
    intro j outside
    have different : j ≠ i := by
      rintro rfl
      cases outside with
      | inl absent => exact absent List.mem_cons_self
      | inr dead =>
          rw [alive] at dead
          cases dead
    rw [stored.others j ?_, FuncCall.dataP_setData_of_ne different]
    rw [FuncCall.dataP_setData_of_ne different]
    exact outside.imp_left List.not_mem_of_not_mem_cons

theorem portionsStored {buffer : List UInt8} {call : FuncCall} {indices : List (Fin dataPortions)}
    {events : List SslEvent} {result : Int × FuncCall} (distinct : indices.Nodup)
    (valid : ∀ event ∈ events, SslEvent.Valid event) (good : FailsForGood events)
    (runs : Runs (recPortions buffer call indices) events (.done result)) :
    ∃ payloads, PortionsStored call indices events result payloads := by
  induction indices generalizing buffer call events with
  | nil =>
      obtain ⟨rfl, same⟩ := runs.of_done
      cases same
      exact ⟨[], .nil, acknowledges_none, rfl, by simp [FuncCall.portionItems], rfl, fun _ => rfl,
        fun _ _ => rfl⟩
  | cons i rest ih =>
      obtain ⟨fresh, distinct⟩ := List.nodup_cons.mp distinct
      rw [recPortions] at runs
      cases alive : (call.dataP i).live with
      | none =>
          rw [alive] at runs
          obtain ⟨payloads, stored⟩ := ih distinct valid good runs
          exact ⟨payloads, stored.skip fresh alive⟩
      | some block =>
          rw [alive] at runs
          cases item_received (1, call)
              (fun buffer => recPortions buffer (call.setData i buffer) rest) valid good runs with
          | inl failed =>
              obtain ⟨rfl, acknowledges⟩ := failed
              refine ⟨[], portionsStored_none acknowledges ?_⟩
              rw [FuncCall.portionItems_cons_live alive]
              exact List.cons_ne_nil _ _
          | inr received =>
              obtain ⟨payload, first, later, rfl, item, onward⟩ := received
              obtain ⟨payloads, stored⟩ := ih distinct
                (fun event member => valid event (List.mem_append_right _ member)) good.right onward
              have filled : (store buffer 0 payload).take (call.dataP i).len.toNat = payload := by
                rw [store_zero, List.take_left' item.length]
              exact ⟨payload :: payloads, stored.item item filled fresh alive⟩

theorem idBytes_idOfBytes {bytes : List UInt8} (four : bytes.length = 4) :
    idBytes (idOfBytes bytes) = bytes := by
  obtain ⟨b0, b1, b2, b3, rfl⟩ := List.length_eq_four.mp four
  simp only [idBytes, idOfBytes, List.cons.injEq, and_true]
  refine ⟨?_, ?_, ?_, ?_⟩
  all_goals
    apply UInt8.eq_of_toBitVec_eq
    simp only [UInt32.toBitVec_toUInt8, UInt32.toBitVec_or, UInt32.toBitVec_shiftLeft,
      UInt8.toBitVec_toUInt32, UInt32.toBitVec_shiftRight]
    ext position inside
    simp <;> grind

/-- The first items of the record are the payloads of the frames the stream begins
with, as many as were acknowledged; everything else is as it was before. -/
structure StoredAsAcknowledged (call : FuncCall) (stream : List UInt8) (events : List SslEvent)
    (result : Int × FuncCall) (payloads : List (List UInt8)) : Prop where
  frames : Frames payloads stream
  acknowledged : Acknowledges payloads.length (bytesWritten events)
  items : result.2.items = payloads ++ call.items.drop payloads.length
  layout : ∀ i, (result.2.dataP i).layout = (call.dataP i).layout
  others : ∀ i, (call.dataP i).live = none → result.2.dataP i = call.dataP i
  code : result.1 = 0 ↔ payloads.length = call.items.length

/-- Whatever the peer sends and wherever the connection fails for good, the items
stored are those acknowledged. -/
theorem storedAsAcknowledged {call : FuncCall} {stream : List UInt8} {events : List SslEvent}
    {result : Int × FuncCall} (valid : ∀ event ∈ events, SslEvent.Valid event)
    (good : FailsForGood events) (came : bytesRead events <+: stream)
    (runs : Runs (recChallenge call) events (.done result)) :
    ∃ payloads, StoredAsAcknowledged call stream events result payloads := by
  obtain ⟨more, rfl⟩ := came
  have stages := item_received (1, call) (fun buffer =>
    recPortions buffer { call with func := idOfBytes (buffer.take 4) } (List.finRange dataPortions))
    valid good runs
  cases stages with
  | inl failed =>
      obtain ⟨rfl, acknowledges⟩ := failed
      refine ⟨[], .nil, acknowledges, rfl, fun _ => rfl, fun _ _ => rfl, ?_⟩
      constructor
      · intro wrong
        cases wrong
      · intro none
        cases none
  | inr received =>
      obtain ⟨payload, first, later, rfl, item, onward⟩ := received
      obtain ⟨payloads, stored⟩ := portionsStored (List.nodup_finRange dataPortions)
        (fun event member => valid event (List.mem_append_right _ member)) good.right onward
      have four : payload.length = 4 := item.length
      refine ⟨payload :: payloads, (stored.frames.item item).append more,
        stored.acknowledged.item item, ?_, stored.layout, fun i dead => stored.others i (.inr dead), ?_⟩
      · rw [FuncCall.items, stored.func, stored.items]
        dsimp only
        rw [store_zero, List.take_left' four, idBytes_idOfBytes four]
        rfl
      · rw [stored.code, FuncCall.items, List.length_cons, List.length_cons, Nat.succ_inj]
        rfl

theorem fits_pair :
    ∀ block ∈ some (Block.mk 0x1000 [7, 8]), (2 : UInt8).toNat ≤ block.bytes.length := by
  intro block member
  cases member
  exact Nat.le_refl 2

theorem fits_none : ∀ block ∈ (none : Option Block), (0 : UInt8).toNat ≤ block.bytes.length := by
  intro block member
  cases member

/-- A record with one portion, of two bytes. -/
def pairRecord : FuncCall where
  func := 0
  dataP i :=
    if i.val = 0 then { len := 2, data := some ⟨0x1000, [7, 8]⟩, fits := fits_pair }
    else { len := 0, data := none, fits := fits_none }

/-- The connection fails behind the first byte of the portion's frame. -/
def cutEvents : List SslEvent :=
  List.replicate 4 ⟨.read 1, .received [0x55]⟩ ++
    [⟨.read 4, .received [1, 2]⟩, ⟨.read 2, .received [3, 4]⟩, ⟨.read 4, .received stopSeq⟩,
      ⟨.write ackStr, .accepted 3⟩, ⟨.read 1, .received [0x55]⟩,
      ⟨.read 1, .failed (.zero (.other 0))⟩]

theorem storedAsAcknowledged_cut :
    ∃ payloads, StoredAsAcknowledged pairRecord (frame [1, 2, 3, 4] ++ [0x55, 0x55]) cutEvents
      (1, { pairRecord with func := 0x04030201 }) payloads := by
  have valid : ∀ event ∈ cutEvents, SslEvent.Valid event := by
    simp [cutEvents, SslEvent.Valid, ValidTransfer, stopSeq, ackStr]
  have good : FailsForGood cutEvents := by
    simp [FailsForGood, cutEvents, SslEvent.GivenUp, SslEvent.Broken, SslEvent.Idle]
  have runs : Runs (recChallenge pairRecord) cutEvents
      (.done (1, { pairRecord with func := 0x04030201 })) := by
    repeat refine .call _ rfl ?_
    exact .stop _
  exact storedAsAcknowledged valid good ⟨[0x55], rfl⟩ runs

end Uc1Integration.Transport
