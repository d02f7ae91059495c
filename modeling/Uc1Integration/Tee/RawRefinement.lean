import Uc1Integration.Tee.PureCalls
import Uc1Integration.Tee.RawSimulation

/-!
# Two levels of the mailbox

What is known of `challenge_puf` on the records of the shared message holds of
it on the bytes of the shared page, whatever size the compiler gives an
enumeration.
-/

set_option autoImplicit false

namespace Uc1Integration.Tee.Raw

open Interaction Transport Memory Client

abbrev RawClient := Client Own RawShared Bytes

variable {size : EnumSize}

def viewed (size : EnumSize) (client : RawClient) (rest : List ClientStmt) : PufClient :=
  client.viewed (RawShared.view size) (SharedMessage.view size) rest

/-- Replies that bytes can hold. -/
def storableReplies (size : EnumSize) : Regime Own Shared SharedMessage :=
  ⟨fun _ => True, fun _ _ reply => reply.Storable size⟩

theorem reflects_storableReplies :
    Regime.Reflects (RawShared.view size) (SharedMessage.view size) .any
      (storableReplies size) where
  mayTouch := fun _ _ _ => trivial
  accepts := fun _ _ reply storable =>
    ⟨reply.image size, SharedMessage.view_image size storable, trivial⟩

/-- The runs on the bytes are the runs on the records that bytes can hold. -/
theorem challengePuf_runs (zephyr : Zephyr) {own : Own} (sized : UuidsSized own)
    (raw : RawShared) :
    (∀ client : RawClient,
      Reaches (mailbox size) .any (start own raw (challengePuf size zephyr)) client →
      ∃ rest, Reaches Tee.mailbox .any (start own (raw.view size) (Tee.challengePuf zephyr))
        (viewed size client rest)) ∧
    ∀ client : PufClient,
      Reaches Tee.mailbox (storableReplies size)
        (start own (raw.view size) (Tee.challengePuf zephyr)) client →
      ∃ rawClient rest,
        Reaches (mailbox size) .any (start own raw (challengePuf size zephyr)) rawClient ∧
        client = viewed size rawClient rest := by
  constructor
  · intro client reaches
    exact reaches_viewed mailbox_mirrors (.any _ _) (same_challengePuf zephyr) sized reaches
  · intro client reaches
    exact reaches_of_viewed mailbox_mirrors reflects_storableReplies (same_challengePuf zephyr)
      sized reaches

theorem uuidsSized_boot : UuidsSized bootOwn :=
  ⟨rfl, rfl⟩

def bootRaw (memory : Bytes) : RawShared :=
  ⟨memory, fun _ => ⟨0, 0, 0, 0⟩, ⟨0, 0, 0, 0, 0⟩, 0, []⟩

theorem challengePuf_runs_boot :
    ∃ rest, Reaches Tee.mailbox .any
      (start bootOwn ((bootRaw fun _ => 0).view .short) (Tee.challengePuf zephyrOfImage))
      (viewed .short
        (runAlone (mailbox .short) 20
          (start bootOwn (bootRaw fun _ => 0) (challengePuf .short zephyrOfImage))) rest) :=
  (challengePuf_runs zephyrOfImage uuidsSized_boot (bootRaw fun _ => 0)).1 _ (reaches_runAlone _ _ _)

/-- The TEE that computes `function` from the bytes it finds, and answers in time. -/
def serving (size : EnumSize) (function : TeeFunction) : Regime Own RawShared Bytes :=
  .timely fun _ request reply =>
    Serves function (SharedMessage.view size request) (SharedMessage.view size reply)

theorem exists_serving (function : TeeFunction) (request : Bytes) :
    ∃ reply, Serves function (SharedMessage.view size request)
      (SharedMessage.view size reply) := by
  let found := SharedMessage.view size request
  let reply : SharedMessage :=
    { found with
      sessionArgs := { found.sessionArgs with ret := teeSuccess }
      invokeArgs := { found.invokeArgs with ret := teeSuccess }
      payload := found.computed function }
  have storable : reply.Storable size := by
    obtain ⟨callType, uuids⟩ := SharedMessage.storable_view size request
    exact ⟨callType, uuids.uuid, uuids.clntUuid⟩
  refine ⟨reply.image size, ?_⟩
  rw [SharedMessage.view_image size storable]
  exact ⟨rfl, rfl, fun _ => rfl, fun _ => rfl, fun _ => rfl⟩

/-- On the bytes of the shared page, `challenge_puf` ends and has made three pure
calls of what the TEE computes. -/
theorem challengePuf_calls {zephyr : Zephyr} (dispatches : zephyr.Dispatches) {own : Own}
    (callable : Callable zephyr own) (sized : UuidsSized own)
    (shaped : ∀ call, HasPattern call (own.record call)) (raw : RawShared)
    (function : TeeFunction) :
    Acc (fun later earlier : RawClient =>
        Step (mailbox size) (serving size function) earlier later)
      (start own raw (challengePuf size zephyr)) ∧
    ∀ client : RawClient,
      Reaches (mailbox size) (serving size function) (start own raw (challengePuf size zephyr))
        client →
      (client.result = none →
        ∃ client', Step (mailbox size) (serving size function) client client') ∧
      ∀ code, client.result = some code → code = 0 ∧ ∃ session,
        (∀ request ∈ client.requests, SessionIs session (SharedMessage.view size request)) ∧
        CalledPurely function session own.record client.own.record := by
  refine ⟨acc _ _ _, fun client reaches => ⟨fun running => ?_, fun code returned => ?_⟩⟩
  · exact (Ordered.of_reaches reaches).progress (fun _ => exists_serving function) running
  · obtain ⟨rest, onRecords⟩ := reaches_viewed mailbox_mirrors
      (.timely fun _ _ _ serves => serves) (same_challengePuf zephyr) sized reaches
    obtain ⟨zero, reply, _, requests, calls⟩ := calledPurely_of_returned dispatches callable shaped
      (fun _ _ _ serves => serves) onRecords returned
    refine ⟨zero, reply.sessionArgs.session, fun request member => ?_, calls⟩
    exact requests _ (List.mem_map_of_mem member)

theorem challengePuf_calls_boot :
    ∃ client : RawClient, client.result = some 0 ∧ ∃ session,
      CalledPurely (fun _ _ inputs i _ => (inputs i).headD 7) session zeroRecord
        client.own.record := by
  let function : TeeFunction := fun _ _ inputs i _ => (inputs i).headD 7
  have callable : Callable zephyrOfImage bootOwn := .boot rfl
  obtain ⟨_, calls⟩ := challengePuf_calls zephyrOfImage_dispatches callable uuidsSized_boot
    zeroRecord_hasPattern (bootRaw fun _ => 0) function
  obtain ⟨client, reaches, returned⟩ := exists_returned (fun _ => exists_serving function)
    (.refl : Reaches (mailbox .short) (serving .short function) _ _)
  obtain ⟨code, result⟩ := Option.isSome_iff_exists.mp returned
  obtain ⟨rfl, session, _, records⟩ := (calls client reaches).2 code result
  exact ⟨client, result, session, records⟩

end Uc1Integration.Tee.Raw
