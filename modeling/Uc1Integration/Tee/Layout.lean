import Uc1Integration.Memory.Places
import Uc1Integration.Tee.SharedMemory

/-!
# The layout of the shared message

`GP_SharedMessage` as bytes: the packed structures of `crosscon_hv_config.h`,
little-endian as on the Cortex-M33, and the offsets the header defines by hand.
-/

set_option autoImplicit false

namespace Uc1Integration.Tee

open Memory

/-- How the compiler stores an enumeration: in as few bytes as its values need,
or as an `unsigned int`. -/
inductive EnumSize where
  | short
  | int
  deriving DecidableEq, Repr

def EnumSize.bytes : EnumSize → Nat
  | .short => 1
  | .int => 4

theorem EnumSize.bytes_le (size : EnumSize) : size.bytes ≤ 4 := by
  cases size <;> decide

/-- `tee_call_type_t`. -/
def teeCallType (size : EnumSize) : Codec UInt32 :=
  (Codec.unsigned size.bytes).via Nat.toUInt32 UInt32.toNat
    (fun value => value.toNat < 256 ^ size.bytes)
    (fun _ small => ⟨small, UInt32.ofNat_toNat⟩)
    (by
      intro value small
      have bound : 256 ^ size.bytes ≤ 256 ^ 4 := Nat.pow_le_pow_right (by decide) size.bytes_le
      have same : value.toUInt32.toNat = value :=
        UInt32.toNat_ofNat_of_lt' (Nat.lt_of_lt_of_le small bound)
      exact ⟨same.symm ▸ small, same⟩)

namespace InvokeArgs

abbrev Fields := UInt32 × UInt32 × UInt32 × UInt32 × UInt32 × UInt32

def ofFields (fields : Fields) : InvokeArgs where
  func := fields.1
  session := fields.2.1
  cancelId := fields.2.2.1
  ret := fields.2.2.2.1
  retOrigin := fields.2.2.2.2.1
  paramTypes := fields.2.2.2.2.2

def fields (args : InvokeArgs) : Fields :=
  (args.func, args.session, args.cancelId, args.ret, args.retOrigin, args.paramTypes)

def packed : Codec Fields :=
  .prod .uint32 (.prod .uint32 (.prod .uint32 (.prod .uint32 (.prod .uint32 .uint32))))

/-- `GP_InvokeArgs`. -/
def codec : Codec InvokeArgs :=
  packed.via ofFields fields (fun _ => True)
    (fun _ _ => ⟨⟨trivial, trivial, trivial, trivial, trivial, trivial⟩, rfl⟩)
    (fun _ _ => ⟨trivial, rfl⟩)

def place {part : Codec UInt32} (inner : Place packed.decode part) : Place codec.decode part :=
  inner.through ofFields fields fun _ => rfl

def atFunc : Place codec.decode .uint32 :=
  place (.first _ _)

def atSession : Place codec.decode .uint32 :=
  place (.second _ (.first _ _))

def atCancelId : Place codec.decode .uint32 :=
  place (.second _ (.second _ (.first _ _)))

def atRet : Place codec.decode .uint32 :=
  place (.second _ (.second _ (.second _ (.first _ _))))

def atRetOrigin : Place codec.decode .uint32 :=
  place (.second _ (.second _ (.second _ (.second _ (.first _ _)))))

def atParamTypes : Place codec.decode .uint32 :=
  place (.second _ (.second _ (.second _ (.second _ (.second _ (.whole _))))))

end InvokeArgs

namespace Param

abbrev Fields := UInt64 × UInt64 × UInt64 × UInt64

def ofFields (fields : Fields) : Param where
  attr := fields.1
  a := fields.2.1
  b := fields.2.2.1
  c := fields.2.2.2

def fields (param : Param) : Fields :=
  (param.attr, param.a, param.b, param.c)

def packed : Codec Fields :=
  .prod .uint64 (.prod .uint64 (.prod .uint64 .uint64))

/-- `GP_Param`. -/
def codec : Codec Param :=
  packed.via ofFields fields (fun _ => True)
    (fun _ _ => ⟨⟨trivial, trivial, trivial, trivial⟩, rfl⟩)
    (fun _ _ => ⟨trivial, rfl⟩)

def place {part : Codec UInt64} (inner : Place packed.decode part) : Place codec.decode part :=
  inner.through ofFields fields fun _ => rfl

def atAttr : Place codec.decode .uint64 :=
  place (.first _ _)

def atA : Place codec.decode .uint64 :=
  place (.second _ (.first _ _))

def atB : Place codec.decode .uint64 :=
  place (.second _ (.second _ (.first _ _)))

def atC : Place codec.decode .uint64 :=
  place (.second _ (.second _ (.second _ (.whole _))))

end Param

namespace OpenSessionArgs

abbrev Fields := Uuid × Uuid × UInt32 × UInt32 × UInt32 × UInt32 × UInt32 × UInt32

def ofFields (fields : Fields) : OpenSessionArgs where
  uuid := fields.1
  clntUuid := fields.2.1
  clntLogin := fields.2.2.1
  cancelId := fields.2.2.2.1
  session := fields.2.2.2.2.1
  ret := fields.2.2.2.2.2.1
  retOrigin := fields.2.2.2.2.2.2.1
  paramTypes := fields.2.2.2.2.2.2.2

def fields (args : OpenSessionArgs) : Fields :=
  (args.uuid, args.clntUuid, args.clntLogin, args.cancelId, args.session, args.ret,
    args.retOrigin, args.paramTypes)

def packed : Codec Fields :=
  .prod (.byteArray teeUuidLen) (.prod (.byteArray teeUuidLen)
    (.prod .uint32 (.prod .uint32 (.prod .uint32 (.prod .uint32 (.prod .uint32 .uint32))))))

/-- Both UUIDs have the length of a UUID. -/
structure Sized (args : OpenSessionArgs) : Prop where
  uuid : args.uuid.length = teeUuidLen
  clntUuid : args.clntUuid.length = teeUuidLen

/-- `GP_OpenSessionArgs`. -/
def codec : Codec OpenSessionArgs :=
  packed.via ofFields fields Sized
    (fun _ sized => ⟨⟨sized.uuid, sized.clntUuid, trivial, trivial, trivial, trivial, trivial,
      trivial⟩, rfl⟩)
    (fun _ valid => ⟨⟨valid.1, valid.2.1⟩, rfl⟩)

def place {α : Type} {part : Codec α} (inner : Place packed.decode part) :
    Place codec.decode part :=
  inner.through ofFields fields fun _ => rfl

def atUuid : Place codec.decode (.byteArray teeUuidLen) :=
  place (.first _ _)

def atClntUuid : Place codec.decode (.byteArray teeUuidLen) :=
  place (.second _ (.first _ _))

def atClntLogin : Place codec.decode .uint32 :=
  place (.second _ (.second _ (.first _ _)))

def atCancelId : Place codec.decode .uint32 :=
  place (.second _ (.second _ (.second _ (.first _ _))))

def atSession : Place codec.decode .uint32 :=
  place (.second _ (.second _ (.second _ (.second _ (.first _ _)))))

def atRet : Place codec.decode .uint32 :=
  place (.second _ (.second _ (.second _ (.second _ (.second _ (.first _ _))))))

def atRetOrigin : Place codec.decode .uint32 :=
  place (.second _ (.second _ (.second _ (.second _ (.second _ (.second _ (.first _ _)))))))

def atParamTypes : Place codec.decode .uint32 :=
  place
    (.second _ (.second _ (.second _ (.second _ (.second _ (.second _ (.second _ (.whole _))))))))

end OpenSessionArgs

namespace SharedMessage

abbrev Fields := UInt32 × OpenSessionArgs × InvokeArgs × (Fin vmsMaxParams → Param) × Bytes

def ofFields (fields : Fields) : SharedMessage where
  callType := fields.1
  sessionArgs := fields.2.1
  invokeArgs := fields.2.2.1
  params := fields.2.2.2.1
  payload := fields.2.2.2.2

def fields (msg : SharedMessage) : Fields :=
  (msg.callType, msg.sessionArgs, msg.invokeArgs, msg.params, msg.payload)

def paramsCodec : Codec (Fin vmsMaxParams → Param) :=
  .array vmsMaxParams Param.codec

def packed (size : EnumSize) : Bytes → Fields :=
  Place.both (teeCallType size) (Place.both OpenSessionArgs.codec
    (Place.both InvokeArgs.codec (Place.both paramsCodec id)))

/-- The message in the memory from `VMS_IPC_BASE` on. -/
def view (size : EnumSize) (memory : Bytes) : SharedMessage :=
  ofFields (packed size memory)

/-- The memory that holds the message. -/
def image (size : EnumSize) (msg : SharedMessage) : Bytes :=
  ((teeCallType size).encode msg.callType).andThen (teeCallType size).width <|
  (OpenSessionArgs.codec.encode msg.sessionArgs).andThen OpenSessionArgs.codec.width <|
  (InvokeArgs.codec.encode msg.invokeArgs).andThen InvokeArgs.codec.width <|
  (paramsCodec.encode msg.params).andThen paramsCodec.width msg.payload

/-- The fields have values that their types in C have. -/
structure Storable (size : EnumSize) (msg : SharedMessage) : Prop where
  callType : msg.callType.toNat < 256 ^ size.bytes
  sessionArgs : msg.sessionArgs.Sized

variable (size : EnumSize)

def atCallType : Place (view size) (teeCallType size) :=
  (Place.first _ _).through ofFields fields fun _ => rfl

def atSessionArgs : Place (view size) OpenSessionArgs.codec :=
  (Place.second _ (.first _ _)).through ofFields fields fun _ => rfl

def atInvokeArgs : Place (view size) InvokeArgs.codec :=
  (Place.second _ (.second _ (.first _ _))).through ofFields fields fun _ => rfl

def atParams : Place (view size) paramsCodec :=
  (Place.second _ (.second _ (.second _ (.first _ _)))).through ofFields fields fun _ => rfl

def atParam (i : Fin vmsMaxParams) : Place (view size) Param.codec :=
  (atParams size).within (.item vmsMaxParams Param.codec i) <| by
    calc
      i * Param.codec.width + Param.codec.width = (i + 1) * Param.codec.width := by
        rw [Nat.succ_mul]
      _ ≤ paramsCodec.width := Nat.mul_le_mul_right _ i.isLt

theorem view_image {msg : SharedMessage} (storable : msg.Storable size) :
    view size (image size msg) = msg := by
  unfold view packed image
  rw [Place.both_andThen (teeCallType size) _ storable.callType,
    Place.both_andThen OpenSessionArgs.codec _ storable.sessionArgs,
    Place.both_andThen InvokeArgs.codec _ trivial,
    Place.both_andThen paramsCodec _ fun _ => trivial]
  rfl

theorem image_view (memory : Bytes) : image size (view size memory) = memory := by
  unfold view packed image
  dsimp only [ofFields, Place.both, id]
  rw [Place.andThen_both paramsCodec, Place.andThen_both InvokeArgs.codec,
    Place.andThen_both OpenSessionArgs.codec, Place.andThen_both (teeCallType size)]

theorem storable_view (memory : Bytes) : (view size memory).Storable size :=
  ⟨(teeCallType size).valid_decode _, OpenSessionArgs.codec.valid_decode _⟩

/-- Where the member `payload` begins. -/
def payloadOffset : Nat :=
  (teeCallType size).width +
    (OpenSessionArgs.codec.width + (InvokeArgs.codec.width + (paramsCodec.width + 0)))

theorem payload_view (memory : Bytes) :
    (view size memory).payload = memory.behind (payloadOffset size) := by
  unfold payloadOffset
  iterate 4 rw [← Bytes.behind_behind]
  rw [Bytes.behind_zero]
  rfl

/-- A copy into the payload is a copy into the payload, and nothing else. -/
theorem view_copy_payload (memory source : Bytes) (start count : Nat) :
    view size (memory.copy (payloadOffset size + start) count source) =
      { view size memory with payload := fill (view size memory).payload start count source } := by
  unfold view packed payloadOffset
  simp only [Nat.add_assoc, Nat.zero_add]
  iterate 4 rw [Place.both_copy]
  rfl

end SharedMessage

def vmsOffsetCallType : Nat := 0x0000

def vmsOffsetSessionArgs (size : EnumSize) : Nat := vmsOffsetCallType + size.bytes

def vmsOffsetInvokeFuncArgs (size : EnumSize) : Nat :=
  vmsOffsetSessionArgs size + sizeofOpenSessionArgs

def vmsOffsetParams (size : EnumSize) : Nat := vmsOffsetInvokeFuncArgs size + sizeofInvokeArgs

def vmsOffsetPayload (size : EnumSize) : Nat :=
  vmsOffsetParams size + vmsMaxParams * sizeofParam

theorem vmsOffsetPayload_eq (size : EnumSize) :
    vmsOffsetPayload size = SharedMessage.payloadOffset size := by
  cases size <;> rfl

theorem payloadSpace_bytes (size : EnumSize) :
    payloadSpace size.bytes = vmsUsablePayloadSize := by
  cases size with
  | short => exact payloadSpace_eq.1
  | int => exact payloadSpace_eq.2

open SharedMessage in
/-- The packed structures lie where the header says, and the records of the model
are exactly what the bytes can say. -/
theorem sharedMessage_packed (size : EnumSize) :
    (atCallType size).offset = vmsOffsetCallType ∧
    (atSessionArgs size).offset = vmsOffsetSessionArgs size ∧
    (atInvokeArgs size).offset = vmsOffsetInvokeFuncArgs size ∧
    (∀ i, (atParam size i).offset = vmsOffsetParams size + i * sizeofParam) ∧
    (∀ memory, (view size memory).payload = memory.behind (vmsOffsetPayload size)) ∧
    payloadSpace size.bytes = vmsUsablePayloadSize ∧
    vmsOffsetPayload size + vmsUsablePayloadSize ≤ vmsIpcFullSize ∧
    (∀ msg : SharedMessage, msg.Storable size ↔ ∃ memory, view size memory = msg) ∧
    (∀ memory memory', view size memory = view size memory' ↔ memory = memory') := by
  refine ⟨rfl, ?_, ?_, ?_, ?_, payloadSpace_bytes size, ?_, ?_, ?_⟩
  · cases size <;> rfl
  · cases size <;> rfl
  · intro i
    cases size <;> rfl
  · intro memory
    rw [vmsOffsetPayload_eq, payload_view]
  · cases size <;> decide
  · intro msg
    constructor
    · intro storable
      exact ⟨image size msg, view_image size storable⟩
    · rintro ⟨memory, rfl⟩
      exact storable_view size memory
  · intro memory memory'
    constructor
    · intro same
      rw [← image_view size memory, same, image_view]
    · intro same
      rw [same]

end Uc1Integration.Tee
