import Uc1Integration.Scripts.HandlerLog
import Uc1Integration.Tee.Boot

/-!
# What the converter reads from the handler's log

A block is closed by the line of the next parameter. After the fourth parameter
there is none, and the converter goes on reading.
-/

set_option autoImplicit false

namespace Uc1Integration.Scripts

open Text Tee

/-!
## The entries of one interrupt
-/

def paramEntries (reply : SharedMessage) (i : Fin vmsMaxParams) : List LogEntry :=
  .paramType i (reply.params i).type ::
    if (reply.params i).IsOutput then
      [.hexdump (reply.params i).a (reply.params i).b ((reply.params i).slot reply.payload)]
    else if (reply.params i).type = teeParamAttrTypeValueOutput.toUInt32 ∨
        (reply.params i).type = teeParamAttrTypeValueInout.toUInt32 then
      [.value (reply.params i).a (reply.params i).b]
    else []

theorem log_handleParam (shared : Shared) (i : Fin vmsMaxParams) :
    (handleParam shared i).log = shared.log ++ paramEntries shared.msg i := by
  unfold handleParam paramEntries
  by_cases output : (shared.msg.params i).IsOutput
  · have typed : (shared.msg.params i).type = teeParamAttrTypeMemrefOutput.toUInt32 ∨
        (shared.msg.params i).type = teeParamAttrTypeMemrefInout.toUInt32 := output
    simp [output, typed, Shared.logs]
  · have typed : ¬ ((shared.msg.params i).type = teeParamAttrTypeMemrefOutput.toUInt32 ∨
        (shared.msg.params i).type = teeParamAttrTypeMemrefInout.toUInt32) := output
    rw [if_neg output, if_neg typed]
    split <;> simp [Shared.logs]

theorem log_foldl_handleParam (shared : Shared) (indices : List (Fin vmsMaxParams)) :
    (indices.foldl handleParam shared).log =
      shared.log ++ indices.flatMap (paramEntries shared.msg) := by
  induction indices generalizing shared with
  | nil => simp
  | cons first rest ih =>
      rw [List.foldl_cons, ih, log_handleParam, msg_handleParam, List.append_assoc,
        List.flatMap_cons]

/-- Nothing but the reply decides what is logged. -/
theorem handlerEntries_eq (shared : Shared) :
    handlerEntries shared =
      (if shared.msg.callType = teeCallTypeInvokeFunc then
        .returned shared.msg.invokeArgs.ret shared.msg.invokeArgs.retOrigin ::
          (List.finRange vmsMaxParams).flatMap (paramEntries shared.msg)
      else []) ++ [.handled] := by
  by_cases invoked : shared.msg.callType = teeCallTypeInvokeFunc
  · simp only [handlerEntries, ipcIrqClientHandler, if_pos invoked, Shared.logs,
      log_foldl_handleParam, List.nil_append, List.singleton_append]
  · simp only [handlerEntries, ipcIrqClientHandler, if_neg invoked, Shared.logs]
    split <;> rfl

/-!
## Lines that are no hexdump
-/

theorem oneLine_of_all {text : Str}
    (inside : text.all (fun c => c != '\n' && c != '\r') = true) : OneLine text := by
  rw [List.all_eq_true] at inside
  constructor
  · intro member
    exact absurd (inside _ member) (by decide)
  · intro member
    exact absurd (inside _ member) (by decide)

theorem paddedHex_oneLine (value : Nat) : OneLine (paddedHex value) := by
  apply oneLine_of_solid
  intro c member
  rw [paddedHex, List.leftpad, List.mem_append] at member
  rcases member with padding | digit
  · rw [List.eq_of_mem_replicate padding]
    rfl
  · obtain ⟨digit, inDigits, rfl⟩ := List.mem_map.mp digit
    exact (hexDigit_plain true
      (Nat.digits_lt_base (by decide) (List.mem_reverse.mp inDigits))).solid

theorem oneLine_ite {condition : Prop} [Decidable condition] {text other : Str}
    (here : OneLine text) (there : OneLine other) :
    OneLine (if condition then text else other) := by
  split
  · exact here
  · exact there

theorem typeStr_oneLine (type : UInt32) : OneLine (typeStr type) := by
  unfold typeStr
  repeat' apply oneLine_ite
  all_goals exact oneLine_of_all rfl

theorem index_oneLine (i : Fin vmsMaxParams) : OneLine (Nat.toDigits 10 i.val) := by
  have inside : ∀ i : Fin vmsMaxParams,
      (Nat.toDigits 10 i.val).all (fun c => c != '\n' && c != '\r') = true := by
    decide
  exact oneLine_of_all (inside i)

theorem typeText_oneLine (i : Fin vmsMaxParams) (type : UInt32) :
    OneLine (Nat.toDigits 10 i.val ++ "] type: ".toList ++ typeStr type) :=
  ((index_oneLine i).append (oneLine_of_all rfl)).append (typeStr_oneLine type)

/-- What follows `Param[` on its line. -/
def typeTail (i : Fin vmsMaxParams) (type : UInt32) : Tail :=
  ⟨Nat.toDigits 10 i.val ++ "] type: ".toList ++ typeStr type, typeText_oneLine i type⟩

theorem entryLines_paramType (hexdump : List UInt8 → List Row) (i : Fin vmsMaxParams)
    (type : UInt32) :
    entryLines hexdump (.paramType i type) = [(Closing.param (typeTail i type)).line] := by
  have regroup : ∀ title index middle shown : Str,
      title ++ index ++ middle ++ shown = title ++ (index ++ middle ++ shown) := by
    intro title index middle shown
    simp only [List.append_assoc]
  exact congrArg (fun line => [line]) (regroup paramStart _ _ _)

theorem entryLines_oneLine (hexdump : List UInt8 → List Row) (entry : LogEntry) :
    ∀ line ∈ entryLines hexdump entry, OneLine line := by
  intro line member
  cases entry with
  | returned ret retOrigin =>
      rw [List.mem_singleton.mp member]
      exact (((oneLine_of_all rfl).append (paddedHex_oneLine _)).append (oneLine_of_all rfl)).append
        (paddedHex_oneLine _)
  | paramType i type =>
      rw [entryLines_paramType] at member
      rw [List.mem_singleton.mp member]
      exact (oneLine_of_all rfl).append (typeTail i type).oneLine
  | hexdump a b data =>
      rcases List.mem_cons.mp member with rfl | inRows
      · exact oneLine_of_all rfl
      · obtain ⟨row, -, rfl⟩ := List.mem_map.mp inRows
        exact row.oneLine
  | value a b =>
      rw [List.mem_singleton.mp member]
      exact (((oneLine_of_all rfl).append (paddedHex_oneLine _)).append (oneLine_of_all rfl)).append
        (paddedHex_oneLine _)
  | handled =>
      rw [List.mem_singleton.mp member]
      exact oneLine_of_all rfl

theorem strip_cons {c : Char} (solid : isSpace c = false) (rest : Str) :
    strip (c :: rest) = c :: rest.rdropWhile isSpace := by
  have isSolid : Solid [c] := by
    simp [Solid, solid]
  exact strip_solid (fun c member => absurd member List.not_mem_nil) isSolid rest

/-- Text whose first character tells that it is no header. -/
def Other (line : Str) : Prop :=
  ∃ c rest, line = c :: rest ∧ isSpace c = false ∧ c ≠ 'M'

theorem other_append {c : Char} {title begin : Str} (begins : title = c :: begin)
    (solid : isSpace c = false) (noHeader : c ≠ 'M') (rest : Str) : Other (title ++ rest) :=
  ⟨c, begin ++ rest, by rw [begins, List.cons_append], solid, noHeader⟩

theorem other_returned (ret retOrigin : UInt32) :
    Other ("TEE returned: ret = 0x".toList ++ paddedHex ret.toNat ++ ", origin = 0x".toList ++
      paddedHex retOrigin.toNat) := by
  rw [List.append_assoc, List.append_assoc]
  exact other_append (rfl : _ = 'T' :: "EE returned: ret = 0x".toList) rfl (by decide) _

theorem other_value (a b : UInt64) :
    Other ("Value: a = 0x".toList ++ paddedHex a.toNat ++ ", b = 0x".toList ++
      paddedHex b.toNat) := by
  rw [List.append_assoc, List.append_assoc]
  exact other_append (rfl : _ = 'V' :: "alue: a = 0x".toList) rfl (by decide) _

theorem other_handled : Other handledLine := by
  rw [← List.append_nil handledLine]
  exact other_append (rfl : _ = 'I' :: "RQ Handled.".toList) rfl (by decide) _

/-- Between two blocks a line that is no header is passed over. -/
theorem parseLine_other {line : Str} (other : Other line) (blocks current : List Str) :
    parseLine ⟨blocks, current, false⟩ line = ⟨blocks, current, false⟩ := by
  obtain ⟨c, rest, rfl, solid, noHeader⟩ := other
  have other : memrefHeader.isPrefixOf (strip (c :: rest)) = false := by
    rw [strip_cons solid]
    exact not_isPrefixOf noHeader _ _
  simp [parseLine, other]

theorem parseLines_singleton (state : Reading) (line : Str) :
    parseLines state [line] = parseLine state line := rfl

/-!
## What is read at one interrupt
-/

section Interrupt

variable {hexdump : List UInt8 → List Row}

def paramBuffers (reply : SharedMessage) (i : Fin vmsMaxParams) : List (List UInt8) :=
  if (reply.params i).IsOutput ∧ (reply.params i).b ≠ 0 then
    [(reply.params i).slot reply.payload]
  else []

theorem outputBuffers_eq (reply : SharedMessage) :
    outputBuffers reply =
      if reply.callType = teeCallTypeInvokeFunc then
        (List.finRange vmsMaxParams).flatMap (paramBuffers reply)
      else [] := by
  rw [outputBuffers]
  congr 1
  induction List.finRange vmsMaxParams with
  | nil => rfl
  | cons i indices ih =>
      rw [List.filter_cons, List.flatMap_cons, paramBuffers, ← ih]
      by_cases dumped : (reply.params i).IsOutput ∧ (reply.params i).b ≠ 0
      · rw [if_pos dumped, if_pos (decide_eq_true dumped)]
        rfl
      · rw [if_neg dumped, if_neg (by rw [decide_eq_false dumped]; decide)]
        rfl

/-- The state of the converter in a hexdump of these bytes. -/
def dumping (hexdump : List UInt8 → List Row) (blocks : List Str) (data : List UInt8) : Reading :=
  ⟨blocks, (hexdump data).map fun row => hexString row.bytes, true⟩

theorem parseLines_hexdump {blocks : List Str} {state : Reading} (holds : Holds blocks state)
    (a b : UInt64) (data : List UInt8) :
    parseLines state (entryLines hexdump (.hexdump a b data)) = dumping hexdump blocks data := by
  have noTail : OneLine [] := ⟨List.not_mem_nil, List.not_mem_nil⟩
  have header := parseLine_header holds ⟨[], noTail⟩
  rw [List.append_nil] at header
  have step : parseLines state (entryLines hexdump (.hexdump a b data)) =
      parseLines (parseLine state memrefHeader) ((hexdump data).map Row.line) := rfl
  rw [step, header, parseLines_rows, List.nil_append]
  rfl

/-- The bytes are held as a block if there are any. -/
theorem holds_dumping (prints : Prints hexdump) (blocks : List Str) (data : List UInt8) :
    Holds (blocks ++ if data = [] then [] else [bufferText data])
      (dumping hexdump blocks data) := by
  have bytes := prints data
  cases rows : hexdump data with
  | nil =>
      have empty : data = [] := by
        rw [rows] at bytes
        exact List.map_eq_nil_iff.mp bytes.symm
      rw [if_pos empty, List.append_nil, dumping, rows]
      rfl
  | cons row later =>
      have some : data ≠ [] := by
        intro empty
        rw [rows, empty] at bytes
        cases bytes
      have text : ((hexdump data).map fun row => hexString row.bytes).flatten =
          bufferText data := by
        rw [← hexString_flatMap, bytes]
        rfl
      rw [rows] at text
      rw [if_neg some, dumping, rows, Holds, Reading.flush, if_pos rfl, Reading.store,
        if_neg (by simp), text]

theorem slot_eq_nil_iff (param : Param) (payload : Nat → UInt8) :
    param.slot payload = [] ↔ param.b = 0 := by
  rw [← List.length_eq_zero_iff, Param.slot, length_slice]
  exact UInt64.toNat_inj (b := 0)

theorem parseLines_paramEntries {blocks : List Str} {state : Reading} (holds : Holds blocks state)
    (reply : SharedMessage) (i : Fin vmsMaxParams) :
    parseLines state ((paramEntries reply i).flatMap (entryLines hexdump)) =
      if (reply.params i).IsOutput then
        dumping hexdump blocks ((reply.params i).slot reply.payload)
      else ⟨blocks, [], false⟩ := by
  have closed : Holds blocks ⟨blocks, [], false⟩ := rfl
  rw [paramEntries, List.flatMap_cons, parseLines_append, entryLines_paramType,
    parseLines_singleton, parseLine_closing holds]
  split
  · rw [List.flatMap_singleton]
    exact parseLines_hexdump closed _ _ _
  · split
    · rw [List.flatMap_singleton, entryLines, parseLines_singleton]
      exact parseLine_other (other_value _ _) _ _
    · rfl

theorem holds_paramEntries (prints : Prints hexdump) {blocks : List Str} {state : Reading}
    (holds : Holds blocks state) (reply : SharedMessage) (i : Fin vmsMaxParams) :
    Holds (blocks ++ (paramBuffers reply i).map bufferText)
      (parseLines state ((paramEntries reply i).flatMap (entryLines hexdump))) := by
  rw [parseLines_paramEntries holds, paramBuffers]
  by_cases output : (reply.params i).IsOutput
  · have read := holds_dumping prints blocks ((reply.params i).slot reply.payload)
    rw [if_pos output]
    by_cases empty : (reply.params i).b = 0
    · rw [if_pos ((slot_eq_nil_iff _ _).mpr empty)] at read
      rw [if_neg fun both => both.2 empty]
      exact read
    · rw [if_neg (mt (slot_eq_nil_iff _ _).mp empty)] at read
      rw [if_pos ⟨output, empty⟩]
      exact read
  · rw [if_neg output, if_neg fun both => output both.1, List.map_nil, List.append_nil]
    rfl

theorem holds_params (prints : Prints hexdump) (reply : SharedMessage)
    (indices : List (Fin vmsMaxParams)) {blocks : List Str} {state : Reading}
    (holds : Holds blocks state) :
    Holds (blocks ++ (indices.flatMap (paramBuffers reply)).map bufferText)
      (parseLines state ((indices.flatMap (paramEntries reply)).flatMap (entryLines hexdump))) := by
  induction indices generalizing blocks state with
  | nil =>
      rw [List.flatMap_nil, List.map_nil, List.append_nil]
      exact holds
  | cons i indices ih =>
      rw [List.flatMap_cons, List.flatMap_cons, List.map_append, ← List.append_assoc,
        List.flatMap_append, parseLines_append]
      exact ih (holds_paramEntries prints holds reply i)

/-- An interrupt whose fourth parameter is no output leaves no block unfinished. -/
theorem parseLines_interrupt (prints : Prints hexdump) (shared : Shared) (blocks : List Str)
    (closed : shared.msg.callType = teeCallTypeInvokeFunc → ¬ (shared.msg.params 3).IsOutput) :
    parseLines ⟨blocks, [], false⟩ ((handlerEntries shared).flatMap (entryLines hexdump)) =
      ⟨blocks ++ (outputBuffers shared.msg).map bufferText, [], false⟩ := by
  have idle : Holds blocks ⟨blocks, [], false⟩ := rfl
  rw [handlerEntries_eq, outputBuffers_eq, List.flatMap_append, parseLines_append,
    List.flatMap_singleton]
  by_cases invoked : shared.msg.callType = teeCallTypeInvokeFunc
  · have indices : List.finRange vmsMaxParams = [0, 1, 2] ++ [3] := rfl
    have three := holds_params prints shared.msg [0, 1, 2] idle
    have fourth : paramBuffers shared.msg 3 = [] := if_neg fun both => closed invoked both.1
    rw [if_pos invoked, if_pos invoked, List.flatMap_cons, parseLines_append, entryLines,
      parseLines_singleton, parseLine_other (other_returned _ _), indices, List.flatMap_append,
      List.flatMap_append, parseLines_append, List.flatMap_singleton,
      parseLines_paramEntries three, if_neg (closed invoked), List.flatMap_append,
      List.flatMap_singleton, fourth, List.append_nil]
    exact parseLine_other other_handled _ _
  · rw [if_neg invoked, if_neg invoked, List.map_nil, List.append_nil]
    exact parseLine_other other_handled _ _

theorem parseLines_interrupts (prints : Prints hexdump) (interrupts : List Shared)
    (blocks : List Str)
    (closed : ∀ shared ∈ interrupts,
      shared.msg.callType = teeCallTypeInvokeFunc → ¬ (shared.msg.params 3).IsOutput) :
    parseLines ⟨blocks, [], false⟩ (handlerLines hexdump interrupts) =
      ⟨blocks ++ (interrupts.flatMap fun shared => outputBuffers shared.msg).map bufferText, [],
        false⟩ := by
  induction interrupts generalizing blocks with
  | nil =>
      rw [List.flatMap_nil, List.map_nil, List.append_nil]
      rfl
  | cons shared interrupts ih =>
      have step : handlerLines hexdump (shared :: interrupts) =
          (handlerEntries shared).flatMap (entryLines hexdump) ++
            handlerLines hexdump interrupts := rfl
      rw [step, parseLines_append,
        parseLines_interrupt prints shared blocks (closed shared List.mem_cons_self),
        ih _ fun other member => closed other (List.mem_cons_of_mem _ member), List.flatMap_cons,
        List.map_append, List.append_assoc]

end Interrupt

/-!
## What has once been read
-/

/-- All that has been read so far, stored or not. -/
def Reading.text (state : Reading) : Str :=
  state.blocks.flatten ++ state.currentBlock.flatten

/-- Outside of a block nothing is left to be stored. -/
def Reading.Tidy (state : Reading) : Prop :=
  state.readingBlock = false → state.currentBlock = []

theorem text_store (state : Reading) : state.store.text = state.text := by
  rw [Reading.store]
  split
  · rfl
  · simp [Reading.text]

theorem currentBlock_store (state : Reading) : state.store.currentBlock = [] := by
  rw [Reading.store]
  split
  next empty => exact List.isEmpty_iff.mp empty
  next => rfl

theorem Reading.Tidy.flush {state : Reading} (tidy : state.Tidy) :
    state.flush.text = state.text ∧ state.flush.currentBlock = [] := by
  rw [Reading.flush]
  split
  next => exact ⟨text_store state, currentBlock_store state⟩
  next idle => exact ⟨rfl, tidy (Bool.eq_false_iff.mpr idle)⟩

/-- Each line adds to what has been read, or leaves it. -/
theorem Reading.Tidy.parseLine {state : Reading} (tidy : state.Tidy) (line : Str) :
    (parseLine state line).Tidy ∧ state.text <+: (Scripts.parseLine state line).text := by
  obtain ⟨flushed, empty⟩ := tidy.flush
  rw [Scripts.parseLine]
  split
  · constructor
    · intro idle
      cases idle
    · rw [← flushed]
      exact List.prefix_rfl
  · split
    · split
      · refine ⟨fun _ => currentBlock_store state, ?_⟩
        rw [← text_store state]
        exact List.prefix_rfl
      · next reading _ =>
          refine ⟨fun idle => absurd (idle ▸ reading) (by decide), ?_⟩
          simp [Reading.text]
    · exact ⟨tidy, List.prefix_rfl⟩

theorem Reading.Tidy.parseLines {state : Reading} (tidy : state.Tidy) (lines : List Str) :
    (parseLines state lines).Tidy ∧ state.text <+: (Scripts.parseLines state lines).text := by
  induction lines generalizing state with
  | nil => exact ⟨tidy, List.prefix_rfl⟩
  | cons line lines ih =>
      obtain ⟨next, here⟩ := tidy.parseLine line
      obtain ⟨last, later⟩ := ih next
      exact ⟨last, here.trans later⟩

theorem Reading.Tidy.flatten_blocks {state : Reading} (tidy : state.Tidy) :
    state.flush.blocks.flatten = state.text := by
  obtain ⟨flushed, empty⟩ := tidy.flush
  rw [← flushed, Reading.text, empty, List.flatten_nil, List.append_nil]

/-- A hexdump is being read wherever it is met. -/
theorem reading_hexdump (hexdump : List UInt8 → List Row) (state : Reading) (a b : UInt64)
    (data : List UInt8) :
    (parseLines state (entryLines hexdump (.hexdump a b data))).readingBlock = true := by
  have isHeader : memrefHeader.isPrefixOf (strip memrefHeader) = true := by decide
  have header : parseLine state memrefHeader = { state.flush with readingBlock := true } := by
    rw [parseLine, if_pos isHeader]
  have step : parseLines state (entryLines hexdump (.hexdump a b data)) =
      parseLines (parseLine state memrefHeader) ((hexdump data).map Row.line) := rfl
  rw [step, header, parseLines_rows]

theorem text_handledLine {state : Reading} (reading : state.readingBlock = true) :
    'I' ∈ (parseLine state handledLine).text := by
  have noHeader : memrefHeader.isPrefixOf (strip handledLine) = false := by decide
  have noClose : (paramStart.isPrefixOf (strip handledLine) || (strip handledLine).isEmpty) =
      false := by decide
  have read : 'I' ∈ (split (((strip handledLine).splitOn '|').headD [])).flatten := by decide
  simp only [parseLine, noHeader, reading, noClose, Bool.false_eq_true, if_false, if_true,
    Reading.text, List.flatten_append, List.flatten_cons, List.flatten_nil, List.append_nil,
    List.mem_append]
  exact .inr (.inr read)

/-- The last parameter is dumped right before the interrupt is handled. -/
theorem exists_entries_fourth {shared : Shared}
    (invoked : shared.msg.callType = teeCallTypeInvokeFunc)
    (output : (shared.msg.params 3).IsOutput) :
    ∃ earlier a b data, handlerEntries shared = earlier ++ [.hexdump a b data, .handled] := by
  have indices : List.finRange vmsMaxParams = [0, 1, 2] ++ [3] := rfl
  refine ⟨.returned shared.msg.invokeArgs.ret shared.msg.invokeArgs.retOrigin ::
    ([0, 1, 2].flatMap (paramEntries shared.msg) ++
      [.paramType 3 (shared.msg.params 3).type]), (shared.msg.params 3).a,
    (shared.msg.params 3).b, (shared.msg.params 3).slot shared.msg.payload, ?_⟩
  rw [handlerEntries_eq, if_pos invoked, indices, List.flatMap_append, List.flatMap_singleton,
    paramEntries, if_pos output]
  simp only [List.cons_append, List.append_assoc, List.nil_append]

/-- The line behind a hexdump is read as part of it. -/
theorem mem_text_of_hexdump (hexdump : List UInt8 → List Row) (earlier : List Str) (a b : UInt64)
    (data : List UInt8) (later : List Str) {state : Reading} (tidy : state.Tidy) :
    'I' ∈ (parseLines state
      (earlier ++ entryLines hexdump (.hexdump a b data) ++ handledLine :: later)).text := by
  rw [parseLines_append, parseLines_append]
  have before := (tidy.parseLines earlier).1
  have reading := reading_hexdump hexdump (parseLines state earlier) a b data
  have dumped := (before.parseLines (entryLines hexdump (.hexdump a b data))).1
  have kept := ((dumped.parseLine handledLine).1.parseLines later).2
  exact kept.subset (text_handledLine reading)

theorem mem_text_of_fourth (hexdump : List UInt8 → List Row) {interrupts : List Shared}
    {shared : Shared} (member : shared ∈ interrupts)
    (invoked : shared.msg.callType = teeCallTypeInvokeFunc)
    (output : (shared.msg.params 3).IsOutput) {state : Reading} (tidy : state.Tidy) :
    'I' ∈ (parseLines state (handlerLines hexdump interrupts)).text := by
  obtain ⟨before, after, rfl⟩ := List.append_of_mem member
  obtain ⟨earlier, a, b, data, entries⟩ := exists_entries_fourth invoked output
  have lines : handlerLines hexdump (before ++ shared :: after) =
      (handlerLines hexdump before ++ earlier.flatMap (entryLines hexdump)) ++
        entryLines hexdump (.hexdump a b data) ++
        handledLine :: handlerLines hexdump after := by
    simp only [handlerLines, List.flatMap_append, List.flatMap_cons, entries, List.flatMap_nil,
      List.append_nil, List.append_assoc, entryLines, List.cons_append, List.nil_append]
  rw [lines]
  exact mem_text_of_hexdump hexdump _ a b data _ tidy

/-!
## The blocks read
-/

theorem bufferText_digits (data : List UInt8) :
    Even (bufferText data).length ∧ ∀ c ∈ bufferText data, c ∈ hexDigits := by
  have digits : ∀ value < 16, hexDigit false value ∈ hexDigits := by decide
  induction data with
  | nil => exact ⟨Even.zero, fun c member => absurd member List.not_mem_nil⟩
  | cons byte data ih =>
      have step : bufferText (byte :: data) = (lowerHex byte).digits ++ bufferText data := rfl
      have two : (lowerHex byte).digits.length = 2 := rfl
      have bound : byte.toNat < 256 := byte.toNat_lt
      rw [step]
      constructor
      · rw [List.length_append, two]
        exact even_two.add ih.1
      · intro c member
        rcases List.mem_append.mp member with here | later
        · rcases List.mem_cons.mp here with rfl | low
          · exact digits _ (by change byte.toNat / 16 < 16; omega)
          · rw [List.mem_singleton.mp low]
            exact digits _ (by change byte.toNat % 16 < 16; omega)
        · exact ih.2 c later

theorem parseHexBlocks_handlerLog (hexdump : List UInt8 → List Row) (interrupts : List Shared) :
    parseHexBlocks (handlerLog hexdump interrupts) =
      (parseLines ⟨[], [], false⟩ (handlerLines hexdump interrupts)).flush.blocks := by
  apply parseHexBlocks_unlines
  intro line member
  obtain ⟨shared, -, inEntries⟩ := List.mem_flatMap.mp member
  obtain ⟨entry, -, inLines⟩ := List.mem_flatMap.mp inEntries
  exact entryLines_oneLine hexdump entry line inLines

theorem not_readsBuffers_of_fourth {hexdump : List UInt8 → List Row} {interrupts : List Shared}
    {shared : Shared} (member : shared ∈ interrupts)
    (invoked : shared.msg.callType = teeCallTypeInvokeFunc)
    (output : (shared.msg.params 3).IsOutput) : ¬ ReadsBuffers hexdump interrupts := by
  intro reads
  have start : Reading.Tidy ⟨[], [], false⟩ := fun _ => rfl
  have garbage := mem_text_of_fourth hexdump member invoked output start
  rw [← (start.parseLines _).1.flatten_blocks, ← parseHexBlocks_handlerLog] at garbage
  obtain ⟨block, inBlocks, inBlock⟩ := List.mem_flatten.mp garbage
  exact absurd ((reads.digits block inBlocks).2 'I' inBlock) (by decide)

/-- The converter reads the output buffers exactly when no reply to an invocation has one as
its fourth parameter. -/
theorem readsBuffers_iff {hexdump : List UInt8 → List Row} (prints : Prints hexdump)
    (interrupts : List Shared) :
    ReadsBuffers hexdump interrupts ↔
      ∀ shared ∈ interrupts, shared.msg.callType = teeCallTypeInvokeFunc →
        ¬ (shared.msg.params 3).IsOutput := by
  constructor
  · intro reads shared member invoked output
    exact not_readsBuffers_of_fourth member invoked output reads
  · intro closed
    have blocks : parseHexBlocks (handlerLog hexdump interrupts) =
        (interrupts.flatMap fun shared => outputBuffers shared.msg).map bufferText := by
      rw [parseHexBlocks_handlerLog, parseLines_interrupts prints interrupts [] closed]
      rfl
    refine ⟨blocks, fun block member => ?_⟩
    rw [blocks] at member
    obtain ⟨data, -, rfl⟩ := List.mem_map.mp member
    exact bufferText_digits data

/-!
## Rows of sixteen bytes
-/

theorem blank_replicate (count : Nat) : ∀ c ∈ List.replicate count ' ', isSpace c = true := by
  intro c member
  rw [List.eq_of_mem_replicate member]
  rfl

theorem oneLine_replicate (count : Nat) : OneLine (List.replicate count ' ') := by
  constructor
  · exact fun member => absurd (List.eq_of_mem_replicate member) (by decide)
  · exact fun member => absurd (List.eq_of_mem_replicate member) (by decide)

def blanks (count : Nat) : Blanks :=
  ⟨List.replicate count ' ', blank_replicate count, oneLine_replicate count⟩

def shownChar (byte : UInt8) : Char :=
  if 0x20 ≤ byte.toNat ∧ byte.toNat < 0x7f then Char.ofNat byte.toNat else '.'

theorem shownChar_inside (byte : UInt8) : shownChar byte ≠ '\n' ∧ shownChar byte ≠ '\r' := by
  have printed : ∀ value < 0x7f, 0x20 ≤ value →
      Char.ofNat value ≠ '\n' ∧ Char.ofNat value ≠ '\r' := by
    decide
  unfold shownChar
  split
  next inside => exact printed _ inside.2 inside.1
  next => decide

theorem oneLine_shown (data : List UInt8) : OneLine (data.map shownChar) := by
  constructor
  · intro member
    obtain ⟨byte, -, same⟩ := List.mem_map.mp member
    exact (shownChar_inside byte).1 same
  · intro member
    obtain ⟨byte, -, same⟩ := List.mem_map.mp member
    exact (shownChar_inside byte).2 same

/-- The text column of a row, in two halves. -/
def shownColumn (data : List UInt8) : Str :=
  (data.take 8).map shownChar ++ List.replicate (8 - data.length) ' ' ++ [' '] ++
    (data.drop 8).map shownChar ++ List.replicate (8 - (data.length - 8)) ' '

theorem shownColumn_oneLine (data : List UInt8) : OneLine (shownColumn data) := by
  have middle : OneLine [' '] := oneLine_of_all rfl
  exact ((((oneLine_shown _).append (oneLine_replicate _)).append middle).append
    (oneLine_shown _)).append (oneLine_replicate _)

/-- A row of up to sixteen bytes, with blanks for those it lacks. -/
def dumpRow (first : UInt8) (others : List UInt8) : Row where
  leading := blanks 0
  first := lowerHex first
  others := others.mapIdx fun k byte => (blanks (if k = 7 then 2 else 1), lowerHex byte)
  trailing := blanks (1 + 3 * (15 - others.length) + if others.length < 8 then 1 else 0)
  column := ⟨shownColumn (first :: others), shownColumn_oneLine (first :: others)⟩

/-- The rows of at most so many bytes. -/
def dumpRows : Nat → List UInt8 → List Row
  | _, [] => []
  | 0, _ => []
  | count + 1, first :: rest => dumpRow first (rest.take 15) :: dumpRows count (rest.drop 15)

def dump (data : List UInt8) : List Row :=
  dumpRows data.length data

theorem bytes_dumpRow (first : UInt8) (others : List UInt8) :
    (dumpRow first others).bytes = (first :: others).map lowerHex := by
  have shown : (others.mapIdx fun k byte =>
      (blanks (if k = 7 then 2 else 1), lowerHex byte)).map Prod.snd = others.map lowerHex := by
    apply List.ext_getElem?
    intro k
    simp [Function.comp_def]
  rw [Row.bytes, dumpRow, shown]
  rfl

theorem bytes_dumpRows (count : Nat) (data : List UInt8) (enough : data.length ≤ count) :
    (dumpRows count data).flatMap Row.bytes = data.map lowerHex := by
  induction count generalizing data with
  | zero =>
      rw [List.length_eq_zero_iff.mp (Nat.le_zero.mp enough)]
      rfl
  | succ count ih =>
      cases data with
      | nil => rfl
      | cons first rest =>
          have fewer : (rest.drop 15).length ≤ count := by
            rw [List.length_cons] at enough
            rw [List.length_drop]
            omega
          rw [dumpRows, List.flatMap_cons, bytes_dumpRow, ih _ fewer, List.map_cons,
            List.cons_append, ← List.map_append, List.take_append_drop, List.map_cons]

theorem prints_dump : Prints dump :=
  fun data => bytes_dumpRows data.length data le_rfl

/-- A reply to an invocation with two bytes as parameter `i`. -/
def replyWith (i : Fin vmsMaxParams) : SharedMessage :=
  { (default : SharedMessage) with
    callType := teeCallTypeInvokeFunc
    params := fun j => if j = i then ⟨teeParamAttrTypeMemrefOutput, 0, 2, 0⟩ else ⟨0, 0, 0, 0⟩
    payload := fun _ => 0x6b }

theorem readsBuffers_third : ReadsBuffers dump [bootShared (replyWith 2)] :=
  (readsBuffers_iff prints_dump _).mpr (by
    intro shared member _
    rw [List.mem_singleton.mp member]
    decide)

/-- Two replies with the output of the first as its fourth parameter. -/
theorem not_readsBuffers_fourth :
    Prints dump ∧
      ¬ ReadsBuffers dump [bootShared (replyWith 3), bootShared (replyWith 2)] :=
  ⟨prints_dump, not_readsBuffers_of_fourth List.mem_cons_self rfl (by decide)⟩

end Uc1Integration.Scripts
