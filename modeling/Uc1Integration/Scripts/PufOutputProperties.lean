import Uc1Integration.Scripts.PufOutput

/-!
# Properties of the converter of logged PUF output

The log that prints a list of byte blocks, and that the converter reads from it the
blocks it prints.
-/

set_option autoImplicit false

namespace Uc1Integration.Scripts

open Text

/-!
## The printed log
-/

def OneLine (text : Str) : Prop :=
  '\n' ∉ text ∧ '\r' ∉ text

theorem OneLine.append {front back : Str} (inFront : OneLine front) (behind : OneLine back) :
    OneLine (front ++ back) := by
  constructor
  · exact List.not_mem_append inFront.1 behind.1
  · exact List.not_mem_append inFront.2 behind.2

/-- Text that follows on its line: a text column, the rest of a header. -/
structure Tail where
  text : Str
  oneLine : OneLine text

structure Blanks where
  text : Str
  blank : ∀ c ∈ text, isSpace c = true
  oneLine : OneLine text

/-- A byte in two hex digits, each in either case. -/
structure HexByte where
  byte : UInt8
  highUpper : Bool
  lowUpper : Bool

def hexDigit (upper : Bool) (value : Nat) : Char :=
  if upper then (Nat.digitChar value).toUpper else Nat.digitChar value

def HexByte.digits (shown : HexByte) : Str :=
  [hexDigit shown.highUpper (shown.byte.toNat / 16),
    hexDigit shown.lowUpper (shown.byte.toNat % 16)]

def hexString (bytes : List HexByte) : Str :=
  bytes.flatMap HexByte.digits

/-- A row of at least one byte: each further one behind the blanks that part it from
the one before. -/
structure Row where
  leading : Blanks
  first : HexByte
  others : List (Blanks × HexByte)
  trailing : Blanks
  column : Tail

def Row.bytes (row : Row) : List HexByte :=
  row.first :: row.others.map Prod.snd

def Row.hexPart (row : Row) : Str :=
  row.first.digits ++ row.others.flatMap fun other => other.1.text ++ other.2.digits

def Row.line (row : Row) : Str :=
  row.leading.text ++ (row.hexPart ++ row.trailing.text ++ ['|'] ++ row.column.text)

inductive Closing where
  | param (rest : Tail)
  | blank (blanks : Blanks)

def Closing.line : Closing → Str
  | .param rest => paramStart ++ rest.text
  | .blank blanks => blanks.text

structure PrintedBlock where
  header : Tail
  row : Row
  rows : List Row
  closing : List Closing

def PrintedBlock.bytes (block : PrintedBlock) : List HexByte :=
  (block.row :: block.rows).flatMap Row.bytes

def PrintedBlock.lines (block : PrintedBlock) : List Str :=
  (memrefHeader ++ block.header.text) ::
    ((block.row :: block.rows).map Row.line ++ block.closing.map Closing.line)

def logLines (printed : List PrintedBlock) : List Str :=
  printed.flatMap PrintedBlock.lines

def printLog (printed : List PrintedBlock) : Str :=
  (logLines printed).flatMap (· ++ ['\n'])

/-!
## The characters of a row
-/

/-- What a hex digit is to the converter. -/
structure Plain (c : Char) : Prop where
  solid : isSpace c = false
  noBar : c ≠ '|'
  noHeader : c ≠ 'M'
  noParam : c ≠ 'P'

theorem hexDigit_plain (upper : Bool) {value : Nat} (bound : value < 16) :
    Plain (hexDigit upper value) := by
  have digits : ∀ upper, ∀ value < 16, isSpace (hexDigit upper value) = false ∧
      hexDigit upper value ≠ '|' ∧ hexDigit upper value ≠ 'M' ∧ hexDigit upper value ≠ 'P' := by
    decide
  obtain ⟨solid, noBar, noHeader, noParam⟩ := digits upper value bound
  exact ⟨solid, noBar, noHeader, noParam⟩

theorem HexByte.digits_plain (shown : HexByte) : ∀ c ∈ shown.digits, Plain c := by
  have bound : shown.byte.toNat < 256 := shown.byte.toNat_lt
  intro c member
  rcases List.mem_cons.mp member with rfl | member
  · exact hexDigit_plain _ (by omega)
  · rw [List.mem_singleton.mp member]
    exact hexDigit_plain _ (by omega)

theorem oneLine_of_solid {text : Str} (solid : ∀ c ∈ text, isSpace c = false) : OneLine text :=
  ⟨fun member => absurd (solid _ member) (by decide),
    fun member => absurd (solid _ member) (by decide)⟩

theorem Blanks.noBar (blanks : Blanks) : '|' ∉ blanks.text :=
  fun member => absurd (blanks.blank _ member) (by decide)

theorem HexByte.noBar (shown : HexByte) : '|' ∉ shown.digits :=
  fun member => (shown.digits_plain _ member).noBar rfl

theorem HexByte.oneLine (shown : HexByte) : OneLine shown.digits :=
  oneLine_of_solid fun c member => (shown.digits_plain c member).solid

theorem Row.noBar (row : Row) : '|' ∉ row.hexPart ++ row.trailing.text := by
  intro member
  rcases List.mem_append.mp member with inHex | inTrailing
  · rcases List.mem_append.mp inHex with inFirst | inOthers
    · exact row.first.noBar inFirst
    · obtain ⟨other, -, inOther⟩ := List.mem_flatMap.mp inOthers
      rcases List.mem_append.mp inOther with inBlanks | inDigits
      · exact other.1.noBar inBlanks
      · exact other.2.noBar inDigits
  · exact row.trailing.noBar inTrailing

theorem Row.oneLine (row : Row) : OneLine row.line := by
  have others : OneLine (row.others.flatMap fun other => other.1.text ++ other.2.digits) := by
    induction row.others with
    | nil => exact ⟨List.not_mem_nil, List.not_mem_nil⟩
    | cons other others ih =>
        rw [List.flatMap_cons]
        exact (other.1.oneLine.append other.2.oneLine).append ih
  have bar : OneLine ['|'] := by constructor <;> decide
  exact row.leading.oneLine.append
    ((((row.first.oneLine.append others).append row.trailing.oneLine).append bar).append
      row.column.oneLine)

theorem Blanks.filter (blanks : Blanks) : blanks.text.filter (fun c => !isSpace c) = [] := by
  rw [List.filter_eq_nil_iff]
  intro c member
  rw [blanks.blank c member]
  decide

theorem HexByte.filter (shown : HexByte) :
    shown.digits.filter (fun c => !isSpace c) = shown.digits := by
  rw [List.filter_eq_self]
  intro c member
  rw [(shown.digits_plain c member).solid]
  rfl

/-- Without its spaces the hex column is the hex string of the row's bytes. -/
theorem Row.filter_hexPart (row : Row) :
    (row.hexPart ++ row.trailing.text).filter (fun c => !isSpace c) = hexString row.bytes := by
  have others : (row.others.flatMap fun other => other.1.text ++ other.2.digits).filter
      (fun c => !isSpace c) = hexString (row.others.map Prod.snd) := by
    induction row.others with
    | nil => rfl
    | cons other others ih =>
        rw [List.flatMap_cons, List.filter_append, List.filter_append, other.1.filter,
          other.2.filter, ih, List.nil_append]
        rfl
  rw [Row.hexPart, List.filter_append, List.filter_append, row.first.filter, others,
    row.trailing.filter, List.append_nil]
  rfl

theorem Row.strip_line (row : Row) :
    strip row.line =
      row.hexPart ++ row.trailing.text ++ '|' :: row.column.text.rdropWhile isSpace := by
  have isSolid : Solid (row.hexPart ++ row.trailing.text ++ ['|']) := by
    constructor
    · have begins := (row.first.digits_plain _ List.mem_cons_self).solid
      simpa [Row.hexPart, HexByte.digits] using begins
    · rw [List.getLast?_concat]
      decide
  rw [Row.line, strip_solid row.leading.blank isSolid, List.append_assoc _ ['|'],
    List.singleton_append]

/-!
## One line
-/

theorem not_isPrefixOf {first c : Char} (differs : c ≠ first) (keyword rest : Str) :
    (first :: keyword).isPrefixOf (c :: rest) = false := by
  rw [List.isPrefixOf_cons_cons, beq_eq_false_iff_ne.mpr differs.symm, Bool.false_and]

theorem parseLine_newline (state : Reading) (line : Str) :
    parseLine state (line ++ ['\n']) = parseLine state line := by
  have newline : ∀ c ∈ ['\n'], isSpace c = true := List.all_eq_true.mp rfl
  rw [parseLine, parseLine, strip_append_spaces newline]

theorem parseLine_row (row : Row) (blocks current : List Str) :
    parseLine ⟨blocks, current, true⟩ row.line =
      ⟨blocks, current ++ [hexString row.bytes], true⟩ := by
  have plain := row.first.digits_plain _ List.mem_cons_self
  have noHeader : memrefHeader.isPrefixOf (strip row.line) = false := by
    rw [row.strip_line]
    exact not_isPrefixOf plain.noHeader _ _
  have noParam : paramStart.isPrefixOf (strip row.line) = false := by
    rw [row.strip_line]
    exact not_isPrefixOf plain.noParam _ _
  have isText : (strip row.line).isEmpty = false := by
    rw [row.strip_line]
    rfl
  have hexBytes : (split (((strip row.line).splitOn '|').headD [])).flatten =
      hexString row.bytes := by
    rw [row.strip_line, head_splitOn row.noBar, flatten_split, row.filter_hexPart]
  simpa [parseLine, noHeader, noParam, isText] using hexBytes

/-- What has been read is `blocks`, whether or not the last one has been stored. -/
def Holds (blocks : List Str) (state : Reading) : Prop :=
  state.flush = { blocks, currentBlock := [], readingBlock := state.readingBlock }

theorem parseLine_header {blocks : List Str} {state : Reading} (holds : Holds blocks state)
    (rest : Tail) : parseLine state (memrefHeader ++ rest.text) = ⟨blocks, [], true⟩ := by
  have isSolid : Solid memrefHeader := by decide
  have stripped := strip_solid (fun c member => absurd member List.not_mem_nil) isSolid rest.text
  have isHeader : memrefHeader.isPrefixOf (strip (memrefHeader ++ rest.text)) = true := by
    rw [← List.nil_append (memrefHeader ++ rest.text), stripped, List.isPrefixOf_iff_prefix]
    exact List.prefix_append _ _
  rw [parseLine, if_pos isHeader, holds]

theorem closing_starts (closing : Closing) :
    memrefHeader.isPrefixOf (strip closing.line) = false ∧
      (paramStart.isPrefixOf (strip closing.line) || (strip closing.line).isEmpty) = true := by
  cases closing with
  | blank blanks =>
      rw [Closing.line, strip_spaces blanks.blank]
      exact ⟨rfl, rfl⟩
  | param rest =>
      have isSolid : Solid paramStart := by decide
      have stripped :=
        strip_solid (fun c member => absurd member List.not_mem_nil) isSolid rest.text
      rw [List.nil_append] at stripped
      have isParam : paramStart.isPrefixOf (strip (paramStart ++ rest.text)) = true := by
        rw [stripped, List.isPrefixOf_iff_prefix]
        exact List.prefix_append _ _
      rw [Closing.line, isParam, stripped]
      exact ⟨rfl, rfl⟩

/-- A line after the rows changes nothing of what has been read. -/
theorem parseLine_closing {blocks : List Str} {state : Reading} (holds : Holds blocks state)
    (closing : Closing) : parseLine state closing.line = ⟨blocks, [], false⟩ := by
  obtain ⟨noHeader, closes⟩ := closing_starts closing
  cases reading : state.readingBlock with
  | false =>
      have same : state = ⟨blocks, [], false⟩ := by
        simpa [Holds, Reading.flush, reading] using holds
      simp [parseLine, noHeader, same]
  | true =>
      have stored : state.store = ⟨blocks, [], true⟩ := by
        simpa [Holds, Reading.flush, reading] using holds
      simp only [parseLine, noHeader, reading, closes, stored]
      rfl

/-!
## The whole log
-/

theorem parseLines_append (state : Reading) (front behind : List Str) :
    parseLines state (front ++ behind) = parseLines (parseLines state front) behind :=
  List.foldl_append

theorem parseLines_rows (rows : List Row) (blocks current : List Str) :
    parseLines ⟨blocks, current, true⟩ (rows.map Row.line) =
      ⟨blocks, current ++ rows.map fun row => hexString row.bytes, true⟩ := by
  induction rows generalizing current with
  | nil => rw [List.map_nil, List.map_nil, List.append_nil]; rfl
  | cons row rows ih =>
      have step : parseLines ⟨blocks, current, true⟩ ((row :: rows).map Row.line) =
          parseLines (parseLine ⟨blocks, current, true⟩ row.line) (rows.map Row.line) := rfl
      rw [step, parseLine_row, ih, List.map_cons, List.append_assoc, List.singleton_append]

theorem parseLines_closing {blocks : List Str} (closing : List Closing) :
    ∀ {state : Reading}, Holds blocks state →
      Holds blocks (parseLines state (closing.map Closing.line)) := by
  induction closing with
  | nil => exact fun holds => holds
  | cons line closing ih =>
      intro state holds
      have closed : Holds blocks (parseLine state line.line) := by
        rw [parseLine_closing holds line]
        rfl
      exact ih closed

theorem hexString_flatMap (rows : List Row) :
    hexString (rows.flatMap Row.bytes) = (rows.map fun row => hexString row.bytes).flatten := by
  rw [hexString, List.flatMap_assoc, List.flatMap_def]
  rfl

theorem parseLines_block {blocks : List Str} {state : Reading} (holds : Holds blocks state)
    (block : PrintedBlock) :
    Holds (blocks ++ [hexString block.bytes]) (parseLines state block.lines) := by
  have header : parseLines state block.lines =
      parseLines (parseLine state (memrefHeader ++ block.header.text))
        ((block.row :: block.rows).map Row.line ++ block.closing.map Closing.line) := rfl
  rw [header, parseLine_header holds, parseLines_append, parseLines_rows]
  apply parseLines_closing
  -- At least one row was read, so the block is stored when it is closed.
  rw [Holds, Reading.flush, if_pos rfl, Reading.store, if_neg (by simp), List.nil_append,
    ← hexString_flatMap]
  rfl

theorem parseLines_log {blocks : List Str} (printed : List PrintedBlock) {state : Reading}
    (holds : Holds blocks state) :
    Holds (blocks ++ printed.map fun block => hexString block.bytes)
      (parseLines state (logLines printed)) := by
  induction printed generalizing blocks state with
  | nil =>
      rw [List.map_nil, List.append_nil]
      exact holds
  | cons block printed ih =>
      have step : logLines (block :: printed) = block.lines ++ logLines printed := rfl
      rw [step, parseLines_append, List.map_cons, ← List.singleton_append, ← List.append_assoc]
      exact ih (parseLines_block holds block)

theorem parseLines_newlines (state : Reading) (lines : List Str) :
    parseLines state (lines.map (· ++ ['\n'])) = parseLines state lines := by
  induction lines generalizing state with
  | nil => rfl
  | cons line lines ih =>
      have step : parseLines state ((line :: lines).map (· ++ ['\n'])) =
          parseLines (parseLine state (line ++ ['\n'])) (lines.map (· ++ ['\n'])) := rfl
      rw [step, parseLine_newline, ih]
      rfl

theorem Closing.oneLine (closing : Closing) : OneLine closing.line := by
  cases closing with
  | param rest =>
      have start : OneLine paramStart := by constructor <;> decide
      exact start.append rest.oneLine
  | blank blanks => exact blanks.oneLine

theorem PrintedBlock.oneLine (block : PrintedBlock) : ∀ line ∈ block.lines, OneLine line := by
  intro line member
  rcases List.mem_cons.mp member with rfl | member
  · have start : OneLine memrefHeader := by constructor <;> decide
    exact start.append block.header.oneLine
  · rcases List.mem_append.mp member with inRows | inClosing
    · obtain ⟨row, -, rfl⟩ := List.mem_map.mp inRows
      exact row.oneLine
    · obtain ⟨closing, -, rfl⟩ := List.mem_map.mp inClosing
      exact closing.oneLine

theorem oneLine_of_logLines (printed : List PrintedBlock) :
    ∀ line ∈ logLines printed, OneLine line := by
  intro line member
  obtain ⟨block, -, inBlock⟩ := List.mem_flatMap.mp member
  exact block.oneLine line inBlock

theorem noReturn_unlines {lines : List Str} (inside : ∀ line ∈ lines, OneLine line) :
    '\r' ∉ lines.flatMap (· ++ ['\n']) := by
  intro member
  obtain ⟨line, inLines, inLine⟩ := List.mem_flatMap.mp member
  rcases List.mem_append.mp inLine with inLine | inEnd
  · exact (inside line inLines).2 inLine
  · exact absurd inEnd (by decide)

/-- A file is read line by line. -/
theorem parseHexBlocks_unlines {lines : List Str} (inside : ∀ line ∈ lines, OneLine line) :
    parseHexBlocks (lines.flatMap (· ++ ['\n'])) =
      (parseLines ⟨[], [], false⟩ lines).flush.blocks := by
  rw [parseHexBlocks, universalNewlines, translate_of_not_mem (noReturn_unlines inside),
    fileLines_unlines fun line member => (inside line member).1, parseLines_newlines]

theorem noReturn_printLog (printed : List PrintedBlock) : '\r' ∉ printLog printed :=
  noReturn_unlines (oneLine_of_logLines printed)

theorem parseHexBlocks_printLog (printed : List PrintedBlock) :
    parseHexBlocks (printLog printed) = printed.map fun block => hexString block.bytes := by
  have start : Holds [] ⟨[], [], false⟩ := rfl
  have read : Holds _ _ := parseLines_log printed start
  rw [printLog, parseHexBlocks_unlines (oneLine_of_logLines printed), read, List.nil_append]

/-- An empty line at the end of the file stores a block that its end would store. -/
theorem flush_parseLine_newline (state : Reading) :
    (parseLine state ['\n']).flush.blocks = state.flush.blocks := by
  have noHeader : memrefHeader.isPrefixOf (strip ['\n']) = false := rfl
  have closes : (paramStart.isPrefixOf (strip ['\n']) || (strip ['\n']).isEmpty) = true := rfl
  cases reading : state.readingBlock with
  | false => simp [parseLine, noHeader, reading]
  | true => simp [parseLine, noHeader, closes, reading, Reading.flush]

/-- The newline of the last line may be missing. -/
theorem parseHexBlocks_concat {file : Str} (noReturn : '\r' ∉ file) :
    parseHexBlocks (file ++ ['\n']) = parseHexBlocks file := by
  have noReturns : '\r' ∉ file ++ ['\n'] := List.not_mem_append noReturn (by decide)
  rw [parseHexBlocks, parseHexBlocks, universalNewlines, universalNewlines,
    translate_of_not_mem noReturn, translate_of_not_mem noReturns]
  rcases fileLines_concat file with apart | ⟨earlier, last, before, behind⟩
  · rw [apart, parseLines_append]
    exact flush_parseLine_newline _
  · have ended : ∀ state, parseLines state [last ++ ['\n']] = parseLines state [last] :=
      fun state => parseLine_newline state last
    rw [before, behind, parseLines_append, parseLines_append, ended]

theorem parseHexBlocks_log {printed : List PrintedBlock} {file : Str}
    (written : file = printLog printed ∨ file ++ ['\n'] = printLog printed) :
    parseHexBlocks file = printed.map fun block => hexString block.bytes := by
  rcases written with rfl | unended
  · exact parseHexBlocks_printLog printed
  · have noReturn : '\r' ∉ file := fun member =>
      noReturn_printLog printed (unended ▸ List.mem_append_left _ member)
    rw [← parseHexBlocks_concat noReturn, unended, parseHexBlocks_printLog]

/-!
## The command
-/

theorem paramNames_oneLine : ∀ name ∈ paramNames, '\n' ∉ name := by
  decide

theorem baseCmd_oneLine : '\n' ∉ baseCmd :=
  List.not_mem_append (by decide) (by decide)

theorem staticN_oneLine : '\n' ∉ staticN :=
  List.not_mem_append (by decide) (by decide)

theorem hexString_oneLine (bytes : List HexByte) : '\n' ∉ hexString bytes := by
  intro member
  obtain ⟨shown, -, inDigits⟩ := List.mem_flatMap.mp member
  exact shown.oneLine.1 inDigits

theorem paramLine_oneLine {name hexdata : Str} (inName : '\n' ∉ name)
    (inData : '\n' ∉ hexdata) : '\n' ∉ paramLine name hexdata := by
  have apart : '\n' ∉ " 0x".toList := by decide
  have continued : '\n' ∉ " \\".toList := by decide
  exact List.not_mem_append
    (List.not_mem_append (List.not_mem_append inName apart) inData) continued

theorem mem_zipWith_paramLine {names blocks : List Str} {line : Str}
    (member : line ∈ List.zipWith paramLine names blocks) :
    ∃ name ∈ names, ∃ block ∈ blocks, line = paramLine name block := by
  rw [← List.map_uncurry_zip_eq_zipWith] at member
  obtain ⟨⟨name, block⟩, inZip, rfl⟩ := List.mem_map.mp member
  obtain ⟨inNames, inBlocks⟩ := List.of_mem_zip inZip
  exact ⟨name, inNames, block, inBlocks, rfl⟩

/-- The command of at least ten blocks, line by line. -/
theorem lines_buildCommand {blocks : List Str} (enough : paramNames.length ≤ blocks.length)
    (oneLine : ∀ block ∈ blocks, '\n' ∉ block) :
    ∃ command, buildCommand blocks = .ok command ∧
      command.splitOn '\n' =
        baseCmd :: (List.zipWith paramLine paramNames blocks ++ ["-n ".toList ++ staticN]) := by
  refine ⟨_, if_neg enough.not_gt, ?_⟩
  rw [← List.intercalate_cons_of_ne_nil (List.concat_ne_nil _ _)]
  refine List.splitOn_intercalate _ ?_ (List.cons_ne_nil _ _)
  intro line member
  rcases List.mem_cons.mp member with rfl | member
  · exact baseCmd_oneLine
  · rcases List.mem_append.mp member with inLines | inLast
    · obtain ⟨name, inNames, block, inBlocks, rfl⟩ := mem_zipWith_paramLine inLines
      exact paramLine_oneLine (paramNames_oneLine name inNames) (oneLine block inBlocks)
    · rw [List.mem_singleton.mp inLast]
      exact List.not_mem_append (by decide) staticN_oneLine

/-- The converter reads from a log of at least ten blocks exactly these blocks, and its
command has the `i`-th of the first ten on the line of the `i`-th parameter. -/
theorem parameters_of_log {blocks : List (List HexByte)} {printed : List PrintedBlock} {file : Str}
    (enough : 10 ≤ blocks.length) (prints : printed.map PrintedBlock.bytes = blocks)
    (written : file = printLog printed ∨ file ++ ['\n'] = printLog printed) :
    parseHexBlocks file = blocks.map hexString ∧
      ∃ command, buildCommand (parseHexBlocks file) = .ok command ∧
        (command.splitOn '\n').length = 12 ∧
        ∀ i name block, paramNames[i]? = some name → blocks[i]? = some block →
          (command.splitOn '\n')[i + 1]? =
            some (name ++ " 0x".toList ++ hexString block ++ " \\".toList) := by
  have parsed : parseHexBlocks file = blocks.map hexString := by
    rw [parseHexBlocks_log written, ← prints, List.map_map]
    rfl
  have oneLine : ∀ block ∈ blocks.map hexString, '\n' ∉ block := by
    intro block member
    obtain ⟨bytes, -, rfl⟩ := List.mem_map.mp member
    exact hexString_oneLine bytes
  have enoughTexts : paramNames.length ≤ (blocks.map hexString).length := by
    rw [List.length_map]
    exact enough
  obtain ⟨command, built, lines⟩ := lines_buildCommand enoughTexts oneLine
  refine ⟨parsed, command, by rw [parsed, built], ?_, ?_⟩
  · rw [lines, List.length_cons, List.length_append, List.length_zipWith, min_eq_left enoughTexts]
    rfl
  · intro i name block isName isBlock
    have isLine : (List.zipWith paramLine paramNames (blocks.map hexString))[i]? =
        some (paramLine name (hexString block)) := by
      rw [List.getElem?_zipWith, isName, List.getElem?_map, isBlock]
      rfl
    rw [lines, List.getElem?_cons_succ, List.getElem?_append_left
      (List.getElem?_eq_some_iff.mp isLine).1, isLine]
    rfl

theorem twoBlanks_blank : ∀ c ∈ "  ".toList, isSpace c = true :=
  List.all_eq_true.mp rfl

theorem twoBlanks_oneLine : OneLine "  ".toList := by
  constructor <;> decide

def twoBlanks : Blanks :=
  ⟨"  ".toList, twoBlanks_blank, twoBlanks_oneLine⟩

theorem barredColumn_oneLine : OneLine "k.| Param[".toList := by
  constructor <;> decide

def barredColumn : Tail :=
  ⟨"k.| Param[".toList, barredColumn_oneLine⟩

def sampleRow : Row where
  leading := twoBlanks
  first := ⟨0x6b, false, false⟩
  others := [(twoBlanks, ⟨0x17, false, false⟩), (twoBlanks, ⟨0xd1, false, true⟩)]
  trailing := twoBlanks
  column := barredColumn

/-- Ten blocks of two rows: every other one is closed by the header after it. -/
def sampleLog : List PrintedBlock :=
  (List.range 10).map fun i =>
    { header := barredColumn
      row := sampleRow
      rows := [sampleRow]
      closing := if i % 2 = 0 then [.param barredColumn, .blank twoBlanks] else [] }

theorem parameters_of_sampleLog :
    parseHexBlocks (printLog sampleLog) = (sampleLog.map PrintedBlock.bytes).map hexString ∧
      ∃ command, buildCommand (parseHexBlocks (printLog sampleLog)) = .ok command ∧
        (command.splitOn '\n').length = 12 ∧
        ∀ i name block, paramNames[i]? = some name →
          (sampleLog.map PrintedBlock.bytes)[i]? = some block →
          (command.splitOn '\n')[i + 1]? =
            some (name ++ " 0x".toList ++ hexString block ++ " \\".toList) :=
  parameters_of_log (by decide) rfl (.inl rfl)

end Uc1Integration.Scripts
