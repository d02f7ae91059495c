import Uc1Integration.Text.Python

/-!
# The converter of logged PUF output

`resources/scripts/cnvrt_puf_output.py`: the hex blocks of a log and the command
that hands them to the proof verifier. A file is the text it decodes to.
-/

set_option autoImplicit false

namespace Uc1Integration.Scripts

open Text

abbrev Str := List Char

/-!
## Reading the blocks
-/

def memrefHeader : Str := "MEMREF Output data:".toList

def paramStart : Str := "Param[".toList

/-- The variables of `parse_hex_blocks` between two lines of the file. -/
structure Reading where
  blocks : List Str
  currentBlock : List Str
  readingBlock : Bool
  deriving DecidableEq, Repr

/-- The `if current_block` body: the joined block is stored, and a new one begun. -/
def Reading.store (state : Reading) : Reading :=
  if state.currentBlock.isEmpty then state
  else { state with
    blocks := state.blocks ++ [state.currentBlock.flatten]
    currentBlock := [] }

/-- The body of `if reading_block and current_block`. -/
def Reading.flush (state : Reading) : Reading :=
  if state.readingBlock then state.store else state

def parseLine (state : Reading) (text : Str) : Reading :=
  let line := strip text
  if memrefHeader.isPrefixOf line then
    { state.flush with readingBlock := true }
  else if state.readingBlock then
    if paramStart.isPrefixOf line || line.isEmpty then
      { state.store with readingBlock := false }
    else
      let hexPart := (line.splitOn '|').headD []
      let hexBytes := split hexPart
      { state with currentBlock := state.currentBlock ++ [hexBytes.flatten] }
  else state

def parseLines (state : Reading) (lines : List Str) : Reading :=
  lines.foldl parseLine state

def parseHexBlocks (file : Str) : List Str :=
  (parseLines ⟨[], [], false⟩ (fileLines (universalNewlines file))).flush.blocks

/-!
## Building the command
-/

def paramNames : List Str :=
  ["-gx".toList, "-gy".toList, "-hx".toList, "-hy".toList, "-COMx".toList, "-COMy".toList,
    "-Px".toList, "-Py".toList, "-v".toList, "-w".toList]

def staticN : Str :=
  "0X8899AABBCCDDEEFF00112233445566778899AABBCCDDEEFF0011223344556677".toList ++
    "8899AABBCCDDEEFF00112233445566778899AABBCCDDEEFF0011223344556677".toList

def baseCmd : Str :=
  "docker run -it -v $(pwd)/puf_vm1/scripts/proofs/:/mnt sagemath/sagemath sage ".toList ++
    "/mnt/proof_verifier_calc.sage \\".toList

def paramLine (param hexdata : Str) : Str :=
  param ++ " 0x".toList ++ hexdata ++ " \\".toList

/-- `sys.exit` with what was printed before it. -/
structure Exit where
  message : Str
  status : Nat
  deriving DecidableEq, Repr

def buildCommand (blocks : List Str) : Except Exit Str :=
  if blocks.length < paramNames.length then
    .error
      { message :=
          "Error: Expected at least ".toList ++ (toString paramNames.length).toList ++
            " hex blocks but got ".toList ++ (toString blocks.length).toList
        status := 1 }
  else
    let lines := List.zipWith paramLine paramNames blocks ++ ["-n ".toList ++ staticN]
    .ok (baseCmd ++ ['\n'] ++ ['\n'].intercalate lines)

end Uc1Integration.Scripts
