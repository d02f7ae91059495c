import Mathlib.Data.List.Basic
import Uc1Integration.Build.Substitution
import Uc1Integration.Build.VmConfigs

/-!
# The build script

The commands of `uc1.sh` that build the PUF demos. They patch files of the
submodules in place and compile them; an image has the addresses its source
files hold when it is compiled. Files keep the lines that matter, and what does
not touch them (containers, the inserted keys, the hypervisor itself) is left
out.
-/

set_option autoImplicit false

namespace Uc1Integration.Build

abbrev File := List String

/-- `[[:space:]]`. -/
def isSpace (c : Char) : Bool :=
  c.isWhitespace || c.toNat == 11 || c.toNat == 12

def rest? (beginning : String) (text : List Char) : Option (List Char) :=
  if beginning.toList.isPrefixOf text then some (text.drop beginning.toList.length) else none

def spaces? : List Char → Option (List Char)
  | [] => none
  | c :: rest => if isSpace c then some (rest.dropWhile isSpace) else none

def digitValue (c : Char) : Nat :=
  if c.isDigit then c.toNat - 48 else (c.toLower.toNat - 97) + 10

def isDigitOf (base : Nat) (c : Char) : Bool :=
  (c.isDigit || (97 ≤ c.toLower.toNat && c.toLower.toNat ≤ 102)) && digitValue c < base

def numeral (base : Nat) (text : List Char) : Nat :=
  (text.takeWhile (isDigitOf base)).foldl (fun value c => base * value + digitValue c) 0

/-- An integer constant, up to its suffix. -/
def addr? (text : List Char) : Option Nat :=
  match text.dropWhile isSpace with
  | '0' :: c :: rest =>
      if c = 'x' ∨ c = 'X' then some (numeral 16 rest) else some (numeral 8 (c :: rest))
  | c :: rest => if c.isDigit then some (numeral 10 (c :: rest)) else none
  | [] => none

/-- The text `VMS_IPC_BASE` is defined as. -/
def ipcBaseText? (line : String) : Option (List Char) :=
  (((rest? "#define" line.toList).bind spaces?).bind (rest? "VMS_IPC_BASE")).bind spaces?

/-- `^#define[[:space:]]+VMS_IPC_BASE[[:space:]]+.*$`. -/
def spacedPattern (line : String) : Bool :=
  (ipcBaseText? line).isSome

/-- `^#define VMS_IPC_BASE.*`. -/
def plainPattern (line : String) : Bool :=
  (rest? "#define VMS_IPC_BASE" line.toList).isSome

def sectionText? (name line : String) : Option (List Char) :=
  rest? name line.toList

def activationCodeName : String := ".activation_code "

def keyCodeName : String := ".key_code "

/-- `^\.activation_code .*` and `^\.key_code .*`. -/
def sectionPattern (name line : String) : Bool :=
  (sectionText? name line).isSome

/-- The address `VMS_IPC_BASE` has in a compilation. -/
def ipcBase (file : File) : Option Nat :=
  (file.findSome? ipcBaseText?).bind addr?

def sectionAddr (name : String) (file : File) : Option Nat :=
  (file.findSome? (sectionText? name)).bind addr?

/-- The patched files: `crosscon_hv_config.h` of the two PUF applications, and
`linker_puf_sections.ld` of the second. -/
structure Tree where
  vm0Config : File
  vm1Config : File
  linkerScript : File

inductive App where
  | tlsClient
  | pufVm0
  | pufVm1
  deriving DecidableEq, Repr

structure CryptAddrs where
  activationCode : Option Nat
  keyCode : Option Nat
  deriving DecidableEq, Repr

/-- An image of a virtual machine; only the PUF VM has the sections. -/
structure Image where
  app : App
  hvConfig : HvConfig
  ipcBase : Option Nat
  crypt : Option CryptAddrs
  deriving DecidableEq, Repr

structure State where
  tree : Tree
  images : List Image

abbrev Step := State → State

/-- The header of the TLS client, which no command patches. -/
def tlsClientConfig : File :=
  ["#define VMS_IPC_BASE                    0x20020000UL"]

def Tree.cryptAddrs (tree : Tree) : CryptAddrs :=
  ⟨sectionAddr activationCodeName tree.linkerScript, sectionAddr keyCodeName tree.linkerScript⟩

def compile (hvConfig : HvConfig) (app : App) (tree : Tree) : Image :=
  match app with
  | .tlsClient => ⟨app, hvConfig, ipcBase tlsClientConfig, none⟩
  | .pufVm0 => ⟨app, hvConfig, ipcBase tree.vm0Config, none⟩
  | .pufVm1 => ⟨app, hvConfig, ipcBase tree.vm1Config, some tree.cryptAddrs⟩

/-- `west build`, and the copy of the image to the output directory. -/
def build (hvConfig : HvConfig) (app : App) : Step := fun state =>
  { state with images := state.images ++ [compile hvConfig app state.tree] }

def patchVm0Config (pattern : String → Bool) (line : String) : Step := fun state =>
  { state with
    tree := { state.tree with vm0Config := substitute pattern line state.tree.vm0Config } }

def patchVm1Config (pattern : String → Bool) (line : String) : Step := fun state =>
  { state with
    tree := { state.tree with vm1Config := substitute pattern line state.tree.vm1Config } }

def HvConfig.activationCodeLine : HvConfig → String
  | .configMtlsPufVms => ".activation_code 0x00047AEC : ALIGN(4)"
  | .pufIntegrationWithoutWifi => ".activation_code 0x00070000 : ALIGN(4)"

def HvConfig.keyCodeLine : HvConfig → String
  | .configMtlsPufVms => ".key_code 0x00047F9C : ALIGN(4)"
  | .pufIntegrationWithoutWifi => ".key_code 0x00070500 : ALIGN(4)"

def HvConfig.ipcBaseLine : HvConfig → String
  | .configMtlsPufVms => "#define VMS_IPC_BASE                    0x20020000UL"
  | .pufIntegrationWithoutWifi => "#define VMS_IPC_BASE                    0x20027000UL"

def updateCryptAddr (hvConfig : HvConfig) : Step := fun state =>
  { state with
    tree :=
      { state.tree with
        linkerScript :=
          substitute (sectionPattern keyCodeName) hvConfig.keyCodeLine
            (substitute (sectionPattern activationCodeName) hvConfig.activationCodeLine
              state.tree.linkerScript) } }

def updateIpcAddr (hvConfig : HvConfig) : Step :=
  patchVm1Config plainPattern hvConfig.ipcBaseLine

def buildPufVms (hvConfig : HvConfig) : List Step :=
  [patchVm0Config spacedPattern "#define VMS_IPC_BASE        0x20027000UL",
    build hvConfig .pufVm0,
    patchVm1Config spacedPattern "#define VMS_IPC_BASE        0x20027000UL",
    build hvConfig .pufVm1]

inductive Command where
  | buildPuf
  | buildMtlsPuf
  deriving DecidableEq, Repr

def Command.hvConfig : Command → HvConfig
  | .buildPuf => .pufIntegrationWithoutWifi
  | .buildMtlsPuf => .configMtlsPufVms

def Command.steps (command : Command) : List Step :=
  match command with
  | .buildPuf =>
      buildPufVms command.hvConfig ++
      [updateCryptAddr command.hvConfig, updateIpcAddr command.hvConfig]
  | .buildMtlsPuf =>
      [build command.hvConfig .tlsClient,
        patchVm1Config plainPattern "#define VMS_IPC_BASE        0x20020000UL",
        updateCryptAddr command.hvConfig,
        updateIpcAddr command.hvConfig,
        build command.hvConfig .pufVm1]

/-- A command, and how many of its steps it takes before a container fails. -/
structure Run where
  command : Command
  count : Nat
  deriving DecidableEq, Repr

def Run.execute (run : Run) (state : State) : State :=
  (run.command.steps.take run.count).foldl (fun state step => step state) state

def executeAll (runs : List Run) (state : State) : State :=
  runs.foldl (fun state run => run.execute state) state

end Uc1Integration.Build
