import Mathlib.Data.List.Infix
import Uc1Integration.Build.Uc1

/-!
# The entry points in the hypervisor's configuration

`build_zephyr` and `build_puf_vms` take the address of `__start` from what `nm` prints,
and `build_hv` puts it into the configuration as text. Of a configuration only the lines
of the entry points matter.
-/

set_option autoImplicit false

namespace Uc1Integration.Build

/-- `%08x`. -/
def padded (value : Nat) : List Char :=
  (Nat.toDigits 16 value).leftpad 8 '0'

/-- What `awk` prints of the line of `nm` with the symbol `__start`. -/
def nmText (start : Nat) : List Char :=
  padded start

/-- `printf '0x%08x\n' $((0x$start_address_hex - 1))`, with the shell's 64 bits. -/
def vmStart (startAddressHex : List Char) : List Char :=
  '0' :: 'x' :: padded (((numeral 16 startAddressHex : Int) - 1) % 0x10000000000000000).toNat

/-- `s/old/new/` on a line. -/
def replaceFirst (old new : List Char) : List Char → List Char
  | [] => []
  | c :: line =>
      if old.isPrefixOf (c :: line) then new ++ (c :: line).drop old.length
      else c :: replaceFirst old new line

/-- The files `build_hv` chooses from. -/
inductive ConfigFile where
  | configSingleVmBm
  | configSingleVmZephyr
  | config
  | configMtlsPufVms
  | pufIntegrationWithoutWifi

def entryField : List Char :=
  "    .entry = ".toList

def vm0Entry : List Char :=
  "@@ZEPHYR_VM0_ENTRY@@".toList

def vm1Entry : List Char :=
  "@@ZEPHYR_VM1_ENTRY@@".toList

/-- The lines of the entry points, in the order of the machines. -/
def ConfigFile.entryLines : ConfigFile → List (List Char)
  | .configSingleVmBm => ["    .entry = 0x00020000,".toList]
  | .configSingleVmZephyr => ["    .entry = @@ZEPHYR_VM1_ENTRY@@,".toList]
  | .config => ["    .entry = 0x00020000,".toList, "    .entry = @@ZEPHYR_VM1_ENTRY@@,".toList]
  | .configMtlsPufVms | .pufIntegrationWithoutWifi =>
      ["    .entry = @@ZEPHYR_VM0_ENTRY@@,".toList, "    .entry = @@ZEPHYR_VM1_ENTRY@@,".toList]

/-- What `build_hv` compiles. -/
def buildHv (vm0Start vm1Start : List Char) (lines : List (List Char)) : List (List Char) :=
  (lines.map (replaceFirst vm0Entry vm0Start)).map (replaceFirst vm1Entry vm1Start)

def entryOf? (line : List Char) : Option Nat :=
  if entryField.isPrefixOf line then addr? (line.drop entryField.length) else none

section Numerals

theorem digitChar_hex {value : Nat} (small : value < 16) :
    isDigitOf 16 value.digitChar = true ∧ digitValue value.digitChar = value := by
  have all : ∀ digit : Fin 16, isDigitOf 16 digit.val.digitChar = true ∧
      digitValue digit.val.digitChar = digit.val := by
    decide
  exact all ⟨value, small⟩

def valueOf (text : List Char) : Nat :=
  text.foldl (fun value c => 16 * value + digitValue c) 0

theorem toDigits_hex (value : Nat) :
    (∀ c ∈ Nat.toDigits 16 value, isDigitOf 16 c = true) ∧
      valueOf (Nat.toDigits 16 value) = value := by
  induction value using Nat.strongRecOn with
  | ind value ih =>
      rw [Nat.toDigits_eq_if (by decide)]
      split
      next small =>
          obtain ⟨digit, same⟩ := digitChar_hex small
          constructor
          · intro c member
            rw [List.mem_singleton.mp member]
            exact digit
          · change 16 * 0 + digitValue value.digitChar = value
            rw [same]
            omega
      next big =>
          obtain ⟨digits, front⟩ := ih (value / 16) (by omega)
          obtain ⟨digit, last⟩ := digitChar_hex (Nat.mod_lt value (by decide : 0 < 16))
          constructor
          · intro c member
            rcases List.mem_append.mp member with before | here
            · exact digits c before
            · rw [List.mem_singleton.mp here]
              exact digit
          · rw [valueOf, List.foldl_concat]
            change 16 * valueOf (Nat.toDigits 16 (value / 16)) + _ = value
            rw [front, last]
            omega

theorem valueOf_zeros (count : Nat) (text : List Char) :
    valueOf (List.replicate count '0' ++ text) = valueOf text := by
  induction count with
  | zero => rfl
  | succ count ih => exact ih

theorem padded_hex (value : Nat) :
    (∀ c ∈ padded value, isDigitOf 16 c = true) ∧ valueOf (padded value) = value := by
  obtain ⟨digits, same⟩ := toDigits_hex value
  constructor
  · intro c member
    rcases List.mem_append.mp member with zero | digit
    · rw [List.eq_of_mem_replicate zero]
      decide
    · exact digits c digit
  · rw [padded, List.leftpad, valueOf_zeros, same]

/-- What is printed in hexadecimal is read again, whatever ends it. -/
theorem numeral_padded (value : Nat) {rest : List Char}
    (ends : rest.takeWhile (isDigitOf 16) = []) :
    numeral 16 (padded value ++ rest) = value := by
  obtain ⟨digits, same⟩ := padded_hex value
  rw [numeral, List.takeWhile_append_of_pos digits, ends, List.append_nil]
  exact same

theorem numeral_nmText (start : Nat) : numeral 16 (nmText start) = start := by
  have whole := @numeral_padded start [] rfl
  rwa [List.append_nil] at whole

theorem vmStart_nmText {start : Nat} (some : 0 < start) (bound : start < 0x100000000) :
    vmStart (nmText start) = '0' :: 'x' :: padded (start - 1) := by
  rw [vmStart, numeral_nmText]
  congr 3
  omega

end Numerals

section Lines

variable {old new : List Char}

/-- The first occurrence of what begins with a character that is nowhere before. -/
theorem replaceFirst_append {mark : Char} {old before : List Char} (free : mark ∉ before)
    (new after : List Char) :
    replaceFirst (mark :: old) new (before ++ (mark :: old) ++ after) = before ++ new ++ after := by
  induction before with
  | nil =>
      have begins : (mark :: old).isPrefixOf ((mark :: old) ++ after) = true :=
        List.isPrefixOf_iff_prefix.mpr (List.prefix_append _ _)
      rw [List.nil_append, List.cons_append, replaceFirst, ← List.cons_append, if_pos begins,
        List.drop_left, List.nil_append]
  | cons c before ih =>
      have other : ¬ (mark :: old).isPrefixOf (c :: (before ++ (mark :: old) ++ after)) = true := by
        intro begins
        have same := (List.cons_prefix_cons.mp (List.isPrefixOf_iff_prefix.mp begins)).1
        exact free (same ▸ List.mem_cons_self)
      rw [List.cons_append, List.cons_append, replaceFirst, if_neg other,
        ih fun member => free (List.mem_cons_of_mem _ member)]
      rfl

theorem replaceFirst_of_absent {line : List Char}
    (absent : ∀ rest ∈ line.tails, old.isPrefixOf rest = false) :
    replaceFirst old new line = line := by
  induction line with
  | nil => rfl
  | cons c line ih =>
      have here := absent (c :: line) ((List.mem_tails _ _).mpr (List.suffix_refl _))
      have later : ∀ rest ∈ line.tails, old.isPrefixOf rest = false := by
        intro rest member
        have behind := ((List.mem_tails _ _).mp member).trans (List.suffix_cons c line)
        exact absent rest ((List.mem_tails _ _).mpr behind)
      rw [replaceFirst, here, if_neg Bool.false_ne_true, ih later]

/-- The mark that every occurrence begins with is missing. -/
theorem replaceFirst_of_not_mem {mark : Char} {old line : List Char} (free : mark ∉ line) :
    replaceFirst (mark :: old) new line = line := by
  apply replaceFirst_of_absent
  intro rest member
  rw [Bool.eq_false_iff]
  intro begins
  have inside := (List.isPrefixOf_iff_prefix.mp begins).subset List.mem_cons_self
  exact free (((List.mem_tails _ _).mp member).subset inside)

end Lines

section Entries

theorem vm0Entry_eq : vm0Entry = '@' :: "@ZEPHYR_VM0_ENTRY@@".toList := by
  decide

theorem vm1Entry_eq : vm1Entry = '@' :: "@ZEPHYR_VM1_ENTRY@@".toList := by
  decide

theorem free_entryField : '@' ∉ entryField := by
  decide

theorem free_padded (value : Nat) : '@' ∉ padded value := by
  intro member
  exact absurd ((padded_hex value).1 _ member) (by decide)

/-- The line of an entry point that has been filled in. -/
def filled (value : Nat) : List Char :=
  entryField ++ ('0' :: 'x' :: padded value) ++ [',']

theorem free_filled (value : Nat) : '@' ∉ filled value := by
  intro member
  rcases List.mem_append.mp member with inside | comma
  · rcases List.mem_append.mp inside with field | text
    · exact free_entryField field
    · rcases List.mem_cons.mp text with zero | later
      · exact absurd zero (by decide)
      · rcases List.mem_cons.mp later with cross | digits
        · exact absurd cross (by decide)
        · exact free_padded value digits
  · exact absurd comma (by decide)

theorem entryOf?_filled (value : Nat) : entryOf? (filled value) = some value := by
  have begins : entryField.isPrefixOf (filled value) = true := by
    rw [List.isPrefixOf_iff_prefix, filled, List.append_assoc]
    exact List.prefix_append _ _
  have read : addr? ('0' :: 'x' :: (padded value ++ [','])) =
      some (numeral 16 (padded value ++ [','])) := rfl
  have comma : [','].takeWhile (isDigitOf 16) = [] := by decide
  rw [entryOf?, if_pos begins, filled, List.append_assoc, List.drop_left, List.cons_append,
    List.cons_append, read, numeral_padded value comma]

theorem vm0Line_filled (value : Nat) (vm1Start : List Char) :
    replaceFirst vm1Entry vm1Start
        (replaceFirst vm0Entry ('0' :: 'x' :: padded value)
          "    .entry = @@ZEPHYR_VM0_ENTRY@@,".toList) = filled value := by
  have line : "    .entry = @@ZEPHYR_VM0_ENTRY@@,".toList = entryField ++ vm0Entry ++ [','] := by
    decide
  rw [line, vm0Entry_eq, replaceFirst_append free_entryField, vm1Entry_eq]
  exact replaceFirst_of_not_mem (free_filled value)

theorem vm1Line_filled (vm0Start : List Char) (value : Nat) :
    replaceFirst vm1Entry ('0' :: 'x' :: padded value)
        (replaceFirst vm0Entry vm0Start "    .entry = @@ZEPHYR_VM1_ENTRY@@,".toList) =
      filled value := by
  have line : "    .entry = @@ZEPHYR_VM1_ENTRY@@,".toList = entryField ++ vm1Entry ++ [','] := by
    decide
  have none : "    .entry = @@ZEPHYR_VM1_ENTRY@@,".toList.tails.all
      (fun rest => !vm0Entry.isPrefixOf rest) = true := by
    decide
  have absent : ∀ rest ∈ "    .entry = @@ZEPHYR_VM1_ENTRY@@,".toList.tails,
      vm0Entry.isPrefixOf rest = false := by
    intro rest member
    exact (Bool.not_eq_true' _).mp (List.all_eq_true.mp none rest member)
  rw [replaceFirst_of_absent absent, line, vm1Entry_eq, replaceFirst_append free_entryField]
  rfl

/-- An entry point that is given stays. -/
theorem givenLine_stays (vm0Start vm1Start : List Char) :
    replaceFirst vm1Entry vm1Start
        (replaceFirst vm0Entry vm0Start "    .entry = 0x00020000,".toList) =
      filled 0x00020000 := by
  have line : "    .entry = 0x00020000,".toList = filled 0x00020000 := by decide
  rw [line, vm0Entry_eq, replaceFirst_of_not_mem (free_filled _), vm1Entry_eq,
    replaceFirst_of_not_mem (free_filled _)]

/-- Both machines are Zephyr applications. -/
def ConfigFile.zephyrVm0 : ConfigFile → Bool
  | .configMtlsPufVms | .pufIntegrationWithoutWifi => true
  | _ => false

/-- Where the machines start. -/
def ConfigFile.entries (start0 start1 : Nat) : ConfigFile → List Nat
  | .configSingleVmBm => [0x00020000]
  | .configSingleVmZephyr => [start1 - 1]
  | .config => [0x00020000, start1 - 1]
  | .configMtlsPufVms | .pufIntegrationWithoutWifi => [start0 - 1, start1 - 1]

/-- Every machine starts just before its own `__start`; the commands that build one Zephyr
application leave `VM0_START` as it is. -/
theorem entries_filled {start0 start1 : Nat} (some0 : 0 < start0) (bound0 : start0 < 0x100000000)
    (some1 : 0 < start1) (bound1 : start1 < 0x100000000) {vm0Start : List Char} (file : ConfigFile)
    (built : file.zephyrVm0 = true → vm0Start = vmStart (nmText start0)) :
    (buildHv vm0Start (vmStart (nmText start1)) file.entryLines).map entryOf? =
      (file.entries start0 start1).map some := by
  rw [vmStart_nmText some0 bound0] at built
  rw [vmStart_nmText some1 bound1]
  have given := givenLine_stays vm0Start ('0' :: 'x' :: padded (start1 - 1))
  have second := vm1Line_filled vm0Start (start1 - 1)
  cases file with
  | configSingleVmBm =>
      change [entryOf? (replaceFirst _ _ (replaceFirst _ _ _))] = _
      rw [given, entryOf?_filled]
      rfl
  | configSingleVmZephyr =>
      change [entryOf? (replaceFirst _ _ (replaceFirst _ _ _))] = _
      rw [second, entryOf?_filled]
      rfl
  | config =>
      change [entryOf? (replaceFirst _ _ (replaceFirst _ _ _)),
        entryOf? (replaceFirst _ _ (replaceFirst _ _ _))] = _
      rw [given, second, entryOf?_filled, entryOf?_filled]
      rfl
  | configMtlsPufVms | pufIntegrationWithoutWifi =>
      change [entryOf? (replaceFirst _ _ (replaceFirst _ _ _)),
        entryOf? (replaceFirst _ _ (replaceFirst _ _ _))] = _
      rw [second, built rfl, vm0Line_filled, entryOf?_filled, entryOf?_filled]
      rfl

theorem entries_filled_mtls :
    (buildHv (vmStart (nmText 0x00048155)) (vmStart (nmText 0x00020155))
        ConfigFile.configMtlsPufVms.entryLines).map entryOf? =
      [some 0x00048154, some 0x00020154] :=
  entries_filled (by decide) (by decide) (by decide) (by decide) .configMtlsPufVms fun _ => rfl

end Entries

end Uc1Integration.Build
