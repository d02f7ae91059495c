import Uc1Integration.Build.Uc1

/-!
# The addresses of the images

`build_mtls_puf` patches its sources before it compiles them. `build_puf`
compiles the PUF VM first and patches its linker script afterwards, so that its
image has the addresses the previous command left.
-/

set_option autoImplicit false

namespace Uc1Integration.Build

/-- The addresses `update_crypt_addr` assigns to a configuration. -/
def HvConfig.cryptAddrs : HvConfig → CryptAddrs
  | .configMtlsPufVms => ⟨some 0x00047AEC, some 0x00047F9C⟩
  | .pufIntegrationWithoutWifi => ⟨some 0x00070000, some 0x00070500⟩

/-- An image has the addresses of its command's configuration. -/
structure Image.Correct (image : Image) : Prop where
  ipcBase : image.ipcBase = some image.hvConfig.shmemBase
  crypt : image.app = .pufVm1 → image.crypt = some image.hvConfig.cryptAddrs

/-- The submodules' files have the lines the patterns match. -/
structure Tree.Matched (tree : Tree) : Prop where
  vm0Config : Covers spacedPattern ipcBaseText? tree.vm0Config
  vm1Spaced : Covers spacedPattern ipcBaseText? tree.vm1Config
  vm1Plain : Covers plainPattern ipcBaseText? tree.vm1Config
  activationCode : Covers (sectionPattern activationCodeName) (sectionText? activationCodeName)
    tree.linkerScript
  keyCode : Covers (sectionPattern keyCodeName) (sectionText? keyCodeName) tree.linkerScript

theorem read_substitute {pattern : String → Bool} {line : String}
    {read : String → Option (List Char)} {file : File} {addr : Nat}
    (covers : Covers pattern read file) (reads : (read line).bind addr? = some addr) :
    ((substitute pattern line file).findSome? read).bind addr? = some addr := by
  obtain ⟨text, here, value⟩ := Option.bind_eq_some_iff.mp reads
  rw [findSome?_substitute covers here]
  exact value

/-- A line starts with one section name only. -/
theorem sectionText?_other {name other line : String}
    (matched : sectionPattern name line = true)
    (apart : ¬ name.toList <+: other.toList ∧ ¬ other.toList <+: name.toList) :
    sectionText? other line = none := by
  unfold sectionPattern sectionText? rest? at matched
  unfold sectionText? rest?
  by_cases first : name.toList.isPrefixOf line.toList = true
  · rw [if_neg]
    intro second
    rw [List.isPrefixOf_iff_prefix] at first second
    cases List.prefix_or_prefix_of_prefix first second with
    | inl one => exact apart.1 one
    | inr two => exact apart.2 two
  · rw [if_neg first] at matched
    cases matched

theorem apart_sections :
    ¬ activationCodeName.toList <+: keyCodeName.toList ∧
      ¬ keyCodeName.toList <+: activationCodeName.toList := by
  decide

namespace Tree.Matched

theorem patchVm0Config {state : State} (matched : state.tree.Matched) {line : String}
    (keeps : spacedPattern line = true) :
    (patchVm0Config spacedPattern line state).tree.Matched :=
  { matched with vm0Config := matched.vm0Config.substitute keeps }

theorem patchVm1Config {state : State} (matched : state.tree.Matched) (pattern : String → Bool)
    {line : String} (keepsSpaced : spacedPattern line = true)
    (keepsPlain : plainPattern line = true) :
    (patchVm1Config pattern line state).tree.Matched :=
  { matched with
    vm1Spaced := matched.vm1Spaced.substitute keepsSpaced
    vm1Plain := matched.vm1Plain.substitute keepsPlain }

theorem updateIpcAddr {state : State} (matched : state.tree.Matched) (hvConfig : HvConfig) :
    (updateIpcAddr hvConfig state).tree.Matched := by
  cases hvConfig with
  | configMtlsPufVms => exact matched.patchVm1Config _ (by decide) (by decide)
  | pufIntegrationWithoutWifi => exact matched.patchVm1Config _ (by decide) (by decide)

end Tree.Matched

theorem cryptLines (hvConfig : HvConfig) :
    (sectionText? activationCodeName hvConfig.activationCodeLine).bind addr? =
        hvConfig.cryptAddrs.activationCode ∧
      (sectionText? keyCodeName hvConfig.keyCodeLine).bind addr? = hvConfig.cryptAddrs.keyCode ∧
      sectionPattern activationCodeName hvConfig.activationCodeLine = true ∧
      sectionPattern keyCodeName hvConfig.keyCodeLine = true := by
  cases hvConfig <;> decide

theorem Tree.Matched.keyCode_after {tree : Tree} (matched : tree.Matched) (hvConfig : HvConfig) :
    Covers (sectionPattern keyCodeName) (sectionText? keyCodeName)
      (substitute (sectionPattern activationCodeName) hvConfig.activationCodeLine
        tree.linkerScript) := by
  apply matched.keyCode.substitute_of_other
  · intro line here there
    have none := sectionText?_other there apart_sections
    rw [sectionPattern, none] at here
    cases here
  · exact sectionText?_other (cryptLines hvConfig).2.2.1 apart_sections

theorem Tree.Matched.updateCryptAddr {state : State} (matched : state.tree.Matched)
    (hvConfig : HvConfig) : (updateCryptAddr hvConfig state).tree.Matched := by
  obtain ⟨_, _, activates, keys⟩ := cryptLines hvConfig
  have after : Covers (sectionPattern activationCodeName) (sectionText? activationCodeName)
      (substitute (sectionPattern activationCodeName) hvConfig.activationCodeLine
        state.tree.linkerScript) := matched.activationCode.substitute activates
  refine { matched with activationCode := ?_, keyCode := ?_ }
  · apply after.substitute_of_other
    · intro line here there
      have none := sectionText?_other here apart_sections
      rw [sectionPattern, none] at there
      cases there
    · exact sectionText?_other keys apart_sections.symm
  · exact (matched.keyCode_after hvConfig).substitute keys

theorem cryptAddrs_updateCryptAddr {state : State} (matched : state.tree.Matched)
    (hvConfig : HvConfig) :
    (updateCryptAddr hvConfig state).tree.cryptAddrs = hvConfig.cryptAddrs := by
  obtain ⟨activates, keys, _, keyLine⟩ := cryptLines hvConfig
  have other : ∀ line, sectionPattern keyCodeName line = true →
      sectionText? activationCodeName line = none :=
    fun line here => sectionText?_other here apart_sections.symm
  have activationCode :
      sectionAddr activationCodeName (updateCryptAddr hvConfig state).tree.linkerScript =
        hvConfig.cryptAddrs.activationCode := by
    unfold sectionAddr updateCryptAddr
    rw [findSome?_substitute_of_other _ other (other _ keyLine)]
    cases hvConfig with
    | configMtlsPufVms => exact read_substitute matched.activationCode activates
    | pufIntegrationWithoutWifi => exact read_substitute matched.activationCode activates
  have keyCode : sectionAddr keyCodeName (updateCryptAddr hvConfig state).tree.linkerScript =
      hvConfig.cryptAddrs.keyCode := by
    have after := matched.keyCode_after hvConfig
    cases hvConfig with
    | configMtlsPufVms => exact read_substitute after keys
    | pufIntegrationWithoutWifi => exact read_substitute after keys
  unfold Tree.cryptAddrs
  rw [activationCode, keyCode]

theorem forall_build {hvConfig : HvConfig} {app : App} {state : State} {Q : Image → Prop} :
    (∀ image ∈ (build hvConfig app state).images, Q image) ↔
      (∀ image ∈ state.images, Q image) ∧ Q (compile hvConfig app state.tree) := by
  unfold build
  rw [List.forall_mem_append, List.forall_mem_singleton]

theorem correct_pufVm1 {hvConfig : HvConfig} {tree : Tree}
    (here : ipcBase tree.vm1Config = some hvConfig.shmemBase) :
    (compile hvConfig .pufVm1 tree).Correct ↔ tree.cryptAddrs = hvConfig.cryptAddrs := by
  constructor
  · intro correct
    exact Option.some.inj (correct.crypt rfl)
  · intro same
    exact ⟨here, fun _ => congrArg some same⟩

/-- What a part of a run has made of the state: files that still match, the
addresses in the linker script, and images that are correct on a condition. -/
structure Effect (before after : State) (cryptAddrs : CryptAddrs) (condition : Prop) : Prop where
  matched : after.tree.Matched
  cryptAddrs : after.tree.cryptAddrs = cryptAddrs
  correct : (∀ image ∈ after.images, image.Correct) ↔
    (∀ image ∈ before.images, image.Correct) ∧ condition

namespace Effect

variable {before after : State} {cryptAddrs : CryptAddrs} {condition : Prop}

theorem refl (matched : before.tree.Matched) : Effect before before before.tree.cryptAddrs True where
  matched := matched
  cryptAddrs := rfl
  correct := (and_iff_left trivial).symm

theorem of_iff {other : Prop} (effect : Effect before after cryptAddrs condition)
    (same : condition ↔ other) : Effect before after cryptAddrs other where
  matched := effect.matched
  cryptAddrs := effect.cryptAddrs
  correct := effect.correct.trans (and_congr_right fun _ => same)

theorem patchVm0Config (effect : Effect before after cryptAddrs condition) (line : String)
    (keeps : spacedPattern line = true) :
    Effect before (patchVm0Config spacedPattern line after) cryptAddrs condition where
  matched := effect.matched.patchVm0Config keeps
  cryptAddrs := effect.cryptAddrs
  correct := effect.correct

theorem patchVm1Config (effect : Effect before after cryptAddrs condition)
    (pattern : String → Bool) (line : String) (keepsSpaced : spacedPattern line = true)
    (keepsPlain : plainPattern line = true) :
    Effect before (patchVm1Config pattern line after) cryptAddrs condition where
  matched := effect.matched.patchVm1Config pattern keepsSpaced keepsPlain
  cryptAddrs := effect.cryptAddrs
  correct := effect.correct

theorem updateCryptAddr (effect : Effect before after cryptAddrs condition)
    (hvConfig : HvConfig) :
    Effect before (updateCryptAddr hvConfig after) hvConfig.cryptAddrs condition where
  matched := effect.matched.updateCryptAddr hvConfig
  cryptAddrs := cryptAddrs_updateCryptAddr effect.matched hvConfig
  correct := effect.correct

theorem updateIpcAddr (effect : Effect before after cryptAddrs condition) (hvConfig : HvConfig) :
    Effect before (updateIpcAddr hvConfig after) cryptAddrs condition where
  matched := effect.matched.updateIpcAddr hvConfig
  cryptAddrs := effect.cryptAddrs
  correct := effect.correct

theorem build {hvConfig : HvConfig} {app : App} (effect : Effect before after cryptAddrs condition)
    (correct : (compile hvConfig app after.tree).Correct) :
    Effect before (build hvConfig app after) cryptAddrs condition where
  matched := effect.matched
  cryptAddrs := effect.cryptAddrs
  correct := by
    rw [forall_build, effect.correct, and_iff_left correct]

theorem buildPufVm1 {hvConfig : HvConfig} (effect : Effect before after cryptAddrs condition)
    (here : ipcBase after.tree.vm1Config = some hvConfig.shmemBase) :
    Effect before (Build.build hvConfig .pufVm1 after) cryptAddrs
      (condition ∧ cryptAddrs = hvConfig.cryptAddrs) where
  matched := effect.matched
  cryptAddrs := effect.cryptAddrs
  correct := by
    rw [forall_build, effect.correct, correct_pufVm1 here, effect.cryptAddrs, and_assoc]

end Effect

def Run.patchesCrypt (run : Run) : Bool :=
  match run.command with
  | .buildPuf => 5 ≤ run.count
  | .buildMtlsPuf => 3 ≤ run.count

/-- The run builds the PUF VM and has not reached `update_crypt_addr` before. -/
def Run.buildsUnpatched (run : Run) : Bool :=
  match run.command with
  | .buildPuf => 4 ≤ run.count
  | .buildMtlsPuf => false

def Run.cryptAddrs (run : Run) (current : CryptAddrs) : CryptAddrs :=
  if run.patchesCrypt then run.command.hvConfig.cryptAddrs else current

/-- What a run does to a tree its patterns match. -/
def Run.Does (run : Run) (state : State) : Prop :=
  Effect state (run.execute state) (run.cryptAddrs state.tree.cryptAddrs)
    (run.buildsUnpatched = true → state.tree.cryptAddrs = run.command.hvConfig.cryptAddrs)

theorem Run.cryptAddrs_of_patches {run : Run} (patches : run.patchesCrypt = true)
    (current : CryptAddrs) : run.cryptAddrs current = run.command.hvConfig.cryptAddrs :=
  if_pos patches

theorem Run.execute_of_length {run : Run} (all : run.command.steps.length ≤ run.count)
    (state : State) :
    run.execute state = run.command.steps.foldl (fun state step => step state) state := by
  unfold Run.execute
  rw [List.take_of_length_le all]

/-- `build_puf` compiles the PUF VM with the addresses it finds. -/
theorem does_buildPuf {state : State} (matched : state.tree.Matched) (count : Nat) :
    (Run.mk .buildPuf count).Does state := by
  have reads : (ipcBaseText? "#define VMS_IPC_BASE        0x20027000UL").bind addr? =
      some HvConfig.pufIntegrationWithoutWifi.shmemBase := by
    decide
  have started := Effect.refl matched
  have vm0Patched := started.patchVm0Config "#define VMS_IPC_BASE        0x20027000UL"
    (by decide)
  have vm0Right : (compile .pufIntegrationWithoutWifi .pufVm0 (patchVm0Config spacedPattern
      "#define VMS_IPC_BASE        0x20027000UL" state).tree).Correct :=
    ⟨read_substitute matched.vm0Config reads, nofun⟩
  have vm0Built := vm0Patched.build vm0Right
  have vm1Patched := vm0Built.patchVm1Config spacedPattern
    "#define VMS_IPC_BASE        0x20027000UL" (by decide) (by decide)
  have vm1Built := vm1Patched.buildPufVm1
    (read_substitute vm0Built.matched.vm1Spaced reads)
  have cryptUpdated := vm1Built.updateCryptAddr .pufIntegrationWithoutWifi
  have ipcUpdated := cryptUpdated.updateIpcAddr .pufIntegrationWithoutWifi
  match count with
  | 0 => exact started.of_iff (by simp [Run.buildsUnpatched, Command.hvConfig])
  | 1 => exact vm0Patched.of_iff (by simp [Run.buildsUnpatched, Command.hvConfig])
  | 2 => exact vm0Built.of_iff (by simp [Run.buildsUnpatched, Command.hvConfig])
  | 3 => exact vm1Patched.of_iff (by simp [Run.buildsUnpatched, Command.hvConfig])
  | 4 => exact vm1Built.of_iff (by simp [Run.buildsUnpatched, Command.hvConfig])
  | 5 => exact cryptUpdated.of_iff (by simp [Run.buildsUnpatched, Command.hvConfig])
  | n + 6 =>
      have patches : (Run.mk .buildPuf (n + 6)).patchesCrypt = true :=
        decide_eq_true (Nat.le_add_left 5 (n + 1))
      have all : Command.buildPuf.steps.length ≤ (Run.mk .buildPuf (n + 6)).count :=
        Nat.le_add_left 6 n
      unfold Run.Does
      rw [Run.execute_of_length all, Run.cryptAddrs_of_patches patches]
      exact ipcUpdated.of_iff (by simp [Run.buildsUnpatched, Command.hvConfig])

theorem does_buildMtlsPuf {state : State} (matched : state.tree.Matched) (count : Nat) :
    (Run.mk .buildMtlsPuf count).Does state := by
  have clientReads : ipcBase tlsClientConfig = some HvConfig.configMtlsPufVms.shmemBase := by
    decide
  have clientRight : (compile .configMtlsPufVms .tlsClient state.tree).Correct :=
    ⟨clientReads, nofun⟩
  have started := Effect.refl matched
  have clientBuilt := started.build clientRight
  have vm1Patched := clientBuilt.patchVm1Config plainPattern
    "#define VMS_IPC_BASE        0x20020000UL" (by decide) (by decide)
  have cryptUpdated := vm1Patched.updateCryptAddr .configMtlsPufVms
  have ipcUpdated := cryptUpdated.updateIpcAddr .configMtlsPufVms
  have vm1Reads : (ipcBaseText? HvConfig.configMtlsPufVms.ipcBaseLine).bind addr? =
      some HvConfig.configMtlsPufVms.shmemBase := by
    decide
  have vm1Built := ipcUpdated.buildPufVm1
    (read_substitute cryptUpdated.matched.vm1Plain vm1Reads)
  match count with
  | 0 => exact started.of_iff (by simp [Run.buildsUnpatched])
  | 1 => exact clientBuilt.of_iff (by simp [Run.buildsUnpatched])
  | 2 => exact vm1Patched.of_iff (by simp [Run.buildsUnpatched])
  | 3 => exact cryptUpdated.of_iff (by simp [Run.buildsUnpatched])
  | 4 => exact ipcUpdated.of_iff (by simp [Run.buildsUnpatched])
  | n + 5 =>
      have patches : (Run.mk .buildMtlsPuf (n + 5)).patchesCrypt = true :=
        decide_eq_true (Nat.le_add_left 3 (n + 2))
      have all : Command.buildMtlsPuf.steps.length ≤ (Run.mk .buildMtlsPuf (n + 5)).count :=
        Nat.le_add_left 5 n
      unfold Run.Does
      rw [Run.execute_of_length all, Run.cryptAddrs_of_patches patches]
      exact vm1Built.of_iff (by simp [Run.buildsUnpatched])

theorem does_run {state : State} (matched : state.tree.Matched) (run : Run) : run.Does state := by
  obtain ⟨command, count⟩ := run
  cases command with
  | buildPuf => exact does_buildPuf matched count
  | buildMtlsPuf => exact does_buildMtlsPuf matched count

/-- Every `build_puf` that gets to compile the PUF VM finds the addresses of its
own configuration: those in the linker script at first, or those of the last
command before it that reached `update_crypt_addr`. -/
def Fits : CryptAddrs → List Run → Prop
  | _, [] => True
  | current, run :: rest =>
      (run.buildsUnpatched = true → current = run.command.hvConfig.cryptAddrs) ∧
        Fits (run.cryptAddrs current) rest

theorem correct_executeAll (runs : List Run) {state : State} (matched : state.tree.Matched) :
    (∀ image ∈ (executeAll runs state).images, image.Correct) ↔
      (∀ image ∈ state.images, image.Correct) ∧ Fits state.tree.cryptAddrs runs := by
  induction runs generalizing state with
  | nil => exact (and_iff_left trivial).symm
  | cons run rest ih =>
      obtain ⟨stillMatched, cryptAddrs, correct⟩ := does_run matched run
      have later := ih stillMatched
      rw [cryptAddrs, correct, and_assoc] at later
      exact later

/-- The images of a sequence of commands have their addresses exactly when the
linker script fits it. -/
theorem correct_iff_fits {tree : Tree} (matched : tree.Matched) (runs : List Run) :
    (∀ image ∈ (executeAll runs ⟨tree, []⟩).images, image.Correct) ↔
      Fits tree.cryptAddrs runs := by
  rw [correct_executeAll runs matched]
  exact and_iff_right nofun

def checkout (hvConfig : HvConfig) : Tree where
  vm0Config := ["#define VMS_IPC_BASE 0x20000000UL"]
  vm1Config := ["#define VMS_IPC_BASE 0x20000000UL"]
  linkerScript := [hvConfig.activationCodeLine, hvConfig.keyCodeLine]

theorem matched_checkout (hvConfig : HvConfig) : (checkout hvConfig).Matched := by
  cases hvConfig <;> constructor <;> constructor <;> decide

theorem correct_iff_fits_checkout :
    Fits (checkout .pufIntegrationWithoutWifi).cryptAddrs
        [⟨.buildPuf, 6⟩, ⟨.buildMtlsPuf, 2⟩, ⟨.buildPuf, 6⟩] ∧
      ∀ image ∈ (executeAll [⟨.buildPuf, 6⟩, ⟨.buildMtlsPuf, 2⟩, ⟨.buildPuf, 6⟩]
        ⟨checkout .pufIntegrationWithoutWifi, []⟩).images, image.Correct := by
  have fits : Fits (checkout .pufIntegrationWithoutWifi).cryptAddrs
      [⟨.buildPuf, 6⟩, ⟨.buildMtlsPuf, 2⟩, ⟨.buildPuf, 6⟩] := by
    refine ⟨fun _ => ?_, nofun, fun _ => ?_, trivial⟩
    · decide
    · decide
  exact ⟨fits, (correct_iff_fits (matched_checkout _) _).mpr fits⟩

/-- `build_puf` after `build_mtls_puf`: the PUF VM has the addresses of the other
configuration. -/
theorem not_correct_after_mtls :
    ¬ ∀ tree : Tree, tree.Matched → ∀ runs : List Run,
      ∀ image ∈ (executeAll runs ⟨tree, []⟩).images, image.Correct := by
  intro all
  have correct := all (checkout .pufIntegrationWithoutWifi) (matched_checkout _)
    [⟨.buildMtlsPuf, 5⟩, ⟨.buildPuf, 6⟩]
  have stale : (⟨.pufVm1, .pufIntegrationWithoutWifi, some 0x20027000,
      some ⟨some 0x00047AEC, some 0x00047F9C⟩⟩ : Image).Correct := by
    apply correct
    decide
  have same := stale.crypt rfl
  cases same

end Uc1Integration.Build
