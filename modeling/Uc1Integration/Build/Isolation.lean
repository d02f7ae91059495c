import Uc1Integration.Build.Images

/-!
# What the other virtual machine can read

The activation code and the key are inserted into the image of the PUF VM at the
addresses it was linked with. With those of its own configuration they lie in memory
that the PUF VM has for itself; with those of the other one they lie in the memory of
the other machine.
-/

set_option autoImplicit false

namespace Uc1Integration.Build

open Memory

/-- The sizes of the files that `insert_crypt` copies into the sections. -/
def CryptAddrs.secrets (addrs : CryptAddrs) : List Region :=
  (addrs.activationCode.map fun base => ⟨base, 1192⟩).toList ++
    (addrs.keyCode.map fun base => ⟨base, 52⟩).toList

def Image.secrets (image : Image) : List Region :=
  (image.crypt.map CryptAddrs.secrets).getD []

/-- The secrets lie in what the PUF VM maps, and the other machine maps none of them. -/
def Image.Confined (image : Image) : Prop :=
  ∀ address, Mapped image.secrets address →
    Mapped image.hvConfig.config.zephyrVm1.maps address ∧
      ¬ Mapped image.hvConfig.config.zephyrVm0.maps address

/-- The secrets lie in what the other machine maps, and the PUF VM maps none of them. -/
def Image.Exposed (image : Image) : Prop :=
  (∃ address, Mapped image.secrets address) ∧ ∀ address, Mapped image.secrets address →
    Mapped image.hvConfig.config.zephyrVm0.maps address ∧
      ¬ Mapped image.hvConfig.config.zephyrVm1.maps address

/-- The devices that both machines map; with the TLS client also its random number
generator, which lies in the window of the PUF. -/
def HvConfig.sharedDevices : HvConfig → List Region
  | .configMtlsPufVms => [⟨0x40000000, 0x5000⟩, ⟨0x40013000, 0xE000⟩, ⟨0x4003a000, 0x1000⟩]
  | .pufIntegrationWithoutWifi => [⟨0x40000000, 0x5000⟩, ⟨0x40013000, 0xE000⟩]

/-- Beside devices both machines map the page at the address the image was built with, and
nothing else. -/
def Image.SharesPage (image : Image) : Prop :=
  ∃ base, image.ipcBase = some base ∧ ∀ address,
    Mapped image.hvConfig.config.zephyrVm0.maps address ∧
        Mapped image.hvConfig.config.zephyrVm1.maps address ↔
      Region.Holds ⟨base, 0x1000⟩ address ∨ Mapped image.hvConfig.sharedDevices address

section Configs

theorem meets_maps (hvConfig : HvConfig) :
    meets hvConfig.config.zephyrVm0.maps hvConfig.config.zephyrVm1.maps =
      ⟨hvConfig.shmemBase, 0x1000⟩ :: hvConfig.sharedDevices := by
  cases hvConfig <;> decide

theorem exists_secret (hvConfig : HvConfig) :
    ∃ address, Mapped hvConfig.cryptAddrs.secrets address := by
  cases hvConfig with
  | configMtlsPufVms => exact ⟨0x00047AEC, _, List.mem_cons_self, by decide, by decide⟩
  | pufIntegrationWithoutWifi => exact ⟨0x00070000, _, List.mem_cons_self, by decide, by decide⟩

theorem meets_own (hvConfig : HvConfig) :
    meets hvConfig.cryptAddrs.secrets hvConfig.config.zephyrVm1.maps =
        hvConfig.cryptAddrs.secrets ∧
      meets hvConfig.cryptAddrs.secrets hvConfig.config.zephyrVm0.maps = [] := by
  cases hvConfig <;> decide

theorem meets_other {hvConfig other : HvConfig} (different : other ≠ hvConfig) :
    meets other.cryptAddrs.secrets hvConfig.config.zephyrVm0.maps = other.cryptAddrs.secrets ∧
      meets other.cryptAddrs.secrets hvConfig.config.zephyrVm1.maps = [] := by
  cases hvConfig <;> cases other <;> first | exact absurd rfl different | decide

end Configs

/-- The addresses of an image are those of a configuration. -/
structure Image.Known (image : Image) : Prop where
  ipcBase : image.ipcBase = some image.hvConfig.shmemBase
  crypt : image.app = .pufVm1 → ∃ hvConfig : HvConfig, image.crypt = some hvConfig.cryptAddrs
  others : image.app ≠ .pufVm1 → image.crypt = none

namespace Image.Known

variable {image : Image}

theorem sharesPage (known : image.Known) : image.SharesPage := by
  refine ⟨_, known.ipcBase, fun address => ?_⟩
  rw [← mapped_meets, meets_maps, mapped_cons]

theorem secrets_eq_nil (known : image.Known) (other : image.app ≠ .pufVm1) :
    image.secrets = [] := by
  rw [Image.secrets, known.others other]
  rfl

theorem secrets_eq {hvConfig : HvConfig} (crypt : image.crypt = some hvConfig.cryptAddrs) :
    image.secrets = hvConfig.cryptAddrs.secrets := by
  rw [Image.secrets, crypt]
  rfl

theorem confined_of_correct (known : image.Known) (correct : image.Correct) : image.Confined := by
  intro address mapped
  by_cases puf : image.app = .pufVm1
  · rw [secrets_eq (correct.crypt puf)] at mapped
    obtain ⟨inside, apart⟩ := meets_own image.hvConfig
    exact ⟨mapped_of_meets_eq inside mapped, not_mapped_of_meets_nil apart mapped⟩
  · rw [known.secrets_eq_nil puf] at mapped
    exact absurd mapped not_mapped_nil

theorem correct_or_exposed (known : image.Known) : image.Correct ∨ image.Exposed := by
  by_cases puf : image.app = .pufVm1
  · obtain ⟨hvConfig, crypt⟩ := known.crypt puf
    by_cases own : hvConfig = image.hvConfig
    · exact .inl ⟨known.ipcBase, fun _ => own ▸ crypt⟩
    · refine .inr ⟨?_, fun address mapped => ?_⟩
      · rw [secrets_eq crypt]
        exact exists_secret hvConfig
      · rw [secrets_eq crypt] at mapped
        obtain ⟨inside, apart⟩ := meets_other own
        exact ⟨mapped_of_meets_eq inside mapped, not_mapped_of_meets_nil apart mapped⟩
  · exact .inl ⟨known.ipcBase, fun isPuf => absurd isPuf puf⟩

theorem not_confined_of_exposed (exposed : image.Exposed) : ¬ image.Confined := by
  obtain ⟨⟨address, mapped⟩, reached⟩ := exposed
  exact fun confined => (confined address mapped).2 (reached address mapped).1

theorem confined_iff_correct (known : image.Known) : image.Confined ↔ image.Correct := by
  constructor
  · intro confined
    exact known.correct_or_exposed.resolve_right fun exposed =>
      not_confined_of_exposed exposed confined
  · exact known.confined_of_correct

end Image.Known

section Runs

variable {state : State}

/-- A step adds images only. -/
def Grows (step : Step) : Prop :=
  ∀ state, state.images <+: (step state).images

theorem grows_of_same {step : Step} (same : ∀ state, (step state).images = state.images) :
    Grows step :=
  fun state => (same state).symm ▸ List.prefix_refl _

theorem grows_build (hvConfig : HvConfig) (app : App) : Grows (build hvConfig app) :=
  fun _ => List.prefix_append _ _

theorem grows_steps (command : Command) : ∀ step ∈ command.steps, Grows step := by
  cases command with
  | buildPuf =>
      simp only [Command.steps, buildPufVms, List.cons_append, List.nil_append,
        List.forall_mem_cons]
      exact ⟨grows_of_same fun _ => rfl, grows_build _ _, grows_of_same fun _ => rfl,
        grows_build _ _, grows_of_same fun _ => rfl, grows_of_same fun _ => rfl, nofun⟩
  | buildMtlsPuf =>
      simp only [Command.steps, List.forall_mem_cons]
      exact ⟨grows_build _ _, grows_of_same fun _ => rfl, grows_of_same fun _ => rfl,
        grows_of_same fun _ => rfl, grows_build _ _, nofun⟩

theorem grows_foldl {steps : List Step} (grows : ∀ step ∈ steps, Grows step) (state : State) :
    state.images <+: (steps.foldl (fun state step => step state) state).images := by
  induction steps generalizing state with
  | nil => exact List.prefix_refl _
  | cons step steps ih =>
      obtain ⟨here, later⟩ := List.forall_mem_cons.mp grows
      exact (here state).trans (ih later (step state))

/-- A run that is cut off has made no other images than one that is not. -/
theorem images_begin (run : Run) (state : State) :
    (run.execute state).images <+:
      (run.command.steps.foldl (fun state step => step state) state).images := by
  have whole := List.take_append_drop run.count run.command.steps
  conv => rhs; rw [← whole, List.foldl_append]
  exact grows_foldl (fun step member => grows_steps _ step (List.mem_of_mem_drop member)) _

theorem known_compile {hvConfig : HvConfig} {app : App} {tree : Tree}
    (here : (compile hvConfig app tree).ipcBase = some hvConfig.shmemBase)
    (crypt : app = .pufVm1 → ∃ other : HvConfig, tree.cryptAddrs = other.cryptAddrs) :
    (compile hvConfig app tree).Known := by
  cases app with
  | tlsClient | pufVm0 => exact ⟨here, nofun, fun _ => rfl⟩
  | pufVm1 =>
      obtain ⟨other, same⟩ := crypt rfl
      exact ⟨here, fun _ => ⟨other, congrArg some same⟩, fun different => absurd rfl different⟩

/-- The images of a command that is not cut off. -/
theorem known_steps (matched : state.tree.Matched)
    (start : ∃ hvConfig : HvConfig, state.tree.cryptAddrs = hvConfig.cryptAddrs)
    (before : ∀ image ∈ state.images, image.Known) (command : Command) :
    ∀ image ∈ (command.steps.foldl (fun state step => step state) state).images,
      image.Known := by
  cases command with
  | buildPuf =>
      have reads : (ipcBaseText? "#define VMS_IPC_BASE        0x20027000UL").bind addr? =
          some HvConfig.pufIntegrationWithoutWifi.shmemBase := by
        decide
      have made : (Command.buildPuf.steps.foldl (fun state step => step state) state).images =
          state.images ++ [compile .pufIntegrationWithoutWifi .pufVm0 _] ++
            [compile .pufIntegrationWithoutWifi .pufVm1 _] := rfl
      rw [made, List.forall_mem_append, List.forall_mem_append, List.forall_mem_singleton,
        List.forall_mem_singleton]
      refine ⟨⟨before, ?_⟩, ?_⟩
      · exact known_compile (read_substitute matched.vm0Config reads) nofun
      · exact known_compile (read_substitute matched.vm1Spaced reads) fun _ => start
  | buildMtlsPuf =>
      have reads : (ipcBaseText? HvConfig.configMtlsPufVms.ipcBaseLine).bind addr? =
          some HvConfig.configMtlsPufVms.shmemBase := by
        decide
      have client : ipcBase tlsClientConfig = some HvConfig.configMtlsPufVms.shmemBase := by
        decide
      have patched : (patchVm1Config plainPattern "#define VMS_IPC_BASE        0x20020000UL"
          state).tree.Matched := matched.patchVm1Config _ (by decide) (by decide)
      have updated := patched.updateCryptAddr .configMtlsPufVms
      have made : (Command.buildMtlsPuf.steps.foldl (fun state step => step state) state).images =
          state.images ++ [compile .configMtlsPufVms .tlsClient _] ++
            [compile .configMtlsPufVms .pufVm1 _] := rfl
      rw [made, List.forall_mem_append, List.forall_mem_append, List.forall_mem_singleton,
        List.forall_mem_singleton]
      refine ⟨⟨before, known_compile client nofun⟩, ?_⟩
      refine known_compile (read_substitute updated.vm1Plain reads) fun _ => ?_
      exact ⟨_, cryptAddrs_updateCryptAddr patched .configMtlsPufVms⟩

theorem known_executeAll (runs : List Run) (matched : state.tree.Matched)
    (start : ∃ hvConfig : HvConfig, state.tree.cryptAddrs = hvConfig.cryptAddrs)
    (before : ∀ image ∈ state.images, image.Known) :
    ∀ image ∈ (executeAll runs state).images, image.Known := by
  induction runs generalizing state with
  | nil => exact before
  | cons run runs ih =>
      obtain ⟨stillMatched, cryptAddrs, _⟩ := does_run matched run
      refine ih stillMatched ?_ ?_
      · rw [cryptAddrs, Run.cryptAddrs]
        split
        · exact ⟨_, rfl⟩
        · exact start
      · intro image member
        exact known_steps matched start before run.command image
          ((images_begin run state).subset member)

/-- The secrets of every image are confined to the PUF VM or exposed to the other machine, and
all are confined exactly when the linker script fits the commands. -/
theorem secrets_confined_iff {tree : Tree} (matched : tree.Matched) {hvConfig : HvConfig}
    (start : tree.cryptAddrs = hvConfig.cryptAddrs) (runs : List Run) :
    (∀ image ∈ (executeAll runs ⟨tree, []⟩).images,
        image.SharesPage ∧ (image.Confined ∨ image.Exposed)) ∧
      ((∀ image ∈ (executeAll runs ⟨tree, []⟩).images, image.Confined) ↔
        Fits tree.cryptAddrs runs) := by
  have known : ∀ image ∈ (executeAll runs ⟨tree, []⟩).images, image.Known :=
    known_executeAll runs matched ⟨hvConfig, start⟩ nofun
  have fits : (∀ image ∈ (executeAll runs ⟨tree, []⟩).images, image.Correct) ↔
      Fits tree.cryptAddrs runs := by
    rw [correct_executeAll runs matched]
    exact and_iff_right nofun
  constructor
  · intro image member
    have here := known image member
    exact ⟨here.sharesPage, here.correct_or_exposed.imp_left here.confined_of_correct⟩
  · rw [← fits]
    exact forall₂_congr fun image member => (known image member).confined_iff_correct

/-- The TLS demo first, then the PUF demo. -/
theorem secrets_confined_iff_after_mtls :
    ¬ ∀ image ∈ (executeAll [⟨.buildMtlsPuf, 5⟩, ⟨.buildPuf, 6⟩]
      ⟨checkout .pufIntegrationWithoutWifi, []⟩).images, image.Confined := by
  have start : (checkout .pufIntegrationWithoutWifi).cryptAddrs =
      HvConfig.pufIntegrationWithoutWifi.cryptAddrs := by
    decide
  rw [(secrets_confined_iff (matched_checkout _) start _).2]
  intro fits
  exact absurd (fits.2.1 rfl) (by decide)

end Runs

end Uc1Integration.Build
