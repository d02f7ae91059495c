import Uc1Integration.Memory.Regions

/-!
# The hypervisor's configurations

The virtual machines of `config_mtls_puf_vms.c` and `puf_integration_without_wifi.c`:
what each of them maps. A machine reaches an address when one of its regions, devices
or IPC objects holds it; every device is mapped where it is, at the address `va`.
-/

set_option autoImplicit false

namespace Uc1Integration.Build

open Memory

/-- `struct vm_dev_region`, as far as it maps addresses. -/
structure VmDevRegion where
  va : Nat
  size : Nat

/-- `struct ipc`, as far as it maps addresses. -/
structure Ipc where
  base : Nat
  size : Nat

/-- `struct vm_config`, without its image and entry. -/
structure VmConfig where
  regions : List Region
  devs : List VmDevRegion
  ipcs : List Ipc

/-- `struct config`, whose `shmemlist` has one entry. -/
structure Config where
  shmem : Region
  zephyrVm0 : VmConfig
  zephyrVm1 : VmConfig

/-- SYSCON, IOCON, PINT and SPINT. -/
def syscon : VmDevRegion :=
  ⟨0x40000000, 0x5000⟩

/-- ANALOG and the power management. -/
def analog : VmDevRegion :=
  ⟨0x40013000, 0xE000⟩

def rng : VmDevRegion :=
  ⟨0x4003a000, 0x1000⟩

/-- PUF and the flash controller. -/
def puf : VmDevRegion :=
  ⟨0x40034000, 0x8000⟩

def configMtlsPufVms : Config where
  shmem := ⟨0x20020000, 0x1000⟩
  zephyrVm0 :=
    { regions := [⟨0x20030000, 0x10000⟩, ⟨0x00048000, 0x40000⟩]
      devs := [⟨0x40088000, 0x2000⟩, syscon, analog, rng]
      ipcs := [⟨0x20020000, 0x1000⟩] }
  zephyrVm1 :=
    { regions := [⟨0x20010000, 0x10000⟩, ⟨0x00020000, 0x28000⟩]
      devs := [syscon, analog, puf]
      ipcs := [⟨0x20020000, 0x1000⟩] }

def pufIntegrationWithoutWifi : Config where
  shmem := ⟨0x20027000, 0x1000⟩
  zephyrVm0 :=
    { regions := [⟨0x20010000, 0x10000⟩, ⟨0x00020000, 0x28000⟩]
      devs := [⟨0x40089000, 0x1000⟩, syscon, analog]
      ipcs := [⟨0x20027000, 0x1000⟩] }
  zephyrVm1 :=
    { regions := [⟨0x20030000, 0x10000⟩, ⟨0x00048000, 0x29000⟩]
      devs := [⟨0x40088000, 0x1000⟩, syscon, analog, puf]
      ipcs := [⟨0x20027000, 0x1000⟩] }

inductive HvConfig where
  | configMtlsPufVms
  | pufIntegrationWithoutWifi
  deriving DecidableEq, Repr

def HvConfig.config : HvConfig → Config
  | .configMtlsPufVms => Build.configMtlsPufVms
  | .pufIntegrationWithoutWifi => Build.pufIntegrationWithoutWifi

/-- The base of the shared memory in the hypervisor's configuration. -/
def HvConfig.shmemBase (hvConfig : HvConfig) : Nat :=
  hvConfig.config.shmem.base

/-- What a machine maps. -/
def VmConfig.maps (vm : VmConfig) : List Region :=
  vm.regions ++ vm.ipcs.map (fun ipc => ⟨ipc.base, ipc.size⟩) ++
    vm.devs.map fun dev => ⟨dev.va, dev.size⟩

end Uc1Integration.Build
