import Mathlib.Data.List.Basic

/-!
# Regions of an address space

A list of regions maps an address when one of them holds it. What two lists both map
can be computed.
-/

set_option autoImplicit false

namespace Uc1Integration.Memory

structure Region where
  base : Nat
  size : Nat
  deriving DecidableEq, Repr

def Region.Holds (region : Region) (address : Nat) : Prop :=
  region.base ≤ address ∧ address < region.base + region.size

def Region.meet (one other : Region) : Region :=
  ⟨max one.base other.base,
    min (one.base + one.size) (other.base + other.size) - max one.base other.base⟩

theorem Region.holds_meet {one other : Region} {address : Nat} :
    (one.meet other).Holds address ↔ one.Holds address ∧ other.Holds address := by
  simp only [Region.Holds, Region.meet]
  omega

def Mapped (regions : List Region) (address : Nat) : Prop :=
  ∃ region ∈ regions, region.Holds address

theorem mapped_cons {region : Region} {regions : List Region} {address : Nat} :
    Mapped (region :: regions) address ↔ region.Holds address ∨ Mapped regions address := by
  simp only [Mapped, List.mem_cons, exists_eq_or_imp]

theorem not_mapped_nil {address : Nat} : ¬ Mapped [] address :=
  fun ⟨_, member, _⟩ => absurd member List.not_mem_nil

/-- The parts of the first regions that lie in one of the second. -/
def meets (first second : List Region) : List Region :=
  (first.flatMap fun one => second.map one.meet).filter (·.size ≠ 0)

theorem mapped_meets {first second : List Region} {address : Nat} :
    Mapped (meets first second) address ↔ Mapped first address ∧ Mapped second address := by
  constructor
  · rintro ⟨region, member, holds⟩
    obtain ⟨one, inside, there⟩ := List.mem_flatMap.mp (List.mem_of_mem_filter member)
    obtain ⟨other, within, rfl⟩ := List.mem_map.mp there
    have both := Region.holds_meet.mp holds
    exact ⟨⟨one, inside, both.1⟩, ⟨other, within, both.2⟩⟩
  · rintro ⟨⟨one, inside, here⟩, ⟨other, within, there⟩⟩
    have holds := Region.holds_meet.mpr ⟨here, there⟩
    refine ⟨one.meet other, List.mem_filter.mpr ⟨?_, ?_⟩, holds⟩
    · exact List.mem_flatMap.mpr ⟨one, inside, List.mem_map_of_mem within⟩
    · have some : (one.meet other).size ≠ 0 := by
        intro empty
        rw [Region.Holds, empty] at holds
        omega
      exact decide_eq_true some

/-- Regions that meet others in themselves lie in these. -/
theorem mapped_of_meets_eq {first second : List Region} (inside : meets first second = first)
    {address : Nat} (mapped : Mapped first address) : Mapped second address := by
  rw [← inside] at mapped
  exact (mapped_meets.mp mapped).2

theorem not_mapped_of_meets_nil {first second : List Region} (apart : meets first second = [])
    {address : Nat} (mapped : Mapped first address) : ¬ Mapped second address := by
  intro other
  have both : Mapped (meets first second) address := mapped_meets.mpr ⟨mapped, other⟩
  rw [apart] at both
  exact not_mapped_nil both

end Uc1Integration.Memory
