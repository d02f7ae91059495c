import Mathlib.Data.List.Basic

/-!
# Substituting lines

Line editors that put one line in place of every line a pattern matches, and
readers that take the first line they understand.
-/

set_option autoImplicit false

namespace Uc1Integration.Build

variable {Line α : Type}

/-- `s|^pattern.*$|replacement|` on every line. -/
def substitute (pattern : Line → Bool) (replacement : Line) (file : List Line) : List Line :=
  file.map fun line => if pattern line then replacement else line

/-- Some line matches, and no other line is understood by the reader. -/
structure Covers (pattern : Line → Bool) (read : Line → Option α) (file : List Line) : Prop where
  some : ∃ line ∈ file, pattern line = true
  all : ∀ line ∈ file, (read line).isSome = true → pattern line = true

theorem findSome?_substitute {pattern : Line → Bool} {replacement : Line} {read : Line → Option α}
    {file : List Line} {value : α} (covers : Covers pattern read file)
    (reads : read replacement = some value) :
    (substitute pattern replacement file).findSome? read = some value := by
  obtain ⟨some, all⟩ := covers
  induction file with
  | nil =>
      obtain ⟨_, member, _⟩ := some
      cases member
  | cons line rest ih =>
      rw [substitute, List.map_cons]
      by_cases matched : pattern line = true
      · rw [if_pos matched, List.findSome?_cons, reads]
      · have silent : read line = none := by
          rw [← Option.not_isSome_iff_eq_none]
          exact fun understood => matched (all line List.mem_cons_self understood)
        rw [if_neg matched, List.findSome?_cons, silent]
        apply ih
        · obtain ⟨other, member, here⟩ := some
          cases List.mem_cons.mp member with
          | inl same => exact absurd (same ▸ here) matched
          | inr behind => exact ⟨other, behind, here⟩
        · exact fun other member => all other (List.mem_cons_of_mem line member)

/-- Another substitution leaves a reader alone when it neither matches nor makes
lines the reader understands. -/
theorem findSome?_substitute_of_other {pattern : Line → Bool} {replacement : Line}
    {read : Line → Option α} (file : List Line)
    (other : ∀ line, pattern line = true → read line = none) (blank : read replacement = none) :
    (substitute pattern replacement file).findSome? read = file.findSome? read := by
  induction file with
  | nil => rfl
  | cons line rest ih =>
      rw [substitute, List.map_cons, List.findSome?_cons, List.findSome?_cons]
      rw [substitute] at ih
      by_cases matched : pattern line = true
      · rw [if_pos matched, blank, other line matched, ih]
      · rw [if_neg matched, ih]

theorem Covers.substitute {pattern other : Line → Bool} {replacement : Line}
    {read : Line → Option α} {file : List Line} (covers : Covers pattern read file)
    (keeps : pattern replacement = true) :
    Covers pattern read (substitute other replacement file) := by
  obtain ⟨⟨line, member, here⟩, all⟩ := covers
  constructor
  · refine ⟨if other line then replacement else line, List.mem_map.mpr ⟨line, member, rfl⟩, ?_⟩
    split
    · exact keeps
    · exact here
  · intro new member understood
    obtain ⟨old, inside, rfl⟩ := List.mem_map.mp member
    split
    next => exact keeps
    next unmatched =>
      rw [if_neg unmatched] at understood
      exact all old inside understood

theorem Covers.substitute_of_other {pattern other : Line → Bool} {replacement : Line}
    {read : Line → Option α} {file : List Line} (covers : Covers pattern read file)
    (different : ∀ line, pattern line = true → other line ≠ true) (blank : read replacement = none) :
    Covers pattern read (Build.substitute other replacement file) := by
  obtain ⟨⟨line, member, here⟩, all⟩ := covers
  constructor
  · refine ⟨line, List.mem_map.mpr ⟨line, member, ?_⟩, here⟩
    rw [if_neg (different line here)]
  · intro new member understood
    obtain ⟨old, inside, rfl⟩ := List.mem_map.mp member
    split
    next matched =>
      rw [if_pos matched, blank] at understood
      cases understood
    next unmatched =>
      rw [if_neg unmatched] at understood
      exact all old inside understood

end Uc1Integration.Build
