import Mathlib.Data.List.Infix

/-! Lines that end at their first separator, and what a stream of them begins with. -/

set_option autoImplicit false

namespace Uc1Integration.Text

variable {α : Type} {separator : α}

def IsLine (separator : α) (line : List α) : Prop :=
  ∃ body, separator ∉ body ∧ line = body ++ [separator]

theorem IsLine.drop {line : List α} (isLine : IsLine separator line) {count : Nat}
    (inside : count < line.length) : IsLine separator (line.drop count) := by
  obtain ⟨body, without, rfl⟩ := isLine
  rw [List.length_append, List.length_singleton] at inside
  refine ⟨body.drop count, fun member => without (List.mem_of_mem_drop member), ?_⟩
  exact List.drop_append_of_le_length (by omega)

theorem prefix_append_inj_of_not_mem {one two first second : List α} (without : separator ∉ one)
    (without' : separator ∉ two)
    (begins : one ++ separator :: first <+: two ++ separator :: second) :
    one = two ∧ first <+: second := by
  induction one generalizing two with
  | nil =>
      cases two with
      | nil => exact ⟨rfl, (List.cons_prefix_cons.mp begins).2⟩
      | cons item two =>
          have same := (List.cons_prefix_cons.mp begins).1
          exact absurd same (List.ne_of_not_mem_cons without')
  | cons item one ih =>
      cases two with
      | nil =>
          have same := (List.cons_prefix_cons.mp begins).1
          exact absurd same.symm (List.ne_of_not_mem_cons without)
      | cons other two =>
          obtain ⟨rfl, later⟩ := List.cons_prefix_cons.mp begins
          obtain ⟨rfl, rest⟩ := ih (List.not_mem_of_not_mem_cons without)
            (List.not_mem_of_not_mem_cons without') later
          exact ⟨rfl, rest⟩

/-- Whole lines at the head of other lines are the first of these. -/
theorem lines_prefix_of_flatten {first second : List (List α)} {part : List α}
    (lines : ∀ line ∈ first, IsLine separator line)
    (lines' : ∀ line ∈ second, IsLine separator line)
    (begins : first.flatten ++ part <+: second.flatten) : first <+: second := by
  induction first generalizing second with
  | nil => exact List.nil_prefix
  | cons line first ih =>
      rw [List.forall_mem_cons] at lines
      obtain ⟨⟨body, without, rfl⟩, later⟩ := lines
      cases second with
      | nil => simp at begins
      | cons line' second =>
          rw [List.forall_mem_cons] at lines'
          obtain ⟨⟨body', without', rfl⟩, later'⟩ := lines'
          simp only [List.flatten_cons, List.append_assoc, List.singleton_append] at begins
          obtain ⟨rfl, rest⟩ := prefix_append_inj_of_not_mem without without' begins
          exact List.cons_prefix_cons.mpr ⟨rfl, ih later later' rest⟩

section Count

variable [BEq α] [LawfulBEq α]

theorem IsLine.count {line : List α} (isLine : IsLine separator line) :
    line.count separator = 1 := by
  obtain ⟨body, without, rfl⟩ := isLine
  rw [List.count_append, List.count_eq_zero.mpr without, List.count_singleton_self]

theorem count_flatten {lines : List (List α)} (all : ∀ line ∈ lines, IsLine separator line) :
    lines.flatten.count separator = lines.length := by
  induction lines with
  | nil => rfl
  | cons line lines ih =>
      rw [List.forall_mem_cons] at all
      rw [List.flatten_cons, List.count_append, all.1.count, ih all.2, List.length_cons,
        Nat.add_comm]

/-- A whole line behind the end of another is the one after as many as have ended. -/
theorem line_of_flatten {lines : List (List α)} (all : ∀ line ∈ lines, IsLine separator line)
    {front line : List α} (isLine : IsLine separator line)
    (ends : ∀ item ∈ front.getLast?, item = separator) (begins : front ++ line <+: lines.flatten) :
    lines[front.count separator]? = some line := by
  induction lines generalizing front with
  | nil =>
      obtain ⟨body, _, rfl⟩ := isLine
      simp at begins
  | cons first lines ih =>
      obtain ⟨⟨body, without, rfl⟩, later⟩ := List.forall_mem_cons.mp all
      simp only [List.flatten_cons, List.append_assoc, List.singleton_append] at begins
      rcases List.eq_nil_or_concat front with rfl | ⟨initial, item, rfl⟩
      · obtain ⟨body', without', rfl⟩ := isLine
        obtain ⟨rfl, _⟩ := prefix_append_inj_of_not_mem without' without begins
        rfl
      · have ended : item = separator := ends item (by simp)
        have inside : separator ∈ initial.concat item := by simp [ended]
        obtain ⟨one, rest, split, clean⟩ := List.eq_append_cons_of_mem inside
        rw [split, List.append_assoc, List.cons_append] at begins
        obtain ⟨rfl, onward⟩ := prefix_append_inj_of_not_mem clean without begins
        have ends' : ∀ last ∈ rest.getLast?, last = separator := by
          intro last member
          obtain ⟨before, rfl⟩ := List.getLast?_eq_some_iff.mp member
          rw [split] at ends
          exact ends last (List.getLast?_eq_some_iff.mpr ⟨one ++ separator :: before, by simp⟩)
        rw [split, List.count_append, List.count_eq_zero.mpr clean, List.count_cons_self,
          Nat.zero_add, List.getElem?_cons_succ]
        exact ih later ends' onward

/-- Behind a part of a stream the line in hand goes on to its end, if there is one. -/
theorem exists_rest_of_line {part whole : List α} (begins : part <+: whole)
    (more : part.count separator < whole.count separator) :
    ∃ rest, separator ∉ rest ∧ part ++ (rest ++ [separator]) <+: whole := by
  obtain ⟨behind, rfl⟩ := begins
  rw [List.count_append] at more
  have ends : separator ∈ behind := List.count_pos_iff.mp (by omega)
  obtain ⟨rest, later, rfl, without⟩ := List.eq_append_cons_of_mem ends
  exact ⟨rest, without, later, by simp⟩

end Count

end Uc1Integration.Text
