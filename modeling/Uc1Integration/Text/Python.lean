import Mathlib.Data.List.DropRight
import Mathlib.Data.List.Infix

/-!
# Text as Python reads it

The lines of a text file and the methods of `str` that take them apart, on lists
of characters.
-/

set_option autoImplicit false

namespace Uc1Integration.Text

/-- `str.isspace` of one character. -/
def isSpace (c : Char) : Bool :=
  let code := c.toNat
  (0x09 ≤ code && code ≤ 0x0D) || (0x1C ≤ code && code ≤ 0x20) || code == 0x85 || code == 0xA0 ||
    code == 0x1680 || (0x2000 ≤ code && code ≤ 0x200A) || code == 0x2028 || code == 0x2029 ||
    code == 0x202F || code == 0x205F || code == 0x3000

/-- `str.strip()`. -/
def strip (text : List Char) : List Char :=
  (text.dropWhile isSpace).rdropWhile isSpace

/-- `str.split()`. -/
def split (text : List Char) : List (List Char) :=
  (text.splitOnP isSpace).filter fun part => !part.isEmpty

/-- Every line end is read as a newline; `afterReturn` tells that the last one read
was a carriage return, which a newline belongs to. -/
def translate : Bool → List Char → List Char
  | _, [] => []
  | afterReturn, c :: rest =>
      if c = '\r' then '\n' :: translate true rest
      else if c = '\n' ∧ afterReturn then translate false rest
      else c :: translate false rest

def universalNewlines (text : List Char) : List Char :=
  translate false text

/-- The lines of a text, each with the newline that ends it. -/
def fileLines : List Char → List (List Char)
  | [] => []
  | c :: rest =>
      if c = '\n' then [c] :: fileLines rest
      else
        match fileLines rest with
        | [] => [[c]]
        | line :: later => (c :: line) :: later

section Lines

theorem translate_of_not_mem {text : List Char} (none : '\r' ∉ text) :
    translate false text = text := by
  induction text with
  | nil => rfl
  | cons c rest ih =>
      rw [translate, if_neg (List.ne_of_not_mem_cons none).symm, if_neg (by simp),
        ih (List.not_mem_of_not_mem_cons none)]

theorem fileLines_cons {c : Char} {rest line : List Char} {later : List (List Char)}
    (inside : c ≠ '\n') (lines : fileLines rest = line :: later) :
    fileLines (c :: rest) = (c :: line) :: later := by
  rw [fileLines, if_neg inside, lines]

theorem fileLines_line {line : List Char} (inside : '\n' ∉ line) (rest : List Char) :
    fileLines (line ++ '\n' :: rest) = (line ++ ['\n']) :: fileLines rest := by
  induction line with
  | nil => rw [List.nil_append, fileLines, if_pos rfl, List.nil_append]
  | cons c line ih =>
      exact fileLines_cons (List.ne_of_not_mem_cons inside).symm
        (ih (List.not_mem_of_not_mem_cons inside))

theorem fileLines_unlines {lines : List (List Char)} (inside : ∀ line ∈ lines, '\n' ∉ line) :
    fileLines (lines.flatMap (· ++ ['\n'])) = lines.map (· ++ ['\n']) := by
  induction lines with
  | nil => rfl
  | cons line lines ih =>
      rw [List.flatMap_cons, List.append_assoc, List.singleton_append,
        fileLines_line (inside line List.mem_cons_self), List.map_cons,
        ih fun other member => inside other (List.mem_cons_of_mem _ member)]

/-- A further newline ends the last line, or is a line of its own behind it. -/
theorem fileLines_concat (text : List Char) :
    fileLines (text ++ ['\n']) = fileLines text ++ [['\n']] ∨
      ∃ earlier last, fileLines text = earlier ++ [last] ∧
        fileLines (text ++ ['\n']) = earlier ++ [last ++ ['\n']] := by
  induction text with
  | nil => exact .inl rfl
  | cons c rest ih =>
      by_cases ends : c = '\n'
      · rw [List.cons_append, fileLines, fileLines, if_pos ends, if_pos ends]
        rcases ih with apart | ⟨earlier, last, before, behind⟩
        · exact .inl (by rw [apart, List.cons_append])
        · exact .inr ⟨[c] :: earlier, last, by rw [before, List.cons_append],
            by rw [behind, List.cons_append]⟩
      · rcases ih with apart | ⟨earlier, last, before, behind⟩
        · cases lines : fileLines rest with
          | nil =>
              rw [lines] at apart
              refine .inr ⟨[], [c], ?_, fileLines_cons ends apart⟩
              rw [fileLines, if_neg ends, lines, List.nil_append]
          | cons line later =>
              rw [lines] at apart
              left
              rw [fileLines_cons ends lines]
              exact fileLines_cons ends apart
        · right
          cases earlier with
          | nil => exact ⟨[], c :: last, fileLines_cons ends before, fileLines_cons ends behind⟩
          | cons first earlier =>
              exact ⟨(c :: first) :: earlier, last, fileLines_cons ends before,
                fileLines_cons ends behind⟩

end Lines

section Strip

/-- Text that begins and ends with a character that is no space. -/
def Solid (text : List Char) : Prop :=
  text.head?.map isSpace = some false ∧ text.getLast?.map isSpace = some false

instance (text : List Char) : Decidable (Solid text) :=
  inferInstanceAs (Decidable (_ ∧ _))

theorem strip_append_spaces {spaces : List Char} (blank : ∀ c ∈ spaces, isSpace c = true)
    (text : List Char) : strip (text ++ spaces) = strip text := by
  have trailing : ∀ front : List Char,
      (front ++ spaces).rdropWhile isSpace = front.rdropWhile isSpace := by
    intro front
    rw [List.rdropWhile, List.reverse_append, List.dropWhile_append_of_pos]
    · rfl
    · exact fun c member => blank c (List.mem_reverse.mp member)
  rw [strip, strip, List.dropWhile_append]
  split
  next empty =>
    have nothing : spaces.dropWhile isSpace = [] := List.dropWhile_eq_nil_iff.mpr blank
    rw [nothing, List.isEmpty_iff.mp empty]
  next => exact trailing _

theorem strip_solid {spaces solid : List Char} (blank : ∀ c ∈ spaces, isSpace c = true)
    (isSolid : Solid solid) (rest : List Char) :
    strip (spaces ++ (solid ++ rest)) = solid ++ rest.rdropWhile isSpace := by
  obtain ⟨begins, ends⟩ := isSolid
  have front : (spaces ++ (solid ++ rest)).dropWhile isSpace = solid ++ rest := by
    rw [List.dropWhile_append_of_pos blank]
    cases solid with
    | nil => cases begins
    | cons c solid => exact List.dropWhile_cons_of_neg (by simpa using begins)
  have back : solid.reverse.dropWhile isSpace = solid.reverse := by
    rw [← List.head?_reverse] at ends
    cases reversed : solid.reverse with
    | nil => rfl
    | cons c init =>
        rw [reversed] at ends
        exact List.dropWhile_cons_of_neg (by simpa using ends)
  rw [strip, front, List.rdropWhile, List.reverse_append, List.dropWhile_append, List.rdropWhile]
  split
  next empty =>
    rw [back, List.reverse_reverse, List.isEmpty_iff.mp empty, List.reverse_nil, List.append_nil]
  next => rw [List.reverse_append, List.reverse_reverse]

theorem strip_spaces {spaces : List Char} (blank : ∀ c ∈ spaces, isSpace c = true) :
    strip spaces = [] := by
  rw [← List.nil_append spaces, strip_append_spaces blank]
  rfl

end Strip

/-- What is left when a text is split is all but its spaces. -/
theorem flatten_split (text : List Char) :
    (split text).flatten = text.filter fun c => !isSpace c := by
  rw [split, List.flatten_filter_not_isEmpty]
  induction text with
  | nil => rfl
  | cons c rest ih =>
      rw [List.splitOnP_cons_eq_if_modifyHead]
      cases parts : rest.splitOnP isSpace with
      | nil => exact absurd parts (List.splitOnP_ne_nil _ _)
      | cons part later =>
          rw [parts] at ih
          cases space : isSpace c <;> simp [space, ← ih]

/-- What comes before the first separator. -/
theorem head_splitOn {separator : Char} {first : List Char} (without : separator ∉ first)
    (rest : List Char) : ((first ++ separator :: rest).splitOn separator).headD [] = first := by
  rw [List.splitOn_append_cons_self_of_not_mem without]
  rfl

end Uc1Integration.Text
