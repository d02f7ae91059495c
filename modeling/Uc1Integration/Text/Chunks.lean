import Uc1Integration.Text.Segments

/-! Streams cut behind every terminator: a chunk ends with its terminator. -/

set_option autoImplicit false

namespace Uc1Integration.Text

variable {α : Type} (ends : α → Bool)

def Segments.close (cut : Segments α) (item : α) : Segments α :=
  if ends item then ⟨cut.done ++ [cut.current ++ [item]], []⟩
  else ⟨cut.done, cut.current ++ [item]⟩

def chunks (stream : List α) : Segments α :=
  stream.foldl (Segments.close ends) ⟨[], []⟩

/-- The chunks make up the stream, and a terminator stands at the end of each only. -/
structure Segments.Chunks (cut : Segments α) (stream : List α) : Prop where
  whole : cut.done.flatten ++ cut.current = stream
  done : ∀ chunk ∈ cut.done, ∃ body item, chunk = body ++ [item] ∧ ends item = true ∧
    ∀ other ∈ body, ends other = false
  current : ∀ item ∈ cut.current, ends item = false

variable {ends}

theorem chunks_snoc (stream : List α) (item : α) :
    chunks ends (stream ++ [item]) = (chunks ends stream).close ends item :=
  List.foldl_concat ..

theorem Segments.Chunks.close {cut : Segments α} {stream : List α} (are : cut.Chunks ends stream)
    (item : α) : (cut.close ends item).Chunks ends (stream ++ [item]) := by
  rw [Segments.close]
  split
  next terminates =>
    constructor
    · rw [List.flatten_append, List.flatten_singleton, List.append_nil, ← List.append_assoc,
        are.whole]
    · intro chunk member
      rcases List.mem_append.mp member with before | here
      · exact are.done chunk before
      · rw [List.mem_singleton.mp here]
        exact ⟨cut.current, item, rfl, terminates, are.current⟩
    · exact fun _ member => absurd member List.not_mem_nil
  next goesOn =>
    constructor
    · rw [← List.append_assoc, are.whole]
    · exact are.done
    · intro other member
      rcases List.mem_append.mp member with before | here
      · exact are.current other before
      · rw [List.mem_singleton.mp here]
        exact Bool.eq_false_iff.mpr goesOn

end Uc1Integration.Text
