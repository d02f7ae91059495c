import Mathlib.Data.List.Infix

/-!
# Streams cut at terminators

A stream is cut where a terminator follows at least one item. A terminator that
follows none is taken for an item of what comes next.
-/

set_option autoImplicit false

namespace Uc1Integration.Text

structure Segments (α : Type) where
  done : List (List α)
  current : List α

variable {α : Type} (ends : α → Bool)

def Segments.add (segments : Segments α) (item : α) : Segments α :=
  if ends item = true ∧ segments.current ≠ [] then
    ⟨segments.done ++ [segments.current], []⟩
  else ⟨segments.done, segments.current ++ [item]⟩

def segmentsFrom (segments : Segments α) (stream : List α) : Segments α :=
  stream.foldl (Segments.add ends) segments

def segments (stream : List α) : Segments α :=
  segmentsFrom ends ⟨[], []⟩ stream

/-- The stream is each cut segment with its terminator, and then the current one. -/
def Segments.Covers (cut : Segments α) (stream : List α) : Prop :=
  ∃ ended : List (List α × α), ended.map Prod.fst = cut.done ∧
    (∀ segment ∈ ended, ends segment.2 = true) ∧
    stream = ended.flatMap (fun segment => segment.1 ++ [segment.2]) ++ cut.current

/-- The runs of items before each terminator. -/
def terminated (stream : List α) : List (List α) :=
  (stream.splitOnP ends).dropLast

/-- Every terminated run but the last holds an item. -/
def FullLines (stream : List α) : Prop :=
  ∀ line ∈ (terminated ends stream).dropLast, line ≠ []

variable {ends}

theorem segmentsFrom_append (before : Segments α) (stream later : List α) :
    segmentsFrom ends before (stream ++ later) =
      segmentsFrom ends (segmentsFrom ends before stream) later :=
  List.foldl_append

theorem Segments.Covers.add {cut : Segments α} {stream : List α} (covers : cut.Covers ends stream)
    (item : α) : (cut.add ends item).Covers ends (stream ++ [item]) := by
  obtain ⟨ended, done, terminators, rfl⟩ := covers
  rw [Segments.add]
  split
  next cuts =>
    refine ⟨ended ++ [(cut.current, item)], ?_, ?_, ?_⟩
    · rw [List.map_append, done]
      rfl
    · intro segment member
      rcases List.mem_append.mp member with before | here
      · exact terminators segment before
      · rw [List.mem_singleton.mp here]
        exact cuts.1
    · rw [List.flatMap_append, List.flatMap_singleton, List.append_nil, List.append_assoc]
  next => exact ⟨ended, done, terminators, List.append_assoc _ _ _⟩

theorem covers_segments (stream : List α) : (segments ends stream).Covers ends stream := by
  induction stream using List.reverseRecOn with
  | nil => exact ⟨[], rfl, fun segment member => absurd member List.not_mem_nil, rfl⟩
  | append_singleton stream item ih =>
      rw [segments, segmentsFrom_append]
      exact ih.add item

theorem segmentsFrom_items {stream : List α} (items : ∀ item ∈ stream, ends item = false)
    (before : Segments α) :
    segmentsFrom ends before stream = ⟨before.done, before.current ++ stream⟩ := by
  induction stream generalizing before with
  | nil =>
      rw [List.append_nil]
      rfl
  | cons item stream ih =>
      have step : segmentsFrom ends before (item :: stream) =
          segmentsFrom ends (before.add ends item) stream := rfl
      have here : ¬ (ends item = true ∧ before.current ≠ []) := by
        simp [items item List.mem_cons_self]
      rw [step, Segments.add, if_neg here,
        ih (fun other member => items other (List.mem_cons_of_mem _ member)), List.append_assoc,
        List.singleton_append]

/-- A terminator behind some item cuts. -/
theorem segmentsFrom_cut {separator : α} (cuts : ends separator = true) {before : Segments α}
    (some : before.current ≠ []) (stream : List α) :
    segmentsFrom ends before (separator :: stream) =
      segmentsFrom ends ⟨before.done ++ [before.current], []⟩ stream := by
  have step : segmentsFrom ends before (separator :: stream) =
      segmentsFrom ends (before.add ends separator) stream := rfl
  rw [step, Segments.add, if_pos ⟨cuts, some⟩]

theorem segmentsFrom_start (done : List (List α)) (item : α) (stream : List α) :
    segmentsFrom ends ⟨done, []⟩ (item :: stream) = segmentsFrom ends ⟨done, [item]⟩ stream := by
  have step : segmentsFrom ends ⟨done, []⟩ (item :: stream) =
      segmentsFrom ends (Segments.add ends ⟨done, []⟩ item) stream := rfl
  rw [step, Segments.add, if_neg fun both => both.2 rfl, List.nil_append]

/-- What was cut before is in front of what is cut later. -/
theorem done_segmentsFrom (done : List (List α)) (current stream : List α) :
    (segmentsFrom ends ⟨done, current⟩ stream).done =
      done ++ (segmentsFrom ends ⟨[], current⟩ stream).done := by
  induction stream generalizing done current with
  | nil => exact (List.append_nil done).symm
  | cons item stream ih =>
      have step : ∀ done, segmentsFrom ends ⟨done, current⟩ (item :: stream) =
          segmentsFrom ends (Segments.add ends ⟨done, current⟩ item) stream := fun _ => rfl
      rw [step, step, Segments.add, Segments.add]
      by_cases cuts : ends item = true ∧ current ≠ []
      · rw [if_pos cuts, if_pos cuts, ih, ih ([] ++ _), List.nil_append, List.append_assoc]
      · rw [if_neg cuts, if_neg cuts, ih]

/-- A stream has no terminator, or a first one. -/
theorem lines_induction (ends : α → Bool) {motive : List α → Prop}
    (unended : ∀ stream, (∀ item ∈ stream, ends item = false) → motive stream)
    (ended : ∀ line separator rest, (∀ item ∈ line, ends item = false) →
      ends separator = true → motive rest → motive (line ++ separator :: rest))
    (stream : List α) : motive stream := by
  suffices front : ∀ line, (∀ item ∈ line, ends item = false) → motive (line ++ stream) from
    front [] fun item member => absurd member List.not_mem_nil
  induction stream with
  | nil =>
      intro line items
      rw [List.append_nil]
      exact unended line items
  | cons item stream ih =>
      intro line items
      cases cuts : ends item with
      | false =>
          rw [← List.singleton_append, ← List.append_assoc]
          apply ih
          intro other member
          rcases List.mem_append.mp member with before | here
          · exact items other before
          · rw [List.mem_singleton.mp here]
            exact cuts
      | true =>
          exact ended line item stream items cuts
            (ih [] fun other member => absurd member List.not_mem_nil)

section Terminated

theorem terminated_unended {stream : List α} (items : ∀ item ∈ stream, ends item = false) :
    terminated ends stream = [] := by
  rw [terminated, List.splitOnP_eq_singleton items]
  rfl

theorem terminated_ended {line : List α} {separator : α} {rest : List α}
    (items : ∀ item ∈ line, ends item = false) (cuts : ends separator = true) :
    terminated ends (line ++ separator :: rest) = line :: terminated ends rest := by
  rw [terminated, List.splitOnP_append_cons_of_forall_mem items separator cuts]
  exact List.dropLast_cons_of_ne_nil (List.splitOnP_ne_nil _ _)

theorem items_of_terminated (stream : List α) :
    ∀ line ∈ terminated ends stream, ∀ item ∈ line, ends item = false := by
  induction stream using lines_induction ends with
  | unended stream items =>
      rw [terminated_unended items]
      exact fun line member => absurd member List.not_mem_nil
  | ended line separator rest items cuts ih =>
      rw [terminated_ended items cuts, List.forall_mem_cons]
      exact ⟨items, ih⟩

theorem ended_cases (ends : α → Bool) (stream : List α) :
    (∀ item ∈ stream, ends item = false) ∨
      ∃ line separator rest, stream = line ++ separator :: rest ∧
        (∀ item ∈ line, ends item = false) ∧ ends separator = true := by
  induction stream using lines_induction ends with
  | unended stream items => exact .inl items
  | ended line separator rest items cuts => exact .inr ⟨line, separator, rest, rfl, items, cuts⟩

end Terminated

/-- A line that is not the last to be terminated must hold an item. -/
theorem fullLines_ended {line : List α} {separator : α} {rest : List α}
    (items : ∀ item ∈ line, ends item = false) (cuts : ends separator = true) :
    FullLines ends (line ++ separator :: rest) ↔
      (line ≠ [] ∨ ∀ item ∈ rest, ends item = false) ∧ FullLines ends rest := by
  rw [FullLines, terminated_ended items cuts]
  rcases ended_cases ends rest with restItems | ⟨next, separator', later, rfl, nextItems, cuts'⟩
  · rw [FullLines, terminated_unended restItems]
    constructor
    · exact fun _ => ⟨.inr restItems, fun line member => absurd member List.not_mem_nil⟩
    · exact fun _ line member => absurd member List.not_mem_nil
  · have further : ¬ ∀ item ∈ next ++ separator' :: later, ends item = false := by
      intro all
      have here := all separator' (List.mem_append_right _ List.mem_cons_self)
      rw [cuts'] at here
      cases here
    rw [FullLines, terminated_ended nextItems cuts',
      List.dropLast_cons_of_ne_nil (List.cons_ne_nil _ _), List.forall_mem_cons,
      or_iff_left further]

/-- Where no empty line is followed by a terminator the segments are the lines. -/
theorem segments_of_fullLines (stream : List α) (full : FullLines ends stream) :
    (segments ends stream).done = (terminated ends stream).filter (· ≠ []) := by
  induction stream using lines_induction ends with
  | unended stream items =>
      rw [segments, segmentsFrom_items items, terminated_unended items]
      rfl
  | ended line separator rest items cuts ih =>
      obtain ⟨fullLine, fullRest⟩ := (fullLines_ended items cuts).mp full
      rw [terminated_ended items cuts, segments, segmentsFrom_append, segmentsFrom_items items,
        List.nil_append]
      by_cases empty : line = []
      · have last := fullLine.resolve_left (not_not.mpr empty)
        rw [empty, segmentsFrom_start, segmentsFrom_items last, terminated_unended last]
        rfl
      · rw [segmentsFrom_cut cuts empty, done_segmentsFrom, List.filter_cons,
          if_pos (decide_eq_true empty), ← ih fullRest]
        rfl

/-- Where one is, a segment begins with a terminator. -/
theorem exists_segment_of_not_fullLines (stream : List α) (not : ¬ FullLines ends stream) :
    ∃ separator later, ends separator = true ∧
      separator :: later ∈ (segments ends stream).done := by
  induction stream using lines_induction ends with
  | unended stream items =>
      rw [FullLines, terminated_unended items] at not
      exact absurd (fun line member => absurd member List.not_mem_nil) not
  | ended line separator rest items cuts ih =>
      rw [segments, segmentsFrom_append, segmentsFrom_items items, List.nil_append]
      by_cases empty : line = []
      · -- The terminator of the empty line begins what the next one cuts.
        rw [empty, segmentsFrom_start]
        rcases ended_cases ends rest with restItems | ⟨next, separator', later, rfl, nextItems, cuts'⟩
        · rw [fullLines_ended items cuts, FullLines, terminated_unended restItems] at not
          exact absurd ⟨.inr restItems, fun line member => absurd member List.not_mem_nil⟩ not
        · have begun : (separator :: next : List α) ≠ [] := List.cons_ne_nil _ _
          refine ⟨separator, next, cuts, ?_⟩
          rw [segmentsFrom_append, segmentsFrom_items nextItems, List.singleton_append,
            segmentsFrom_cut cuts' begun, done_segmentsFrom]
          exact List.mem_append_left _ (List.mem_append_right _ List.mem_cons_self)
      · have notRest : ¬ FullLines ends rest := by
          intro fullRest
          exact not ((fullLines_ended items cuts).mpr ⟨.inl empty, fullRest⟩)
        obtain ⟨separator', later, cuts', member⟩ := ih notRest
        refine ⟨separator', later, cuts', ?_⟩
        rw [segmentsFrom_cut cuts empty, done_segmentsFrom]
        exact List.mem_append_right _ member

end Uc1Integration.Text
