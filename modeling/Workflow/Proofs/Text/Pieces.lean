import Workflow.Text.Split

/-!
# The parts of a text between marks

Joined with the mark, the parts of a text give the text again (`intercalate_pieces`).  So the parts of
one text are the first parts of another just if the other text is the same or goes on with a mark
(`pieces_prefix_iff`).  Where a text goes on with anything else, its last part goes on as well
(`pieces_append`).
-/

namespace Workflow
namespace Text

theorem pieces_eq_splitOn (mark : Char) (text : List Char) :
    pieces mark text = text.splitOn mark := by
  induction text with
  | nil => rfl
  | cons c rest ih =>
      rw [pieces, List.splitOn_cons_eq_if_modifyHead, ih]
      by_cases hc : c = mark
      · rw [if_pos hc, if_pos (beq_iff_eq.mpr hc)]
      · rw [if_neg hc, if_neg (mt beq_iff_eq.mp hc)]
        cases hrest : rest.splitOn mark with
        | nil => exact absurd hrest (List.splitOn_ne_nil mark rest)
        | cons first others => rfl

theorem pieces_ne_nil (mark : Char) (text : List Char) : pieces mark text ≠ [] :=
  pieces_eq_splitOn mark text ▸ List.splitOn_ne_nil mark text

/-- Joined with the mark, the parts of a text give the text again. -/
@[simp] theorem intercalate_pieces (mark : Char) (text : List Char) :
    [mark].intercalate (pieces mark text) = text := by
  rw [pieces_eq_splitOn, List.intercalate_splitOn]

/-- At a mark the parts of a text end, and those of what follows begin. -/
@[simp] theorem pieces_append_mark (mark : Char) (text rest : List Char) :
    pieces mark (text ++ mark :: rest) = pieces mark text ++ pieces mark rest := by
  simp only [pieces_eq_splitOn, List.splitOn_append_cons_self]

/-- A character that is no mark goes into the first part. -/
theorem pieces_cons_of_ne {mark c : Char} (h : c ≠ mark) (rest : List Char) :
    ∃ first others, pieces mark (c :: rest) = (c :: first) :: others := by
  obtain ⟨first, others, heq⟩ := List.exists_cons_of_ne_nil (pieces_ne_nil mark rest)
  exact ⟨first, others, by rw [pieces, if_neg h, heq]⟩

theorem intercalate_append {sep : List Char} {xs ys : List (List Char)} (hxs : xs ≠ [])
    (hys : ys ≠ []) :
    sep.intercalate (xs ++ ys) = sep.intercalate xs ++ sep ++ sep.intercalate ys := by
  induction xs with
  | nil => exact absurd rfl hxs
  | cons x rest ih =>
      cases rest with
      | nil => simp [List.intercalate_cons_of_ne_nil hys, List.intercalate_singleton]
      | cons y rest =>
          have hne : y :: rest ++ ys ≠ [] := List.cons_ne_nil y (rest ++ ys)
          rw [List.cons_append, List.intercalate_cons_of_ne_nil hne, ih (List.cons_ne_nil y rest),
            List.intercalate_cons_cons]
          simp only [List.append_assoc]

/-- The parts of one text are the first parts of another just if the other text is the same or goes
on with a mark. -/
theorem pieces_prefix_iff {mark : Char} {text other : List Char} :
    pieces mark text <+: pieces mark other ↔
      other = text ∨ ∃ rest, other = text ++ mark :: rest := by
  constructor
  · rintro ⟨more, hmore⟩
    have hother := intercalate_pieces mark other
    rw [← hmore] at hother
    cases more with
    | nil => exact Or.inl (by simpa using hother.symm)
    | cons first others =>
        rw [intercalate_append (pieces_ne_nil mark text) (List.cons_ne_nil first others)] at hother
        exact Or.inr ⟨_, by simpa using hother.symm⟩
  · rintro (rfl | ⟨rest, rfl⟩)
    · exact List.prefix_refl _
    · simp

/-- The last part of a text and the first part of what follows it are one part of the whole. -/
theorem pieces_append (mark : Char) (text rest : List Char) :
    ∃ before last first after, pieces mark text = before ++ [last] ∧
      pieces mark rest = first :: after ∧
      pieces mark (text ++ rest) = before ++ (last ++ first) :: after := by
  induction text with
  | nil =>
      obtain ⟨first, after, hrest⟩ := List.exists_cons_of_ne_nil (pieces_ne_nil mark rest)
      exact ⟨[], [], first, after, rfl, hrest, hrest⟩
  | cons c text ih =>
      obtain ⟨before, last, first, after, htext, hrest, happend⟩ := ih
      rw [List.cons_append, pieces, htext, pieces, happend]
      by_cases hc : c = mark
      · rw [if_pos hc, if_pos hc]
        exact ⟨[] :: before, last, first, after, rfl, hrest, rfl⟩
      · rw [if_neg hc, if_neg hc]
        cases before with
        | nil => exact ⟨[], c :: last, first, after, rfl, hrest, rfl⟩
        | cons b before => exact ⟨(c :: b) :: before, last, first, after, rfl, hrest, rfl⟩

end Text
end Workflow
