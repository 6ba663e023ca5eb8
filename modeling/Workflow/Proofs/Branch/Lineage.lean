import Workflow.Branch.Path
import Workflow.Proofs.Text.Pieces

/-!
# The order of branch paths

By characters or by whole arms, being the start of a path is an order (`isPrefix_refl`,
`isPrefix_trans`, `isPrefix_antisymm`).  The paths that are the start of a path are starts of one
another (`isPrefix_or_isPrefix`), and the parent of a path is one of them (`isPrefix_parent`).  A path
that is the start of another is the start of its parent, or both have one parent
(`isPrefix_parent_or`).  So paths of which neither is the start of the other go on to paths with one
parent only if that is their own parent (`Apart.parent_eq`).
-/

namespace Workflow
namespace Branch

/-! ## Parents -/

theorem parent_of_notMem {path : String} (h : '_' ∉ path.toList) : parent path = "" := by
  rw [parent, Text.cutLast_eq_none h]

/-- The parent of a path is what stands before its last arm. -/
theorem parent_of_append {path : String} {before last : List Char}
    (hpath : path.toList = before ++ '_' :: last) (hlast : '_' ∉ last) :
    (parent path).toList = before := by
  rw [parent, hpath, Text.cutLast_append before hlast, String.toList_ofList]

/-- A path is a single arm, or it is put together from its parent and its last arm. -/
theorem parent_cases (path : String) :
    ('_' ∉ path.toList ∧ parent path = "") ∨
      ∃ last, '_' ∉ last ∧ path.toList = (parent path).toList ++ '_' :: last := by
  by_cases h : '_' ∈ path.toList
  · obtain ⟨before, last, hpath, hlast⟩ := Text.exists_cutLast h
    refine Or.inr ⟨last, hlast, ?_⟩
    rw [parent_of_append hpath hlast, hpath]
  · exact Or.inl ⟨h, parent_of_notMem h⟩

/-- But for the empty path, the parent of a path is shorter. -/
theorem length_parent_lt {path : String} (h : path ≠ "") :
    (parent path).toList.length < path.toList.length := by
  rcases parent_cases path with ⟨_, hempty⟩ | ⟨last, _, hpath⟩
  · rw [hempty]
    exact List.length_pos_iff.mpr (mt String.toList_eq_nil_iff.mp h)
  · rw [hpath, List.length_append, List.length_cons]
    omega

/-! ## Starts of paths -/

namespace PathMatching

@[simp] theorem isPrefix_literal_iff {start path : String} :
    literal.isPrefix start path = true ↔ start.toList <+: path.toList :=
  List.isPrefixOf_iff_prefix

/-- By whole arms, the starts of a path are the empty path, the path itself, and what stands before
one of its underscores. -/
theorem isPrefix_segmented_iff {start path : String} :
    segmented.isPrefix start path = true ↔
      start = "" ∨ path = start ∨ ∃ rest, path.toList = start.toList ++ '_' :: rest := by
  rw [isPrefix, Bool.or_eq_true, String.isEmpty_iff, List.isPrefixOf_iff_prefix, arms, arms,
    Text.pieces_prefix_iff, String.toList_inj]

@[simp] theorem isPrefix_empty (matching : PathMatching) (path : String) :
    matching.isPrefix "" path = true := by
  cases matching with
  | literal => simp
  | segmented => exact isPrefix_segmented_iff.mpr (Or.inl rfl)

@[simp] theorem isPrefix_refl (matching : PathMatching) (path : String) :
    matching.isPrefix path path = true := by
  cases matching with
  | literal => simp
  | segmented => exact isPrefix_segmented_iff.mpr (Or.inr (Or.inl rfl))

/-- A start by whole arms is a start by characters. -/
theorem isPrefix_literal_of_segmented {start path : String}
    (h : segmented.isPrefix start path = true) : literal.isPrefix start path = true := by
  rw [isPrefix_literal_iff]
  rcases isPrefix_segmented_iff.mp h with rfl | rfl | ⟨rest, hpath⟩
  · exact List.nil_prefix
  · exact List.prefix_refl path.toList
  · exact ⟨'_' :: rest, hpath.symm⟩

theorem isPrefix_trans {matching : PathMatching} {a b c : String}
    (hab : matching.isPrefix a b = true) (hbc : matching.isPrefix b c = true) :
    matching.isPrefix a c = true := by
  cases matching with
  | literal =>
      exact isPrefix_literal_iff.mpr
        ((isPrefix_literal_iff.mp hab).trans (isPrefix_literal_iff.mp hbc))
  | segmented =>
      rw [isPrefix_segmented_iff] at hab hbc ⊢
      rcases hab with rfl | rfl | ⟨rest, hb⟩
      · exact Or.inl rfl
      · exact hbc
      · rcases hbc with rfl | rfl | ⟨others, hc⟩
        · simp at hb
        · exact Or.inr (Or.inr ⟨rest, hb⟩)
        · exact Or.inr (Or.inr ⟨rest ++ '_' :: others, by rw [hc, hb, List.append_assoc]; rfl⟩)

/-- In either way to match, the characters of a start are the first of the path. -/
theorem toList_isPrefix {matching : PathMatching} {start path : String}
    (h : matching.isPrefix start path = true) : start.toList <+: path.toList := by
  cases matching with
  | literal => exact isPrefix_literal_iff.mp h
  | segmented => exact isPrefix_literal_iff.mp (isPrefix_literal_of_segmented h)

/-- Paths that are the start of each other are the same. -/
theorem isPrefix_antisymm {matching : PathMatching} {a b : String}
    (hab : matching.isPrefix a b = true) (hba : matching.isPrefix b a = true) : a = b := by
  have hlength := (toList_isPrefix hba).length_le
  exact String.toList_inj.mp ((toList_isPrefix hab).eq_of_length_le hlength)

/-- Two starts of one path are starts of one another. -/
theorem isPrefix_or_isPrefix {matching : PathMatching} {a b path : String}
    (ha : matching.isPrefix a path = true) (hb : matching.isPrefix b path = true) :
    matching.isPrefix a b = true ∨ matching.isPrefix b a = true := by
  cases matching with
  | literal =>
      simp only [isPrefix_literal_iff] at ha hb ⊢
      exact List.prefix_or_prefix_of_prefix ha hb
  | segmented =>
      simp only [isPrefix, Bool.or_eq_true, List.isPrefixOf_iff_prefix] at ha hb ⊢
      rcases ha with ha | ha
      · exact Or.inl (Or.inl ha)
      · rcases hb with hb | hb
        · exact Or.inr (Or.inl hb)
        · exact (List.prefix_or_prefix_of_prefix ha hb).imp Or.inr Or.inr

/-- The parent of a path is a start of it. -/
@[simp] theorem isPrefix_parent (matching : PathMatching) (path : String) :
    matching.isPrefix (parent path) path = true := by
  rcases parent_cases path with ⟨_, hempty⟩ | ⟨last, _, hpath⟩
  · simp [hempty]
  · cases matching with
    | literal => simp [hpath]
    | segmented => exact isPrefix_segmented_iff.mpr (Or.inr (Or.inr ⟨last, hpath⟩))

/-- The start of a path is the start of its parent, or it ends within the last arm. -/
theorem isPrefix_literal_parent_or {start path : String}
    (h : literal.isPrefix start path = true) :
    literal.isPrefix start (parent path) = true ∨ parent start = parent path := by
  rw [isPrefix_literal_iff] at h ⊢
  rcases parent_cases path with ⟨hnone, hempty⟩ | ⟨last, hlast, hpath⟩
  · exact Or.inr (by rw [hempty, parent_of_notMem fun hmem => hnone (h.subset hmem)])
  · obtain ⟨rest, hrest⟩ := h
    rw [hpath] at hrest
    rcases List.append_eq_append_iff.mp hrest with ⟨more, hmore, _⟩ | ⟨more, hmore, hend⟩
    · exact Or.inl ⟨more, hmore.symm⟩
    · cases more with
      | nil => exact Or.inl ⟨[], by simpa using hmore⟩
      | cons c more =>
          obtain ⟨rfl, rfl⟩ := List.cons.inj hend
          have hshort : '_' ∉ more := fun hmem => hlast (List.mem_append_left rest hmem)
          exact Or.inr (String.toList_inj.mp (parent_of_append hmore hshort))

/-- By whole arms, nothing lies between a path and its parent. -/
theorem isPrefix_segmented_parent_of_ne {start path : String}
    (h : segmented.isPrefix start path = true) (hne : start ≠ path) :
    segmented.isPrefix start (parent path) = true := by
  rcases isPrefix_segmented_iff.mp h with rfl | rfl | ⟨rest, hpath⟩
  · exact isPrefix_empty segmented (parent path)
  · exact absurd rfl hne
  · by_cases hrest : '_' ∈ rest
    · obtain ⟨before, last, rfl, hlast⟩ := Text.exists_cutLast hrest
      rw [← List.cons_append, ← List.append_assoc] at hpath
      exact isPrefix_segmented_iff.mpr (Or.inr (Or.inr ⟨before, parent_of_append hpath hlast⟩))
    · rw [String.toList_inj.mp (parent_of_append hpath hrest)]
      exact isPrefix_refl segmented start

/-- The start of a path is the start of its parent, or both paths have one parent. -/
theorem isPrefix_parent_or {matching : PathMatching} {start path : String}
    (h : matching.isPrefix start path = true) :
    matching.isPrefix start (parent path) = true ∨ parent start = parent path := by
  cases matching with
  | literal => exact isPrefix_literal_parent_or h
  | segmented =>
      by_cases heq : start = path
      · exact Or.inr (congrArg parent heq)
      · exact Or.inl (isPrefix_segmented_parent_of_ne h heq)

/-! ## Paths apart -/

/-- Two paths are apart if neither is the start of the other. -/
def Apart (matching : PathMatching) (a b : String) : Prop :=
  matching.isPrefix a b = false ∧ matching.isPrefix b a = false

theorem Apart.symm {matching : PathMatching} {a b : String} (h : matching.Apart a b) :
    matching.Apart b a :=
  ⟨h.2, h.1⟩

/-- No path goes on from two paths that are apart. -/
theorem Apart.not_isPrefix {matching : PathMatching} {a b path : String} (h : matching.Apart a b)
    (ha : matching.isPrefix a path = true) : matching.isPrefix b path = false := by
  rw [Bool.eq_false_iff]
  intro hb
  rcases isPrefix_or_isPrefix ha hb with hab | hba
  · exact absurd hab (Bool.eq_false_iff.mp h.1)
  · exact absurd hba (Bool.eq_false_iff.mp h.2)

/-- If paths that are apart go on to paths with one parent, then that is their own parent. -/
theorem Apart.parent_eq {matching : PathMatching} {a b below other : String}
    (h : matching.Apart a b) (ha : matching.isPrefix a below = true)
    (hb : matching.isPrefix b other = true) (hparent : parent below = parent other) :
    parent a = parent below := by
  rcases isPrefix_parent_or ha with hstart | heq
  · -- The common parent would go on from both paths.
    rw [hparent] at hstart
    have hother := isPrefix_trans hstart (isPrefix_parent matching other)
    exact absurd hb (Bool.eq_false_iff.mp (h.not_isPrefix hother))
  · exact heq

end PathMatching
end Branch
end Workflow
