import Workflow.Proofs.Branch.Classification

/-!
# The tree of branch paths

By whole arms, the paths form a tree.  Its root is the empty path, and right above any other path is
its parent (`isTreeOrder_segmented`).  So what lies above a path is reached from it by going up from
parent to parent (`IsTreeOrder.above_iff_exists_iterate`).
-/

namespace Workflow
namespace Branch

/-- An order is that of a tree: above all is the root, what lies above a member is a chain, and the
next above a member is its parent.  The root is its own parent. -/
structure IsTreeOrder {α : Type} (above : α → α → Prop) (root : α) (parent : α → α) : Prop where
  refl (a : α) : above a a
  trans {a b c : α} (hab : above a b) (hbc : above b c) : above a c
  antisymm {a b : α} (hab : above a b) (hba : above b a) : a = b
  root_above (a : α) : above root a
  chain {a b c : α} (ha : above a c) (hb : above b c) : above a b ∨ above b a
  parent_root : parent root = root
  parent_above (a : α) : above (parent a) a
  parent_ne {a : α} (h : a ≠ root) : parent a ≠ a
  above_parent {a b : α} (h : above a b) (hne : a ≠ b) : above a (parent b)

section Trees

variable {α : Type} {above : α → α → Prop} {root : α} {parent : α → α}

/-- Going up from parent to parent stays above. -/
theorem IsTreeOrder.iterate_above (h : IsTreeOrder above root parent) (n : Nat) (a : α) :
    above (parent^[n] a) a := by
  induction n generalizing a with
  | zero => exact h.refl a
  | succ n ih => exact h.trans (ih (parent a)) (h.parent_above a)

/-- Only the root is above the root. -/
theorem IsTreeOrder.eq_root (h : IsTreeOrder above root parent) {a : α} (ha : above a root) :
    a = root :=
  h.antisymm ha (h.root_above a)

/-- If the way up from each member is finite, then it passes all that lies above. -/
theorem IsTreeOrder.above_iff_exists_iterate (h : IsTreeOrder above root parent) (depth : α → Nat)
    (hdepth : ∀ a, a ≠ root → depth (parent a) < depth a) {a b : α} :
    above a b ↔ ∃ n, parent^[n] b = a := by
  constructor
  · intro hab
    -- The way up is shorter from the parent.
    induction hlength : depth b using Nat.strong_induction_on generalizing b with
    | _ length ih =>
        by_cases heq : a = b
        · exact ⟨0, heq.symm⟩
        · have hroot : b ≠ root := fun hroot => heq ((h.eq_root (hroot ▸ hab)).trans hroot.symm)
          have hup := hlength ▸ hdepth b hroot
          obtain ⟨n, hn⟩ := ih (depth (parent b)) hup (h.above_parent hab heq) rfl
          exact ⟨n + 1, hn⟩
  · rintro ⟨n, rfl⟩
    exact h.iterate_above n b

end Trees

open PathMatching

theorem isTreeOrder_isPrefix :
    IsTreeOrder (fun start path => segmented.isPrefix start path = true) "" parent where
  refl := isPrefix_refl segmented
  trans := isPrefix_trans
  antisymm := isPrefix_antisymm
  root_above := isPrefix_empty segmented
  chain := isPrefix_or_isPrefix
  parent_root := parent_of_notMem List.not_mem_nil
  parent_above := isPrefix_parent segmented
  parent_ne h heq := absurd (length_parent_lt h) (by rw [heq]; exact lt_irrefl _)
  above_parent := isPrefix_segmented_parent_of_ne

/-- **The tree of paths.**  By whole arms, the starts of a path are the empty path, the path itself,
and what stands before one of its underscores.  They are what lies above it in a tree, and so the
path, its parent, the parent of that, and so on up to the empty path. -/
theorem isTreeOrder_segmented (start path : String) :
    (segmented.isPrefix start path = true ↔
      start = "" ∨ path = start ∨ ∃ rest, path = start ++ "_" ++ rest) ∧
    (segmented.isPrefix start path = true ↔ ∃ n, parent^[n] path = start) ∧
    IsTreeOrder (fun start path => segmented.isPrefix start path = true) "" parent :=
  ⟨isPrefix_iff_isStart,
    isTreeOrder_isPrefix.above_iff_exists_iterate (fun path => path.toList.length)
      fun _ h => length_parent_lt h,
    isTreeOrder_isPrefix⟩

/-- Underscores side by side have an empty arm between them. -/
example : parent "a__b" = "a_" ∧ parent "a_" = "a" ∧ segmented.isPrefix "a_" "a__b" = true ∧
    segmented.isPrefix "a_" "a_b" = false := by
  decide

end Branch
end Workflow
