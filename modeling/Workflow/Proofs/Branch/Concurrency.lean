import Mathlib
import Workflow.Branch.Concurrency
import Workflow.Proofs.Branch.Lineage

/-!
# Which branches are concurrent

Two paths are concurrent if they are apart and no merge joins them (`isConcurrent_iff`).  In what
order the merges come has no say in this, so that it makes no difference that they are sorted
(`concurrentPairs_eq`).  A merge that joins two paths joins whatever goes on from them
(`areConcurrent_below`).
-/

namespace Workflow
namespace Branch

/-! ## Merges -/

section Merges

variable {matching : PathMatching} {merges : List String} {a b : String}

/-- A merge joins two paths: it is their common parent, or, if their parents differ, the start of
both. -/
theorem isMerged_iff :
    isMerged matching merges a b = true ↔
      (parent a = parent b ∧ parent a ∈ merges) ∨
      (parent a ≠ parent b ∧ ∃ merge ∈ merges,
        matching.isPrefix merge a = true ∧ matching.isPrefix merge b = true) := by
  unfold isMerged
  by_cases h : parent a = parent b
  · simp only [h, if_true, List.contains_iff_mem, true_and, ne_eq, not_true, false_and, or_false]
  · simp only [h, if_false, false_and, ne_eq, not_false_iff, true_and, false_or, List.any_eq_true,
      Bool.and_eq_true]

theorem isConcurrent_iff :
    isConcurrent matching merges a b = true ↔
      matching.Apart a b ∧ isMerged matching merges a b = false := by
  simp only [isConcurrent, Bool.and_eq_true, Bool.not_eq_true', PathMatching.Apart]

theorem isMerged_symm (h : isMerged matching merges a b = true) :
    isMerged matching merges b a = true := by
  rw [isMerged_iff] at h ⊢
  rcases h with ⟨heq, hmem⟩ | ⟨hne, merge, hmerge, ha, hb⟩
  · exact Or.inl ⟨heq.symm, heq ▸ hmem⟩
  · exact Or.inr ⟨hne.symm, merge, hmerge, hb, ha⟩

/-- Only which merges there are has a say, and not how often or in what order they come. -/
theorem isMerged_congr {others : List String} (h : ∀ merge, merge ∈ merges ↔ merge ∈ others) :
    isMerged matching merges a b = isMerged matching others a b := by
  rw [Bool.eq_iff_iff, isMerged_iff, isMerged_iff]
  simp only [h]

/-- A merge that joins two paths that are apart joins whatever goes on from them. -/
theorem isMerged_below {below other : String} (hapart : matching.Apart a b)
    (h : isMerged matching merges a b = true) (ha : matching.isPrefix a below = true)
    (hb : matching.isPrefix b other = true) : isMerged matching merges below other = true := by
  rw [isMerged_iff] at h ⊢
  by_cases hparent : parent below = parent other
  · -- Paths with one parent below can only be siblings that have gone on within their last arms.
    have hbelow : parent a = parent below := hapart.parent_eq ha hb hparent
    have hother : parent b = parent other := hapart.symm.parent_eq hb ha hparent.symm
    have hsiblings : parent a = parent b := by rw [hbelow, hparent, hother]
    rcases h with ⟨_, hmem⟩ | ⟨hne, _⟩
    · exact Or.inl ⟨hparent, hbelow ▸ hmem⟩
    · exact absurd hsiblings hne
  · refine Or.inr ⟨hparent, ?_⟩
    rcases h with ⟨heq, hmem⟩ | ⟨_, merge, hmerge, hstart, hstart'⟩
    · have hparentA := PathMatching.isPrefix_parent matching a
      have hparentB := PathMatching.isPrefix_parent matching b
      rw [← heq] at hparentB
      exact ⟨parent a, hmem, PathMatching.isPrefix_trans hparentA ha,
        PathMatching.isPrefix_trans hparentB hb⟩
    · exact ⟨merge, hmerge, PathMatching.isPrefix_trans hstart ha,
        PathMatching.isPrefix_trans hstart' hb⟩

end Merges

/-! ## Records -/

/-- The members of a pair are members of the list. -/
theorem mem_of_mem_pairs {α : Type} {xs : List α} {x y : α} (h : (x, y) ∈ pairs xs) :
    x ∈ xs ∧ y ∈ xs := by
  induction xs with
  | nil => exact absurd h List.not_mem_nil
  | cons z rest ih =>
      rcases List.mem_append.mp h with hhead | hrest
      · obtain ⟨w, hw, heq⟩ := List.mem_map.mp hhead
        obtain ⟨rfl, rfl⟩ := Prod.mk.inj heq
        exact ⟨List.mem_cons_self, List.mem_cons_of_mem _ hw⟩
      · exact ⟨List.mem_cons_of_mem z (ih hrest).1, List.mem_cons_of_mem z (ih hrest).2⟩

section Records

variable (settings : Settings) (merges : List Record)

/-- Sorting the merges changes nothing. -/
@[simp] theorem areConcurrent_byDepth (a b : Record) :
    areConcurrent settings (byDepth merges) a b = areConcurrent settings merges a b := by
  have hpaths : ∀ path, path ∈ (byDepth merges).map Record.branch ↔
      path ∈ merges.map Record.branch := by
    intro path
    simp only [List.mem_map, byDepth, List.mem_mergeSort]
  rw [areConcurrent, areConcurrent, isConcurrent, isConcurrent, isMerged_congr hpaths]

theorem concurrentPairs_eq (fanOut : List Record) :
    concurrentPairs settings fanOut merges =
      (pairs fanOut).filter fun (a, b) => areConcurrent settings merges a b := by
  simp [concurrentPairs]

/-- A merge that joins two records joins all records below them. -/
theorem isMerged_of_areConcurrent_eq_false {a b : Record}
    (hapart : settings.matching.Apart a.branch b.branch)
    (h : areConcurrent settings merges a b = false) :
    isMerged settings.matching (merges.map Record.branch) a.branch b.branch = true := by
  rw [← Bool.not_eq_false]
  intro hmerged
  rw [areConcurrent, isConcurrent_iff.mpr ⟨hapart, hmerged⟩] at h
  cases h

/-- **A merge stays in force further down.**  If a merge keeps the nodes of two records with paths
apart from running at the same time, then it keeps those of any two records below them from it. -/
theorem areConcurrent_below {a b below other : Record}
    (hapart : settings.matching.Apart a.branch b.branch)
    (h : areConcurrent settings merges a b = false)
    (ha : settings.matching.isPrefix a.branch below.branch = true)
    (hb : settings.matching.isPrefix b.branch other.branch = true) :
    areConcurrent settings merges below other = false ∧
      areConcurrent settings merges other below = false ∧
      ∀ fanOut, (below, other) ∉ concurrentPairs settings fanOut merges ∧
        (other, below) ∉ concurrentPairs settings fanOut merges := by
  have hmerged := isMerged_below hapart
    (isMerged_of_areConcurrent_eq_false settings merges hapart h) ha hb
  have hdown : areConcurrent settings merges below other = false := by
    rw [areConcurrent, isConcurrent, hmerged, Bool.not_true, Bool.and_false]
  have hback : areConcurrent settings merges other below = false := by
    rw [areConcurrent, isConcurrent, isMerged_symm hmerged, Bool.not_true, Bool.and_false]
  refine ⟨hdown, hback, fun fanOut => ?_⟩
  simp only [concurrentPairs_eq, List.mem_filter, hdown, hback, Bool.false_eq_true, and_false,
    not_false_iff, and_self]

end Records

/-- A merge at the root joins `_x` and `y`, which have the empty path for their parent, and so it
joins a record below the one and a record below the other. -/
theorem areConcurrent_below_root :
    let settings : Settings := { matching := .segmented }
    let merges : List Record := [⟨"", "merge"⟩]
    let a : Record := ⟨"_x", "a"⟩
    let b : Record := ⟨"y", "b"⟩
    let below : Record := ⟨"_x_0", "below"⟩
    let other : Record := ⟨"y_1", "other"⟩
    settings.matching.Apart a.branch b.branch ∧ areConcurrent settings merges a b = false ∧
      settings.matching.isPrefix a.branch below.branch = true ∧
      settings.matching.isPrefix b.branch other.branch = true ∧
      parent below.branch ≠ parent other.branch ∧
      (other, below) ∉ concurrentPairs settings [other, below] merges := by
  intro settings merges a b below other
  have hapart : settings.matching.Apart a.branch b.branch := by
    constructor <;> cbv
  have h : areConcurrent settings merges a b = false := by cbv
  have ha : settings.matching.isPrefix a.branch below.branch = true := by cbv
  have hb : settings.matching.isPrefix b.branch other.branch = true := by cbv
  refine ⟨hapart, h, ha, hb, by decide, ?_⟩
  exact ((areConcurrent_below settings merges hapart h ha hb).2.2 [other, below]).2

end Branch
end Workflow
