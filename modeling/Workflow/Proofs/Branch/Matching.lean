import Workflow.Proofs.Branch.Concurrency

/-!
# The two ways to match paths

A start of a path by whole arms is one by characters, so that matching by characters finds more
lineages and more merges, and fewer concurrent branches.  Where all arms are of one width, the two
ways to match are the same (`isPrefix_segmented_eq_literal`), and so are the concurrent branches
(`concurrentPairs_literal_sublist`).
-/

namespace Workflow
namespace Branch

/-- The path is empty, or all its arms are of the width `w`.  What a character counts for is left open:
one for each gives the number of characters, `Char.utf8Size` the number of bytes. -/
def IsUniform (width : Char → Nat) (w : Nat) (path : String) : Prop :=
  path = "" ∨ ∀ arm ∈ arms path, (arm.map width).sum = w

instance (width : Char → Nat) (w : Nat) (path : String) : Decidable (IsUniform width w path) :=
  inferInstanceAs (Decidable (_ ∨ _))

section Uniform

variable {width : Char → Nat} {w : Nat} {start path : String}

/-- Among paths with arms of one width, a start by characters ends where an arm ends. -/
theorem isPrefix_segmented_of_literal (hwidth : ∀ c, 0 < width c)
    (hstart : IsUniform width w start) (hpath : IsUniform width w path)
    (h : PathMatching.literal.isPrefix start path = true) :
    PathMatching.segmented.isPrefix start path = true := by
  rcases hstart with rfl | hstart
  · simp
  · rw [PathMatching.isPrefix_segmented_iff]
    obtain ⟨rest, hrest⟩ := PathMatching.isPrefix_literal_iff.mp h
    cases rest with
    | nil => exact Or.inr (Or.inl (String.toList_inj.mp (by simpa using hrest.symm)))
    | cons c rest =>
        by_cases hc : c = '_'
        · exact Or.inr (Or.inr ⟨rest, by rw [← hrest, hc]⟩)
        · exfalso
          rcases hpath with rfl | hpath
          · simp at hrest
          · -- The last arm of the start would go on with `c`, and so be too narrow.
            obtain ⟨before, last, first, after, hlast, hfirst, hglued⟩ :=
              Text.pieces_append '_' start.toList (c :: rest)
            obtain ⟨more, others, hcons⟩ := Text.pieces_cons_of_ne hc rest
            rw [hcons] at hfirst
            obtain ⟨rfl, rfl⟩ := List.cons.inj hfirst
            have hnarrow : (last.map width).sum = w := hstart last (by simp [arms, hlast])
            have hwide : ((last ++ c :: more).map width).sum = w :=
              hpath _ (by simp [arms, ← hrest, hglued])
            rw [List.map_append, List.sum_append_nat, List.map_cons, List.sum_cons] at hwide
            have := hwidth c
            omega

theorem isPrefix_segmented_eq_literal (hwidth : ∀ c, 0 < width c)
    (hstart : IsUniform width w start) (hpath : IsUniform width w path) :
    PathMatching.segmented.isPrefix start path = PathMatching.literal.isPrefix start path :=
  Bool.eq_iff_iff.mpr ⟨PathMatching.isPrefix_literal_of_segmented,
    isPrefix_segmented_of_literal hwidth hstart hpath⟩

end Uniform

section Finer

variable {finer coarser : PathMatching} {merges : List String} {a b : String}

/-- What is merged if fewer starts are found is merged if more are. -/
theorem isMerged_of_finer
    (h : ∀ start ∈ merges, ∀ path ∈ [a, b],
      finer.isPrefix start path = true → coarser.isPrefix start path = true)
    (hmerged : isMerged finer merges a b = true) : isMerged coarser merges a b = true := by
  rw [isMerged_iff] at hmerged ⊢
  rcases hmerged with hsiblings | ⟨hne, merge, hmerge, ha, hb⟩
  · exact Or.inl hsiblings
  · exact Or.inr ⟨hne, merge, hmerge, h merge hmerge a (by simp) ha, h merge hmerge b (by simp) hb⟩

/-- What is concurrent if more starts are found is concurrent if fewer are. -/
theorem isConcurrent_of_coarser
    (h : ∀ start ∈ a :: b :: merges, ∀ path ∈ [a, b],
      finer.isPrefix start path = true → coarser.isPrefix start path = true)
    (hconcurrent : isConcurrent coarser merges a b = true) :
    isConcurrent finer merges a b = true := by
  rw [isConcurrent_iff] at hconcurrent ⊢
  obtain ⟨⟨hab, hba⟩, hmerged⟩ := hconcurrent
  rw [Bool.eq_false_iff] at hab hba hmerged
  have hmerges : ∀ start ∈ merges, ∀ path ∈ [a, b],
      finer.isPrefix start path = true → coarser.isPrefix start path = true :=
    fun start hstart => h start (by simp [hstart])
  exact ⟨⟨Bool.eq_false_iff.mpr fun hstart => hab (h a (by simp) b (by simp) hstart),
      Bool.eq_false_iff.mpr fun hstart => hba (h b (by simp) a (by simp) hstart)⟩,
    Bool.eq_false_iff.mpr fun hfiner => hmerged (isMerged_of_finer hmerges hfiner)⟩

end Finer

/-! ## Records -/

/-- The records that are concurrent by characters are those among the ones concurrent by arms. -/
theorem concurrentPairs_literal_eq_filter (fanOut merges : List Record) :
    concurrentPairs { matching := .literal } fanOut merges =
      (concurrentPairs { matching := .segmented } fanOut merges).filter fun (a, b) =>
        areConcurrent { matching := .literal } merges a b := by
  rw [concurrentPairs_eq, concurrentPairs_eq, List.filter_filter]
  refine List.filter_congr fun pair _ => ?_
  have himp : areConcurrent { matching := .literal } merges pair.1 pair.2 = true →
      areConcurrent { matching := .segmented } merges pair.1 pair.2 = true :=
    isConcurrent_of_coarser fun _ _ _ _ => PathMatching.isPrefix_literal_of_segmented
  rw [Bool.eq_iff_iff, Bool.and_eq_true]
  exact ⟨fun h => ⟨h, himp h⟩, And.left⟩

/-- Where all arms are of one width, both ways to match find the same pairs. -/
theorem concurrentPairs_eq_of_isUniform {width : Char → Nat} {w : Nat} {fanOut merges : List Record}
    (hwidth : ∀ c, 0 < width c)
    (h : ∀ record ∈ fanOut ++ merges, IsUniform width w record.branch) :
    concurrentPairs { matching := .literal } fanOut merges =
      concurrentPairs { matching := .segmented } fanOut merges := by
  rw [concurrentPairs_eq, concurrentPairs_eq]
  refine List.filter_congr fun pair hpair => ?_
  obtain ⟨ha, hb⟩ := mem_of_mem_pairs hpair
  have huniform : ∀ path ∈ pair.1.branch :: pair.2.branch :: merges.map Record.branch,
      IsUniform width w path := by
    intro path hpath
    rcases List.mem_cons.mp hpath with rfl | hpath
    · exact h pair.1 (List.mem_append_left merges ha)
    · rcases List.mem_cons.mp hpath with rfl | hpath
      · exact h pair.2 (List.mem_append_left merges hb)
      · obtain ⟨merge, hmerge, rfl⟩ := List.mem_map.mp hpath
        exact h merge (List.mem_append_right fanOut hmerge)
  have hsame : ∀ start ∈ pair.1.branch :: pair.2.branch :: merges.map Record.branch,
      ∀ path ∈ [pair.1.branch, pair.2.branch],
        PathMatching.segmented.isPrefix start path = PathMatching.literal.isPrefix start path := by
    intro start hstart path hpath
    exact isPrefix_segmented_eq_literal hwidth (huniform start hstart)
      (huniform path (List.mem_append_left (merges.map Record.branch) hpath))
  exact Bool.eq_iff_iff.mpr
    ⟨isConcurrent_of_coarser fun start hstart path hpath => (hsame start hstart path hpath ▸ ·),
      isConcurrent_of_coarser fun start hstart path hpath => (hsame start hstart path hpath ▸ ·)⟩

/-- The nodes that are reported are those of the pairs. -/
theorem mem_classify_iff {settings : Settings} {fanOut merges : List Record} {id : String} :
    id ∈ classify settings fanOut merges ↔
      ∃ pair ∈ concurrentPairs settings fanOut merges, id = pair.1.nodeId ∨ id = pair.2.nodeId := by
  simp [classify]

/-- **Matching by arms and by characters.**  The pairs that are concurrent by characters are
concurrent by arms, in the same order, and so are the nodes.  If all arms of all paths are of one
width, then by characters and by arms the pairs and the nodes are the same. -/
theorem concurrentPairs_literal_sublist (fanOut merges : List Record) :
    let literal : Settings := { matching := .literal }
    let segmented : Settings := { matching := .segmented }
    (concurrentPairs literal fanOut merges).Sublist (concurrentPairs segmented fanOut merges) ∧
      (∀ id ∈ classify literal fanOut merges, id ∈ classify segmented fanOut merges) ∧
      ∀ (width : Char → Nat) (w : Nat), (∀ c, 0 < width c) →
        (∀ record ∈ fanOut ++ merges, IsUniform width w record.branch) →
        concurrentPairs literal fanOut merges = concurrentPairs segmented fanOut merges ∧
          classify literal fanOut merges = classify segmented fanOut merges := by
  intro literal segmented
  have hsublist : (concurrentPairs literal fanOut merges).Sublist
      (concurrentPairs segmented fanOut merges) :=
    concurrentPairs_literal_eq_filter fanOut merges ▸ List.filter_sublist
  refine ⟨hsublist, fun id hid => ?_, fun width w hwidth huniform => ?_⟩
  · obtain ⟨pair, hpair, hnode⟩ := mem_classify_iff.mp hid
    exact mem_classify_iff.mpr ⟨pair, hsublist.subset hpair, hnode⟩
  · have hpairs := concurrentPairs_eq_of_isUniform hwidth huniform
    exact ⟨hpairs, by rw [classify, classify, hpairs]⟩

/-- Arms of two bytes each, some of one character and some of two: two siblings are merged at their
parent, and one of them is concurrent with a cousin. -/
theorem concurrentPairs_literal_sublist_two_bytes :
    let literal : Settings := { matching := .literal }
    let segmented : Settings := { matching := .segmented }
    let fanOut : List Record := [⟨"é_00", "a"⟩, ⟨"é_é", "b"⟩, ⟨"01", "c"⟩, ⟨"", "root"⟩]
    let merges : List Record := [⟨"é", "merge"⟩]
    (∀ c : Char, 0 < c.utf8Size) ∧
      (∀ record ∈ fanOut ++ merges, IsUniform Char.utf8Size 2 record.branch) ∧
      concurrentPairs literal fanOut merges = concurrentPairs segmented fanOut merges ∧
      classify literal fanOut merges = ["a", "c", "b"] ∧
      classify segmented fanOut merges = ["a", "c", "b"] := by
  intro literal segmented fanOut merges
  have hwidth : ∀ c : Char, 0 < c.utf8Size := Char.utf8Size_pos
  have huniform : ∀ record ∈ fanOut ++ merges, IsUniform Char.utf8Size 2 record.branch := by
    decide
  obtain ⟨hpairs, hclassify⟩ :=
    (concurrentPairs_literal_sublist fanOut merges).2.2 Char.utf8Size 2 hwidth huniform
  have hsegmented : classify segmented fanOut merges = ["a", "c", "b"] := by cbv
  exact ⟨hwidth, huniform, hpairs, hclassify.trans hsegmented, hsegmented⟩

end Branch
end Workflow
