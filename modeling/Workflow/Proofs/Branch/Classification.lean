import Workflow.Proofs.Branch.Matching

/-!
# The classification of branches

The concurrent pairs are those that a plain reading of the rules allows (`MayRunTogether`), in the
order of their places among the records, and the reported nodes are theirs in order of first
appearance (`IsClassified`).  Of the merges only their paths have a say, and more of them leave fewer
pairs; the order of the records has a say in the order of the result alone, and more of them leave
more pairs (`classify_isClassified`).
-/

namespace Workflow
namespace Branch

/-! ## Pairs of a list -/

section Pairs

variable {α β : Type}

@[simp] theorem pairs_map (f : α → β) (xs : List α) :
    pairs (xs.map f) = (pairs xs).map fun pair => (f pair.1, f pair.2) := by
  induction xs with
  | nil => rfl
  | cons x rest ih =>
      rw [List.map_cons, pairs, pairs, ih, List.map_append, List.map_map, List.map_map]
      rfl

/-- A list with more members has more pairs. -/
theorem pairs_sublist {xs ys : List α} (h : xs.Sublist ys) : (pairs xs).Sublist (pairs ys) := by
  induction h with
  | slnil => exact List.Sublist.refl []
  | cons y _ ih => exact ih.trans (List.sublist_append_right _ _)
  | cons_cons x h ih => exact (h.map _).append ih

/-- In an ascending list the first member of a pair is less than the second. -/
theorem mem_pairs_iff [Preorder α] {xs : List α} (h : xs.Pairwise (· < ·)) {x y : α} :
    (x, y) ∈ pairs xs ↔ x ∈ xs ∧ y ∈ xs ∧ x < y := by
  induction xs with
  | nil => simp [pairs]
  | cons z rest ih =>
      obtain ⟨hleast, hrest⟩ := List.pairwise_cons.mp h
      rw [pairs, List.mem_append, ih hrest]
      constructor
      · rintro (hhead | ⟨hx, hy, hlt⟩)
        · obtain ⟨w, hw, heq⟩ := List.mem_map.mp hhead
          obtain ⟨rfl, rfl⟩ := Prod.mk.inj heq
          exact ⟨List.mem_cons_self, List.mem_cons_of_mem _ hw, hleast w hw⟩
        · exact ⟨List.mem_cons_of_mem z hx, List.mem_cons_of_mem z hy, hlt⟩
      · rintro ⟨hx, hy, hlt⟩
        rcases List.mem_cons.mp hx with rfl | hxrest
        · rcases List.mem_cons.mp hy with rfl | hyrest
          · exact absurd hlt (lt_irrefl y)
          · exact Or.inl (List.mem_map_of_mem hyrest)
        · rcases List.mem_cons.mp hy with rfl | hyrest
          · exact absurd (hleast x hxrest) (lt_asymm hlt)
          · exact Or.inr ⟨hxrest, hyrest, hlt⟩

/-- The pairs of an ascending list ascend, by the first member and then by the second. -/
theorem pairwise_pairs [Preorder α] {xs : List α} (h : xs.Pairwise (· < ·)) :
    (pairs xs).Pairwise (Prod.Lex (· < ·) (· < ·)) := by
  induction xs with
  | nil => exact List.Pairwise.nil
  | cons x rest ih =>
      obtain ⟨hleast, hrest⟩ := List.pairwise_cons.mp h
      rw [pairs, List.pairwise_append, List.pairwise_map]
      refine ⟨hrest.imp fun hlt => Prod.Lex.right x hlt, ih hrest, ?_⟩
      intro pair hpair later hlater
      obtain ⟨y, _, rfl⟩ := List.mem_map.mp hpair
      exact Prod.Lex.left _ _ (hleast later.1 (mem_of_mem_pairs hlater).1)

/-- A pair without an order of its members. -/
def unordered (pair : α × α) : Sym2 α :=
  s(pair.1, pair.2)

/-- Another order of the members makes another order of the pairs, and of the members in them. -/
theorem pairs_perm {xs ys : List α} (h : xs.Perm ys) :
    ((pairs xs).map unordered).Perm ((pairs ys).map unordered) := by
  induction h with
  | nil => exact List.Perm.refl []
  | cons x h ih =>
      simp only [pairs, List.map_append]
      exact ((h.map _).map _).append ih
  | swap x y rest =>
      have hswap : unordered (y, x) = unordered (x, y) := Sym2.eq_swap
      simp only [pairs, List.map_append, List.map_cons, List.cons_append, hswap]
      exact (List.perm_append_comm_assoc _ _ _).cons _
  | trans _ _ ih ih' => exact ih.trans ih'

end Pairs

/-! ## The rules -/

/-- One path is the start of another: some of its characters from the left, or, by whole arms, all of
it, all before one of its underscores, or nothing. -/
def PathMatching.IsStart : PathMatching → String → String → Prop
  | literal, start, path => ∃ rest, path = start ++ rest
  | segmented, start, path => start = "" ∨ path = start ∨ ∃ rest, path = start ++ "_" ++ rest

theorem PathMatching.isPrefix_iff_isStart {matching : PathMatching} {start path : String} :
    matching.isPrefix start path = true ↔ matching.IsStart start path := by
  cases matching with
  | literal =>
      rw [isPrefix_literal_iff]
      constructor
      · rintro ⟨rest, hrest⟩
        exact ⟨String.ofList rest, String.toList_inj.mp (by simp [hrest])⟩
      · rintro ⟨rest, rfl⟩
        exact ⟨rest.toList, by simp⟩
  | segmented =>
      rw [isPrefix_segmented_iff, IsStart]
      refine or_congr_right (or_congr_right ⟨?_, ?_⟩)
      · rintro ⟨rest, hrest⟩
        exact ⟨String.ofList rest, String.toList_inj.mp (by simp [hrest])⟩
      · rintro ⟨rest, rfl⟩
        exact ⟨rest.toList, by simp⟩

/-- The decision that a path starts from: all before the last underscore, or nothing without one. -/
def IsParent (path decision : String) : Prop :=
  ('_' ∉ path.toList ∧ decision = "") ∨
    ∃ last, '_' ∉ last.toList ∧ path = decision ++ "_" ++ last

theorem parent_eq_iff {path decision : String} : parent path = decision ↔ IsParent path decision := by
  constructor
  · rintro rfl
    rcases parent_cases path with hsingle | ⟨last, hlast, hpath⟩
    · exact Or.inl hsingle
    · exact Or.inr ⟨String.ofList last, by simpa using hlast, String.toList_inj.mp (by simp [hpath])⟩
  · rintro (⟨hnone, rfl⟩ | ⟨last, hlast, rfl⟩)
    · exact parent_of_notMem hnone
    · exact String.toList_inj.mp (parent_of_append (by simp) hlast)

/-- The nodes of two records may run at the same time. -/
structure MayRunTogether (matching : PathMatching) (merges : List Record) (a b : Record) : Prop where
  apart : ¬matching.IsStart a.branch b.branch ∧ ¬matching.IsStart b.branch a.branch
  /-- Paths that start from one decision are not merged there. -/
  siblings : ∀ decision, IsParent a.branch decision → IsParent b.branch decision →
    ∀ merge ∈ merges, merge.branch ≠ decision
  /-- No merge lies on both of two paths that start from different decisions. -/
  strangers : (∀ decision, IsParent a.branch decision → ¬IsParent b.branch decision) →
    ∀ merge ∈ merges,
      ¬(matching.IsStart merge.branch a.branch ∧ matching.IsStart merge.branch b.branch)

theorem areConcurrent_iff {settings : Settings} {merges : List Record} {a b : Record} :
    areConcurrent settings merges a b = true ↔ MayRunTogether settings.matching merges a b := by
  have hapart : settings.matching.Apart a.branch b.branch ↔
      ¬settings.matching.IsStart a.branch b.branch ∧
        ¬settings.matching.IsStart b.branch a.branch := by
    simp only [PathMatching.Apart, ← PathMatching.isPrefix_iff_isStart, Bool.not_eq_true]
  rw [areConcurrent, isConcurrent_iff, hapart, ← Bool.not_eq_true, isMerged_iff]
  simp only [List.mem_map, PathMatching.isPrefix_iff_isStart]
  constructor
  · rintro ⟨h, hmerged⟩
    refine ⟨h, fun decision ha hb merge hmerge heq => hmerged ?_, fun hne merge hmerge hboth => ?_⟩
    · have hparent := (parent_eq_iff.mpr ha).trans (parent_eq_iff.mpr hb).symm
      exact Or.inl ⟨hparent, merge, hmerge, heq.trans (parent_eq_iff.mpr ha).symm⟩
    · refine hmerged (Or.inr ⟨fun heq => ?_, merge.branch, ⟨merge, hmerge, rfl⟩, hboth⟩)
      exact hne _ (parent_eq_iff.mp rfl) (parent_eq_iff.mp heq.symm)
  · intro h
    refine ⟨h.apart, ?_⟩
    rintro (⟨hparent, merge, hmerge, heq⟩ | ⟨hne, _, ⟨merge, hmerge, rfl⟩, hboth⟩)
    · exact h.siblings _ (parent_eq_iff.mp rfl) (parent_eq_iff.mp hparent.symm) merge hmerge heq
    · refine h.strangers (fun decision ha hb => hne ?_) merge hmerge hboth
      exact (parent_eq_iff.mpr ha).trans (parent_eq_iff.mpr hb).symm

/-! ## The result -/

/-- The ids of the nodes in some pairs, as they stand there. -/
def nodeIds (found : List (Record × Record)) : List String :=
  found.flatMap fun pair => [pair.1.nodeId, pair.2.nodeId]

/-- Some pairs and ids are the result of the classification. -/
structure IsClassified (matching : PathMatching) (fanOut merges : List Record)
    (found : List (Record × Record)) (ids : List String) : Prop where
  /-- The pairs stand at the places that the rules allow, in ascending order of the places. -/
  pairs : ∃ places : List (Fin fanOut.length × Fin fanOut.length),
    places.Pairwise (Prod.Lex (· < ·) (· < ·)) ∧
      (∀ i j, (i, j) ∈ places ↔ i < j ∧ MayRunTogether matching merges fanOut[i] fanOut[j]) ∧
      found = places.map fun place => (fanOut[place.1], fanOut[place.2])
  nodup : ids.Nodup
  mem_iff : ∀ id, id ∈ ids ↔ id ∈ nodeIds found
  /-- The ids come in the order in which the pairs first mention them. -/
  order : ids.Pairwise fun a b => (nodeIds found).idxOf a < (nodeIds found).idxOf b

theorem classify_eq (settings : Settings) (fanOut merges : List Record) :
    classify settings fanOut merges =
      fresh [] (nodeIds (concurrentPairs settings fanOut merges)) :=
  rfl

theorem isClassified (settings : Settings) (fanOut merges : List Record) :
    IsClassified settings.matching fanOut merges (concurrentPairs settings fanOut merges)
      (classify settings fanOut merges) := by
  have hascending : (List.finRange fanOut.length).Pairwise (· < ·) :=
    List.pairwise_lt_finRange fanOut.length
  have hplaces : pairs fanOut = (pairs (List.finRange fanOut.length)).map fun place =>
      (fanOut[place.1], fanOut[place.2]) :=
    calc pairs fanOut
        = pairs ((List.finRange fanOut.length).map fun place => fanOut[place]) :=
          congrArg pairs (List.map_getElem_finRange fanOut).symm
      _ = _ := pairs_map (fun place : Fin fanOut.length => fanOut[place]) _
  refine ⟨⟨(pairs (List.finRange fanOut.length)).filter fun place =>
    areConcurrent settings merges fanOut[place.1] fanOut[place.2], ?_, ?_, ?_⟩, ?_, ?_, ?_⟩
  · exact (pairwise_pairs hascending).filter _
  · intro i j
    rw [List.mem_filter, mem_pairs_iff hascending, areConcurrent_iff]
    simp only [List.mem_finRange, true_and]
  · rw [concurrentPairs_eq, hplaces, List.filter_map]
    rfl
  · exact classify_eq settings fanOut merges ▸ nodup_fresh [] _
  · intro id
    simp [classify_eq]
  · exact classify_eq settings fanOut merges ▸ pairwise_fresh [] _

/-! ## Other merges and other records -/

/-- More merges join more paths. -/
theorem isMerged_mono {matching : PathMatching} {merges others : List String} {a b : String}
    (h : ∀ merge ∈ merges, merge ∈ others) (hmerged : isMerged matching merges a b = true) :
    isMerged matching others a b = true := by
  rw [isMerged_iff] at hmerged ⊢
  rcases hmerged with ⟨heq, hmem⟩ | ⟨hne, merge, hmerge, hboth⟩
  · exact Or.inl ⟨heq, h _ hmem⟩
  · exact Or.inr ⟨hne, merge, h merge hmerge, hboth⟩

section Others

variable (settings : Settings)

theorem areConcurrent_of_subset {merges others : List Record}
    (h : merges.map Record.branch ⊆ others.map Record.branch) {a b : Record}
    (hconcurrent : areConcurrent settings others a b = true) :
    areConcurrent settings merges a b = true := by
  rw [areConcurrent, isConcurrent_iff, ← Bool.not_eq_true] at hconcurrent ⊢
  exact ⟨hconcurrent.1, fun hmerged => hconcurrent.2 (isMerged_mono (fun _ hmem => h hmem) hmerged)⟩

/-- More merges leave fewer pairs. -/
theorem concurrentPairs_sublist_of_subset (fanOut : List Record) {merges others : List Record}
    (h : merges.map Record.branch ⊆ others.map Record.branch) :
    (concurrentPairs settings fanOut others).Sublist (concurrentPairs settings fanOut merges) := by
  rw [concurrentPairs_eq, concurrentPairs_eq]
  exact List.monotone_filter_right _ fun _ => areConcurrent_of_subset settings h

/-- Of the merges only their paths have a say. -/
theorem concurrentPairs_congr (fanOut : List Record) {merges others : List Record}
    (h : ∀ path, path ∈ merges.map Record.branch ↔ path ∈ others.map Record.branch) :
    concurrentPairs settings fanOut merges = concurrentPairs settings fanOut others := by
  rw [concurrentPairs_eq, concurrentPairs_eq]
  simp only [areConcurrent, isConcurrent, isMerged_congr h]

theorem areConcurrent_symm (merges : List Record) (a b : Record) :
    areConcurrent settings merges a b = areConcurrent settings merges b a := by
  have hmerged : isMerged settings.matching (merges.map Record.branch) a.branch b.branch =
      isMerged settings.matching (merges.map Record.branch) b.branch a.branch :=
    Bool.eq_iff_iff.mpr ⟨isMerged_symm, isMerged_symm⟩
  rw [areConcurrent, areConcurrent, isConcurrent, isConcurrent, hmerged,
    Bool.and_comm (!settings.matching.isPrefix a.branch b.branch)]

variable (merges : List Record)

/-- More records have more pairs. -/
theorem concurrentPairs_sublist {fanOut more : List Record} (h : fanOut.Sublist more) :
    (concurrentPairs settings fanOut merges).Sublist (concurrentPairs settings more merges) := by
  rw [concurrentPairs_eq, concurrentPairs_eq]
  exact (pairs_sublist h).filter _

/-- As the test is symmetric, it can be made on pairs without an order of their members. -/
def areConcurrentUnordered : Sym2 Record → Bool :=
  Sym2.lift ⟨areConcurrent settings merges, areConcurrent_symm settings merges⟩

theorem map_unordered_concurrentPairs (fanOut : List Record) :
    (concurrentPairs settings fanOut merges).map unordered =
      ((pairs fanOut).map unordered).filter (areConcurrentUnordered settings merges) := by
  rw [concurrentPairs_eq, List.filter_map]
  rfl

/-- The order of the records has a say in nothing but the order of the pairs and in them. -/
theorem concurrentPairs_perm {fanOut others : List Record} (h : fanOut.Perm others) :
    ((concurrentPairs settings fanOut merges).map unordered).Perm
      ((concurrentPairs settings others merges).map unordered) := by
  rw [map_unordered_concurrentPairs, map_unordered_concurrentPairs]
  exact (pairs_perm h).filter _

theorem mem_classify_iff_unordered {fanOut : List Record} {id : String} :
    id ∈ classify settings fanOut merges ↔
      ∃ pair ∈ (concurrentPairs settings fanOut merges).map unordered,
        ∃ record ∈ pair, record.nodeId = id := by
  rw [mem_classify_iff]
  constructor
  · rintro ⟨pair, hpair, rfl | rfl⟩
    · exact ⟨_, List.mem_map_of_mem hpair, pair.1, Sym2.mem_mk_left _ _, rfl⟩
    · exact ⟨_, List.mem_map_of_mem hpair, pair.2, Sym2.mem_mk_right _ _, rfl⟩
  · rintro ⟨_, hmem, record, hrecord, rfl⟩
    obtain ⟨pair, hpair, rfl⟩ := List.mem_map.mp hmem
    exact ⟨pair, hpair, (Sym2.mem_iff.mp hrecord).imp (congrArg _) (congrArg _)⟩

end Others

/-- **What the classification finds.**  The pairs and nodes that are found are those that the rules
allow.  They depend on which paths the merges have, and not on how often or in which order they come
or on the nodes there; further merges only take pairs away.  It makes no difference which of two
records comes first, so that in another order the records make the same pairs, each perhaps the other
way round, and the same nodes; further records only bring pairs. -/
theorem classify_isClassified (settings : Settings) (fanOut merges : List Record) :
    IsClassified settings.matching fanOut merges (concurrentPairs settings fanOut merges)
        (classify settings fanOut merges) ∧
      (∀ others, (∀ path, path ∈ merges.map Record.branch ↔ path ∈ others.map Record.branch) →
        concurrentPairs settings fanOut merges = concurrentPairs settings fanOut others ∧
          classify settings fanOut merges = classify settings fanOut others) ∧
      (∀ others, merges.map Record.branch ⊆ others.map Record.branch →
        (concurrentPairs settings fanOut others).Sublist
          (concurrentPairs settings fanOut merges)) ∧
      (∀ a b, areConcurrent settings merges a b = areConcurrent settings merges b a) ∧
      (∀ others, fanOut.Perm others →
        ((concurrentPairs settings fanOut merges).map unordered).Perm
            ((concurrentPairs settings others merges).map unordered) ∧
          ∀ id, id ∈ classify settings fanOut merges ↔ id ∈ classify settings others merges) ∧
      ∀ more, fanOut.Sublist more →
        (concurrentPairs settings fanOut merges).Sublist (concurrentPairs settings more merges) := by
  refine ⟨isClassified settings fanOut merges, fun others h => ?_,
    fun others => concurrentPairs_sublist_of_subset settings fanOut,
    areConcurrent_symm settings merges, fun others h => ?_,
    fun more => concurrentPairs_sublist settings merges⟩
  · have hpairs := concurrentPairs_congr settings fanOut h
    exact ⟨hpairs, by rw [classify, classify, hpairs]⟩
  · have hperm := concurrentPairs_perm settings merges h
    refine ⟨hperm, fun id => ?_⟩
    simp only [mem_classify_iff_unordered, hperm.mem_iff]

/-- Two siblings are merged, and each is concurrent with a record of the same node as the first. -/
theorem classify_isClassified_merged_siblings :
    let fanOut : List Record := [⟨"0_0", "a"⟩, ⟨"0_1", "b"⟩, ⟨"1", "a"⟩]
    let swapped : List Record := [⟨"0_1", "b"⟩, ⟨"0_0", "a"⟩, ⟨"1", "a"⟩]
    let merges : List Record := [⟨"0", "merge"⟩]
    let again : List Record := [⟨"0", "other"⟩, ⟨"0", "merge"⟩]
    let further : List Record := [⟨"0", "merge"⟩, ⟨"", "root"⟩]
    (∀ path, path ∈ merges.map Record.branch ↔ path ∈ again.map Record.branch) ∧
      merges.map Record.branch ⊆ further.map Record.branch ∧ fanOut.Perm swapped ∧
      classify .standard fanOut again = ["a", "b"] ∧
      (concurrentPairs .standard fanOut further).length ≤ 2 ∧
      (∀ id, id ∈ classify .standard swapped merges ↔ id = "a" ∨ id = "b") ∧
      ∀ more, (⟨"0_0", "a"⟩, ⟨"1", "a"⟩) ∈ concurrentPairs .standard (fanOut ++ more) merges := by
  intro fanOut swapped merges again further
  have hagain : ∀ path, path ∈ merges.map Record.branch ↔ path ∈ again.map Record.branch := by
    simp [merges, again]
  have hfurther : merges.map Record.branch ⊆ further.map Record.branch := by
    simp [merges, further]
  have hswapped : fanOut.Perm swapped := List.Perm.swap _ _ _
  have hfound : concurrentPairs .standard fanOut merges =
      [(⟨"0_0", "a"⟩, ⟨"1", "a"⟩), (⟨"0_1", "b"⟩, ⟨"1", "a"⟩)] := by cbv
  have hids : classify .standard fanOut merges = ["a", "b"] := by cbv
  obtain ⟨_, hcongr, hfewer, _, hperm, hmore⟩ := classify_isClassified .standard fanOut merges
  refine ⟨hagain, hfurther, hswapped, ?_, ?_, fun id => ?_, fun more => ?_⟩
  · rw [← (hcongr again hagain).2, hids]
  · have hlength := (hfewer further hfurther).length_le
    rw [hfound] at hlength
    exact hlength
  · rw [← (hperm swapped hswapped).2 id, hids]
    simp
  · refine (hmore (fanOut ++ more) (List.sublist_append_left fanOut more)).subset ?_
    rw [hfound]
    exact List.mem_cons_self

end Branch
end Workflow
