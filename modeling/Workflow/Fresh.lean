/-!
# First occurrences

`fresh seen xs` keeps of a list the first occurrence of each member that is not in `seen`.  The
result holds each member once (`nodup_fresh`), holds exactly the unseen members of the list
(`mem_fresh`), in the order in which they first appear (`pairwise_fresh`), and is no longer than the
list (`length_fresh_le`).  `firstRepeated?` finds none just if each member is a first occurrence and
has not been seen (`firstRepeated?_eq_none_iff`), and else the first that is not
(`firstRepeated?_eq_some_iff`).
-/

namespace Workflow

variable {α : Type} [DecidableEq α]

/-- The first occurrence of each member that has not been seen. -/
def fresh (seen : List α) : List α → List α
  | [] => []
  | x :: xs => if x ∈ seen then fresh seen xs else x :: fresh (x :: seen) xs

/-- The first member that has been seen or occurs a second time. -/
def firstRepeated? (seen : List α) : List α → Option α
  | [] => none
  | x :: xs => if x ∈ seen then some x else firstRepeated? (x :: seen) xs

@[simp] theorem mem_fresh {seen xs : List α} {y : α} : y ∈ fresh seen xs ↔ y ∈ xs ∧ y ∉ seen := by
  induction xs generalizing seen with
  | nil => simp [fresh]
  | cons x xs ih =>
      unfold fresh
      split
      · rename_i hx
        rw [ih]
        constructor
        · exact fun ⟨hy, hs⟩ => ⟨List.mem_cons_of_mem _ hy, hs⟩
        · rintro ⟨hy, hs⟩
          rcases List.mem_cons.mp hy with rfl | hy
          · exact absurd hx hs
          · exact ⟨hy, hs⟩
      · rename_i hx
        rw [List.mem_cons, ih]
        by_cases hyx : y = x
        · subst hyx
          simp [hx]
        · simp [hyx]

/-- No member is kept twice. -/
theorem nodup_fresh (seen xs : List α) : (fresh seen xs).Nodup := by
  induction xs generalizing seen with
  | nil => simp [fresh]
  | cons x xs ih =>
      unfold fresh
      split
      · exact ih seen
      · refine List.nodup_cons.mpr ⟨fun h => ?_, ih _⟩
        exact (mem_fresh.mp h).2 List.mem_cons_self

/-- Members come in the order of their first occurrences. -/
theorem pairwise_fresh (seen xs : List α) :
    (fresh seen xs).Pairwise fun a b => xs.idxOf a < xs.idxOf b := by
  induction xs generalizing seen with
  | nil => exact List.Pairwise.nil
  | cons x xs ih =>
      have hlater : ∀ {seen : List α} {y : α}, x ∈ seen → y ∈ fresh seen xs →
          (x :: xs).idxOf y = xs.idxOf y + 1 := by
        intro seen y hx hy
        have hne : x ≠ y := fun heq => (mem_fresh.mp hy).2 (heq ▸ hx)
        rw [List.idxOf_cons, beq_false_of_ne hne, cond_false]
      have hshift : ∀ {seen : List α}, x ∈ seen →
          (fresh seen xs).Pairwise fun a b => (x :: xs).idxOf a < (x :: xs).idxOf b := by
        intro seen hx
        refine (ih seen).imp_of_mem fun ha hb hlt => ?_
        rw [hlater hx ha, hlater hx hb]
        exact Nat.succ_lt_succ hlt
      unfold fresh
      split
      · rename_i hx
        exact hshift hx
      · refine List.pairwise_cons.mpr ⟨fun y hy => ?_, hshift List.mem_cons_self⟩
        rw [List.idxOf_cons_self, hlater List.mem_cons_self hy]
        exact Nat.succ_pos _

theorem firstRepeated?_eq_none_iff {seen xs : List α} :
    firstRepeated? seen xs = none ↔ xs.Nodup ∧ ∀ x ∈ xs, x ∉ seen := by
  induction xs generalizing seen with
  | nil => simp [firstRepeated?]
  | cons x xs ih =>
      unfold firstRepeated?
      by_cases hx : x ∈ seen
      · simp [hx]
      · rw [if_neg hx, ih, List.nodup_cons]
        constructor
        · rintro ⟨hnodup, hseen⟩
          refine ⟨⟨fun hmem => hseen x hmem List.mem_cons_self, hnodup⟩, fun y hy => ?_⟩
          rcases List.mem_cons.mp hy with rfl | hy
          · exact hx
          · exact fun hmem => hseen y hy (List.mem_cons_of_mem x hmem)
        · rintro ⟨⟨hnot, hnodup⟩, hseen⟩
          refine ⟨hnodup, fun y hy hmem => ?_⟩
          rcases List.mem_cons.mp hmem with rfl | hmem
          · exact hnot hy
          · exact hseen y (List.mem_cons_of_mem x hy) hmem

/-- Members that differ and have not been seen are passed over. -/
theorem firstRepeated?_append {seen before : List α} (hnodup : before.Nodup)
    (hseen : ∀ x ∈ before, x ∉ seen) (behind : List α) :
    firstRepeated? seen (before ++ behind) = firstRepeated? (before.reverse ++ seen) behind := by
  induction before generalizing seen with
  | nil => rfl
  | cons x before ih =>
      obtain ⟨hnot, hnodup⟩ := List.nodup_cons.mp hnodup
      have hrest : ∀ y ∈ before, y ∉ x :: seen := by
        intro y hy hmem
        rcases List.mem_cons.mp hmem with rfl | hmem
        · exact hnot hy
        · exact hseen y (List.mem_cons_of_mem x hy) hmem
      rw [List.cons_append, firstRepeated?, if_neg (hseen x List.mem_cons_self), ih hnodup hrest,
        List.reverse_cons, List.append_assoc, List.singleton_append]

/-- The first member that is told is the first one that has been seen or stands a second time. -/
theorem firstRepeated?_eq_some_iff {seen xs : List α} {x : α} :
    firstRepeated? seen xs = some x ↔
      ∃ before behind, xs = before ++ x :: behind ∧ before.Nodup ∧ (∀ y ∈ before, y ∉ seen) ∧
        (x ∈ before ∨ x ∈ seen) := by
  constructor
  · intro h
    induction xs generalizing seen with
    | nil => cases h
    | cons first xs ih =>
        unfold firstRepeated? at h
        split at h
        · rename_i hfirst
          cases h
          exact ⟨[], xs, rfl, List.nodup_nil, nofun, Or.inr hfirst⟩
        · rename_i hfirst
          obtain ⟨before, behind, rfl, hnodup, hseen, hx⟩ := ih h
          have hnot : first ∉ before := fun hmem => hseen first hmem List.mem_cons_self
          refine ⟨first :: before, behind, rfl, List.nodup_cons.mpr ⟨hnot, hnodup⟩, ?_, ?_⟩
          · intro y hy
            rcases List.mem_cons.mp hy with rfl | hy
            · exact hfirst
            · exact fun hmem => hseen y hy (List.mem_cons_of_mem first hmem)
          · simp only [List.mem_cons] at hx ⊢
            rw [or_comm (a := x = first), or_assoc]
            exact hx
  · rintro ⟨before, behind, rfl, hnodup, hseen, hx⟩
    rw [firstRepeated?_append hnodup hseen, firstRepeated?, if_pos]
    simpa using hx

theorem length_fresh_le (seen xs : List α) : (fresh seen xs).length ≤ xs.length := by
  induction xs generalizing seen with
  | nil => simp [fresh]
  | cons x xs ih =>
      unfold fresh
      split
      · exact Nat.le_succ_of_le (ih seen)
      · exact Nat.succ_le_succ (ih _)

end Workflow
