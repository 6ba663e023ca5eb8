/-!
# Cutting texts at a character or a word

Texts are lists of characters here.  `cutFirst` and `cutLast` cut at the first and at the last
occurrence of a character, `pieces` at every occurrence, `cutWord` at the first occurrence of a
word.  Each cut drops what it cuts at, and putting it back gives the text again
(`eq_of_cutFirst`, `eq_of_cutLast`, `eq_of_cutWord`).  A text put together from two parts is cut
between them if the one part does not hold what is cut at (`cutFirst_append`, `cutLast_append`,
`cutWord_append`).
-/

namespace Workflow
namespace Text

/-- The parts before and after the first `mark`. -/
def cutFirst (mark : Char) : List Char → Option (List Char × List Char)
  | [] => none
  | c :: rest =>
      if c = mark then
        some ([], rest)
      else
        (cutFirst mark rest).map fun (before, after) => (c :: before, after)

/-- The parts before and after the last `mark`. -/
def cutLast (mark : Char) : List Char → Option (List Char × List Char)
  | [] => none
  | c :: rest =>
      match cutLast mark rest with
      | some (before, after) => some (c :: before, after)
      | none => if c = mark then some ([], rest) else none

/-- The parts between the marks; a text without a mark is one part, and no text has none. -/
def pieces (mark : Char) : List Char → List (List Char)
  | [] => [[]]
  | c :: rest =>
      if c = mark then
        [] :: pieces mark rest
      else
        match pieces mark rest with
        | first :: others => (c :: first) :: others
        | [] => [[c]]

/-- What follows `word` at the start of a text. -/
def dropWord : (word : List Char) → List Char → Option (List Char)
  | [], text => some text
  | _ :: _, [] => none
  | w :: word, c :: text => if w = c then dropWord word text else none

/-- The parts before and after the first occurrence of `word`. -/
def cutWord (word : List Char) : List Char → Option (List Char × List Char)
  | [] => (dropWord word []).map fun after => ([], after)
  | c :: rest =>
      match dropWord word (c :: rest) with
      | some after => some ([], after)
      | none => (cutWord word rest).map fun (before, after) => (c :: before, after)

theorem eq_of_dropWord {word text after : List Char} (h : dropWord word text = some after) :
    text = word ++ after := by
  induction word generalizing text with
  | nil => simpa [dropWord] using h
  | cons w word ih =>
      cases text with
      | nil => simp [dropWord] at h
      | cons c text =>
          by_cases hw : w = c
          · simp only [dropWord, hw, if_true] at h
            simp [hw, ih h]
          · simp [dropWord, hw] at h

theorem eq_of_cutFirst {mark : Char} {text before after : List Char}
    (h : cutFirst mark text = some (before, after)) : text = before ++ mark :: after := by
  induction text generalizing before with
  | nil => simp [cutFirst] at h
  | cons c rest ih =>
      unfold cutFirst at h
      split at h
      · rename_i hc
        simp_all
      · simp only [Option.map_eq_some_iff, Prod.exists, Prod.mk.injEq] at h
        obtain ⟨b, a, hcut, rfl, rfl⟩ := h
        simp [ih hcut]

theorem eq_of_cutLast {mark : Char} {text before after : List Char}
    (h : cutLast mark text = some (before, after)) : text = before ++ mark :: after := by
  induction text generalizing before after with
  | nil => simp [cutLast] at h
  | cons c rest ih =>
      unfold cutLast at h
      split at h
      · rename_i b a hcut
        simp only [Option.some.injEq, Prod.mk.injEq] at h
        obtain ⟨rfl, rfl⟩ := h
        simp [ih hcut]
      · split at h
        · simp_all
        · simp at h

theorem eq_of_cutWord {word text before after : List Char}
    (h : cutWord word text = some (before, after)) : text = before ++ word ++ after := by
  induction text generalizing before with
  | nil =>
      simp only [cutWord, Option.map_eq_some_iff, Prod.mk.injEq] at h
      obtain ⟨a, hdrop, rfl, rfl⟩ := h
      simpa using eq_of_dropWord hdrop
  | cons c rest ih =>
      unfold cutWord at h
      split at h
      · rename_i a hdrop
        simp only [Option.some.injEq, Prod.mk.injEq] at h
        obtain ⟨rfl, rfl⟩ := h
        simpa using eq_of_dropWord hdrop
      · simp only [Option.map_eq_some_iff, Prod.exists, Prod.mk.injEq] at h
        obtain ⟨b, a, hcut, rfl, rfl⟩ := h
        simp [ih hcut]

@[simp] theorem dropWord_append (word after : List Char) :
    dropWord word (word ++ after) = some after := by
  induction word with
  | nil => rfl
  | cons w word ih => simp [dropWord, ih]

/-- A text is cut at a mark if there is none before. -/
theorem cutFirst_append {mark : Char} {before : List Char} (after : List Char)
    (h : mark ∉ before) : cutFirst mark (before ++ mark :: after) = some (before, after) := by
  induction before with
  | nil => simp [cutFirst]
  | cons c before ih =>
      obtain ⟨hc, hbefore⟩ := not_or.mp (mt List.mem_cons.mpr h)
      rw [List.cons_append, cutFirst, if_neg (Ne.symm hc), ih hbefore]
      rfl

theorem cutFirst_eq_none {mark : Char} {text : List Char} (h : mark ∉ text) :
    cutFirst mark text = none := by
  cases hcut : cutFirst mark text with
  | none => rfl
  | some parts =>
      have hmem : mark ∈ text := eq_of_cutFirst hcut ▸ List.mem_append_right _ List.mem_cons_self
      exact absurd hmem h

theorem cutLast_eq_none {mark : Char} {text : List Char} (h : mark ∉ text) :
    cutLast mark text = none := by
  induction text with
  | nil => rfl
  | cons c rest ih =>
      obtain ⟨hc, hrest⟩ := not_or.mp (mt List.mem_cons.mpr h)
      rw [cutLast, ih hrest]
      exact if_neg (Ne.symm hc)

/-- A text with a mark has a last one. -/
theorem exists_cutLast {mark : Char} {text : List Char} (h : mark ∈ text) :
    ∃ before after, text = before ++ mark :: after ∧ mark ∉ after := by
  induction text with
  | nil => exact absurd h List.not_mem_nil
  | cons c rest ih =>
      by_cases hrest : mark ∈ rest
      · obtain ⟨before, after, rfl, hafter⟩ := ih hrest
        exact ⟨c :: before, after, rfl, hafter⟩
      · rcases List.mem_cons.mp h with rfl | hmem
        · exact ⟨[], rest, rfl, hrest⟩
        · exact absurd hmem hrest

/-- A text is cut at a mark if there is none behind. -/
theorem cutLast_append {mark : Char} (before : List Char) {after : List Char}
    (h : mark ∉ after) : cutLast mark (before ++ mark :: after) = some (before, after) := by
  induction before with
  | nil => simp [cutLast, cutLast_eq_none h]
  | cons c before ih => simp [cutLast, ih]

/-- A word whose first character stands in it only once does not begin in a text without it, even if
the word follows the text. -/
theorem dropWord_eq_none {w : Char} {word text : List Char} (after : List Char) (hword : w ∉ word)
    (hne : text ≠ []) (h : ¬(w :: word) <+: text) :
    dropWord (w :: word) (text ++ (w :: word) ++ after) = none := by
  cases hdrop : dropWord (w :: word) (text ++ (w :: word) ++ after) with
  | none => rfl
  | some rest =>
      exfalso
      have heq := eq_of_dropWord hdrop
      rw [List.append_assoc] at heq
      rcases List.append_eq_append_iff.mp heq with ⟨tail, htail, hrest⟩ | ⟨tail, htail, _⟩
      · obtain ⟨c, text, rfl⟩ := List.exists_cons_of_ne_nil hne
        cases tail with
        | nil => exact h ⟨[], by simpa using htail⟩
        | cons d tail =>
            obtain ⟨rfl, hsplit⟩ := List.cons.inj htail
            obtain ⟨rfl, _⟩ := List.cons.inj hrest
            exact hword (hsplit ▸ List.mem_append_right text List.mem_cons_self)
      · exact h ⟨tail, htail.symm⟩

/-- A text is cut at a word that does not stand before, if the word's first character stands in it
only once. -/
theorem cutWord_append {w : Char} {word before : List Char} (after : List Char)
    (hword : w ∉ word) (h : ¬(w :: word) <:+: before) :
    cutWord (w :: word) (before ++ (w :: word) ++ after) = some (before, after) := by
  induction before with
  | nil =>
      have hdrop := dropWord_append (w :: word) after
      rw [List.nil_append, List.cons_append, cutWord]
      rw [List.cons_append] at hdrop
      rw [hdrop]
  | cons c before ih =>
      have hbefore : ¬(w :: word) <:+: before := fun hinfix => h (List.infix_cons hinfix)
      have hdrop := dropWord_eq_none after hword (List.cons_ne_nil c before)
        fun hstart => h hstart.isInfix
      rw [List.cons_append, List.cons_append] at hdrop
      rw [List.cons_append, List.cons_append, cutWord, hdrop]
      simp only [ih hbefore, Option.map_some]

end Text
end Workflow
