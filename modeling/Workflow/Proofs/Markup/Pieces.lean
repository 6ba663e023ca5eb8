import Workflow.Markup.Entity
import Workflow.Markup.Scan

/-!
# The pieces of put-together markup

What the scan of some markup finds when the markup starts with a text, a break tag or a span tag and
anything follows.  Text without the characters that start a mark goes into a run
(`scan_append_of_unmarked`), a break tag and a carriage return are line breaks (`scan_breakOpen`,
`scan_return`), and a span tag whose parts do not hold what ends them is a span (`scan_span`).
-/

namespace Workflow
namespace Markup

/-- A mark at the start of some markup is its first piece. -/
theorem scan_of_mark? {markup after : List Char} {piece : Piece}
    (h : mark? markup = some (piece, after)) : scan markup = piece :: scan after := by
  cases markup with
  | nil => simp [mark?, span?, lineBreak?, Text.dropWord, spanOpen, breakOpen] at h
  | cons c rest =>
      rw [scan]
      split
      · rename_i found after' hfound
        rw [h] at hfound
        cases hfound
        rfl
      · rename_i hnone
        rw [h] at hnone
        cases hnone

theorem scan_of_not_mark {c : Char} {rest : List Char} (h : mark? (c :: rest) = none) :
    scan (c :: rest) = consText c (scan rest) := by
  rw [scan]
  split
  · rename_i found after hfound
    rw [h] at hfound
    cases hfound
  · rfl

/-- A mark starts with a bracket or a carriage return. -/
def startsMark (c : Char) : Bool :=
  c = '<' || c = '\r'

theorem mark?_eq_none {c : Char} (h : startsMark c = false) (rest : List Char) :
    mark? (c :: rest) = none := by
  simp only [startsMark, Bool.or_eq_false_iff, decide_eq_false_iff_not] at h
  obtain ⟨hbracket, hreturn⟩ := h
  have hspan : Text.dropWord spanOpen (c :: rest) = none := by
    simp [spanOpen, Text.dropWord, Ne.symm hbracket]
  have hbreak : Text.dropWord breakOpen (c :: rest) = none := by
    simp [breakOpen, Text.dropWord, Ne.symm hbracket]
  have hline : lineBreak? (c :: rest) = none := by
    unfold lineBreak?
    split
    · simp_all
    · simp_all
    · simp [hbreak]
  simp [mark?, span?, hspan, hline]

/-- Text in which no mark starts goes character by character into the run that follows it. -/
theorem scan_append_of_unmarked {text : List Char} (h : ∀ c ∈ text, startsMark c = false)
    (rest : List Char) : scan (text ++ rest) = text.foldr consText (scan rest) := by
  induction text with
  | nil => rfl
  | cons c text ih =>
      have hc := h c List.mem_cons_self
      have htext := ih fun x hx => h x (List.mem_cons_of_mem c hx)
      rw [List.cons_append, scan_of_not_mark (mark?_eq_none hc (text ++ rest)), htext]
      rfl

/-- A text in front of some pieces lengthens the run at their start or makes one. -/
theorem foldr_consText {text : List Char} (h : text ≠ []) (pieces : List Piece) :
    (∃ run others, pieces = .run run :: others ∧
      text.foldr consText pieces = .run (text ++ run) :: others) ∨
    text.foldr consText pieces = .run text :: pieces := by
  induction text with
  | nil => exact absurd rfl h
  | cons c text ih =>
      cases text with
      | nil =>
          match pieces with
          | .run run :: others => exact Or.inl ⟨run, others, rfl, rfl⟩
          | [] => exact Or.inr rfl
          | .lineBreak :: others => exact Or.inr rfl
          | .span classes inner :: others => exact Or.inr rfl
      | cons d text =>
          rcases ih (List.cons_ne_nil d text) with ⟨run, others, hpieces, hfold⟩ | hfold
          · refine Or.inl ⟨run, others, hpieces, ?_⟩
            rw [List.foldr_cons, hfold]
            rfl
          · refine Or.inr ?_
            rw [List.foldr_cons, hfold]
            rfl

/-- The end of a break tag, with a slash or without one. -/
def breakEnd (slash : Bool) : List Char :=
  if slash then ['/', '>'] else ['>']

theorem afterBreakName?_append {blanks : List Char} (h : ∀ c ∈ blanks, Text.isBlank c = true)
    (slash : Bool) (after : List Char) :
    afterBreakName? (blanks ++ (breakEnd slash ++ after)) = some after := by
  have hslash : Text.isBlank '/' = false := by decide
  have hclose : Text.isBlank '>' = false := by decide
  rw [afterBreakName?, List.dropWhile_append_of_pos h]
  cases slash with
  | true => simp [breakEnd, hslash]
  | false => simp [breakEnd, hclose]

/-- A break tag is a line break. -/
theorem scan_breakOpen {blanks : List Char} (h : ∀ c ∈ blanks, Text.isBlank c = true)
    (slash : Bool) (after : List Char) :
    scan (breakOpen ++ (blanks ++ (breakEnd slash ++ after))) = .lineBreak :: scan after := by
  have hname := afterBreakName?_append h slash after
  generalize blanks ++ (breakEnd slash ++ after) = inTag at hname ⊢
  have hspan : span? (breakOpen ++ inTag) = none := by
    simp [span?, spanOpen, breakOpen, Text.dropWord]
  have hline : lineBreak? (breakOpen ++ inTag) = some (.lineBreak, after) := by
    simp [lineBreak?, breakOpen, Text.dropWord, hname]
  apply scan_of_mark?
  rw [mark?, hspan, hline]
  rfl

@[simp] theorem scan_breakTag (rest : List Char) :
    scan (breakOpen ++ '>' :: rest) = .lineBreak :: scan rest :=
  scan_breakOpen (fun _ h => absurd h List.not_mem_nil) false rest

/-- A carriage return is a line break, together with a line feed behind it if there is one. -/
theorem scan_return {rest after : List Char}
    (h : rest = '\n' :: after ∨ rest.head? ≠ some '\n' ∧ after = rest) :
    scan ('\r' :: rest) = .lineBreak :: scan after := by
  have hspan : span? ('\r' :: rest) = none := by
    simp [span?, spanOpen, Text.dropWord]
  have hline : lineBreak? ('\r' :: rest) = some (.lineBreak, after) := by
    rcases h with rfl | ⟨hfeed, rfl⟩
    · rfl
    · unfold lineBreak?
      split
      · simp_all
      · simp_all
      · simp_all
  apply scan_of_mark?
  rw [mark?, hspan, hline]
  rfl

/-- A class attribute behind white space is found at once. -/
theorem afterClassOpen?_cons {blank : Char} (h : Text.isBlank blank = true) (after : List Char) :
    afterClassOpen? (blank :: (classOpen ++ after)) = some after := by
  have hopen : blank ≠ '>' := by
    rintro rfl
    exact absurd h (by decide)
  simp [afterClassOpen?, hopen, h]

/-- A class attribute stands somewhere in a tag, behind white space. -/
def HoldsClass (inTag : List Char) : Prop :=
  ∃ before blank after, Text.isBlank blank = true ∧ inTag = before ++ blank :: (classOpen ++ after)

@[simp] theorem holdsClass_cons_iff {c : Char} {rest : List Char} :
    HoldsClass (c :: rest) ↔ (Text.isBlank c = true ∧ classOpen <+: rest) ∨ HoldsClass rest := by
  constructor
  · rintro ⟨before, blank, after, hblank, heq⟩
    cases before with
    | nil =>
        obtain ⟨rfl, rfl⟩ := List.cons.inj heq
        exact Or.inl ⟨hblank, List.prefix_append classOpen after⟩
    | cons d before => exact Or.inr ⟨before, blank, after, hblank, (List.cons.inj heq).2⟩
  · rintro (⟨hblank, after, rfl⟩ | ⟨before, blank, after, hblank, rfl⟩)
    · exact ⟨[], c, after, hblank, rfl⟩
    · exact ⟨c :: before, blank, after, hblank, rfl⟩

instance decidableHoldsClass : (inTag : List Char) → Decidable (HoldsClass inTag)
  | [] => isFalse fun ⟨before, _, _, _, h⟩ => by simp at h
  | _ :: rest =>
      have := decidableHoldsClass rest
      decidable_of_iff' _ holdsClass_cons_iff

/-- The first class attribute behind white space is found. -/
theorem afterClassOpen?_append {before : List Char} (hopen : '>' ∉ before)
    (hfirst : ¬HoldsClass before) {blank : Char} (h : Text.isBlank blank = true)
    (after : List Char) :
    afterClassOpen? (before ++ blank :: (classOpen ++ after)) = some after := by
  induction before with
  | nil => exact afterClassOpen?_cons h after
  | cons c before ih =>
      obtain ⟨hc, hopen⟩ := not_or.mp (mt List.mem_cons.mpr hopen)
      obtain ⟨hhere, hrest⟩ := not_or.mp (mt holdsClass_cons_iff.mpr hfirst)
      have hnone : (if Text.isBlank c then
          Text.dropWord classOpen (before ++ blank :: (classOpen ++ after)) else none) = none := by
        split
        · rename_i hblank
          cases hdrop : Text.dropWord classOpen (before ++ blank :: (classOpen ++ after)) with
          | none => rfl
          | some found =>
              exfalso
              rcases List.append_eq_append_iff.mp (Text.eq_of_dropWord hdrop) with
                ⟨tail, htail, hfound⟩ | ⟨tail, rfl, _⟩
              · -- The attribute's name would run into the white space behind `before`.
                cases tail with
                | nil => exact hhere ⟨hblank, [], by simpa using htail⟩
                | cons d tail =>
                    obtain ⟨rfl, _⟩ := List.cons.inj hfound
                    have hmem : blank ∈ classOpen := htail ▸ List.mem_append_right before
                      List.mem_cons_self
                    have hname : classOpen.any Text.isBlank = false := by decide
                    exact absurd h (List.any_eq_false.mp hname blank hmem)
              · exact hhere ⟨hblank, List.prefix_append classOpen tail⟩
        · rfl
      rw [List.cons_append, afterClassOpen?, if_neg (Ne.symm hc), hnone]
      exact ih hopen hrest

/-- A span tag is read to its closing tag, if no part of it holds what ends it. -/
theorem scan_span {inTag classes others inner : List Char} (after : List Char)
    (hname : endsName inTag = true)
    (hvalue : afterClassOpen? inTag =
      some (classes ++ '"' :: (others ++ '>' :: (inner ++ spanClose ++ after))))
    (hclasses : '"' ∉ classes) (hothers : '>' ∉ others) (hinner : ¬spanClose <:+: inner) :
    scan (spanOpen ++ inTag) = .span classes inner :: scan after := by
  have hquote := Text.cutFirst_append (others ++ '>' :: (inner ++ spanClose ++ after)) hclasses
  have hclose := Text.cutFirst_append (inner ++ spanClose ++ after) hothers
  have hend : Text.cutWord spanClose (inner ++ spanClose ++ after) = some (inner, after) :=
    Text.cutWord_append after (by decide) hinner
  have hspan : span? (spanOpen ++ inTag) = some (.span classes inner, after) := by
    simp only [span?, Text.dropWord_append, hname, hvalue, hquote, hclose, hend, bind, pure,
      Option.bind_some, Bool.true_eq_false, if_false]
  apply scan_of_mark?
  rw [mark?, hspan]
  rfl

end Markup
end Workflow
