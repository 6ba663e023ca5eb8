import Workflow.Proofs.Codec.Storing

/-!
# Line endings in stored texts

A line ending of some markup is stored as a newline, but not one inside a span: the text of a span
is stored as it is, unless a marker is stored for it.  So of markup without entities a carriage
return is stored just if it stands in a span that is kept (`return_mem_encode_iff_of_written`).
-/

namespace Workflow

theorem Template.return_notMem_marker {token : List Char} (h : '\r' ∉ token) :
    '\r' ∉ marker token := by
  simp [marker, openMark, closeMark, h]

namespace Codec

/-- The text of a span is kept: the span is no badge, or its text is the label of no token. -/
def IsKept (settings : Settings) (labels : LabelTable) (classes inner : List Char) : Prop :=
  ¬((classes = settings.referenceClass.toList ∨ classes = settings.errorClass.toList) ∧
    ∃ token, labels.get? token = some (String.ofList inner))

/-- A part of some markup with a carriage return that is stored: a span that is kept. -/
inductive KeepsReturn (settings : Settings) (labels : LabelTable) : Markup.Written → Prop where
  | span {before : List Char} {blank : Char} {classes behind inner : List Char}
      (hkept : IsKept settings labels classes inner) (hreturn : '\r' ∈ inner) :
      KeepsReturn settings labels (.span before blank classes behind inner)

/-- No token in a label table has a carriage return. -/
def HasNoReturns (labels : LabelTable) : Prop :=
  ∀ token label, labels.get? token = some label → '\r' ∉ token.toList

section Returns

variable {settings : Settings} {labels : LabelTable} (htokens : HasNoReturns labels)
include htokens

theorem return_mem_iff_of_isStoredSpan {classes inner stored : List Char} (hamp : '&' ∉ inner)
    (h : IsStoredSpan settings labels classes inner stored) :
    '\r' ∈ stored ↔ IsKept settings labels classes inner ∧ '\r' ∈ inner := by
  have hinner := Markup.unescape_of_notMem hamp
  rcases h with ⟨hbadge, token, hleast, rfl⟩ | ⟨hkept, rfl⟩
  · rw [hinner] at hleast
    constructor
    · exact fun hmem => absurd hmem (Template.return_notMem_marker (htokens token _ hleast.1))
    · exact fun hmem => absurd ⟨hbadge, token, hleast.1⟩ hmem.1
  · rw [hinner] at hkept ⊢
    exact ⟨fun hmem => ⟨hkept, hmem⟩, fun hmem => hmem.2⟩

/-- A carriage return is stored for a part just if the part is a kept span with one. -/
theorem return_mem_iff_of_isStored {part : Markup.Written} {stored : List Char}
    (hamp : '&' ∉ part.write) (hrun : ∀ text, part = .run text → '\r' ∉ text)
    (h : IsStored settings labels part stored) :
    '\r' ∈ stored ↔ KeepsReturn settings labels part := by
  have hnone : part.piece = .lineBreak → stored = ['\n'] →
      ('\r' ∈ stored ↔ KeepsReturn settings labels part) := by
    rintro hpiece rfl
    exact ⟨fun hmem => absurd hmem (by decide), fun hkeeps => by cases hkeeps; cases hpiece⟩
  cases part with
  | run text =>
      obtain rfl : stored = text := h.trans (Markup.unescape_of_notMem hamp)
      exact ⟨fun hmem => absurd hmem (hrun stored rfl), fun hkeeps => by cases hkeeps⟩
  | breakTag blanks slash => exact hnone rfl h
  | returnFeed => exact hnone rfl h
  | bareReturn => exact hnone rfl h
  | span before blank classes behind inner =>
      have hinner : '&' ∉ inner := fun hmem => hamp (by simp [Markup.Written.write, hmem])
      rw [return_mem_iff_of_isStoredSpan htokens hinner h]
      constructor
      · exact fun hkept => .span hkept.1 hkept.2
      · rintro ⟨hkept, hmem⟩
        exact ⟨hkept, hmem⟩

end Returns

/-- **Carriage returns that are stored.**  Any markup is written as parts that are stored one after
the other, and no run among them has a carriage return.  If there are no entities in it, a carriage
return is stored just if some part is a span that has one and is kept. -/
theorem return_mem_encode_iff_of_written (settings : Settings) {labels : LabelTable}
    (htokens : HasNoReturns labels) {markup : String} (hamp : '&' ∉ markup.toList) :
    ∃ parts : List Markup.Written,
      parts.flatMap Markup.Written.write = markup.toList ∧
      parts.map Markup.Written.piece = Markup.scan markup.toList ∧
      (∀ text, .run text ∈ parts → '\r' ∉ text) ∧
      (∃ stored : Markup.Written → List Char,
        (∀ part, IsStored settings labels part (stored part)) ∧
          encode settings labels markup = String.ofList (parts.flatMap stored)) ∧
      ('\r' ∈ (encode settings labels markup).toList ↔
        ∃ part ∈ parts, KeepsReturn settings labels part) := by
  obtain ⟨parts, hwrite, hpieces, hruns⟩ := Markup.exists_written markup.toList
  let stored (part : Markup.Written) : List Char := storePiece settings labels part.piece
  have hstored : ∀ part, IsStored settings labels part (stored part) :=
    isStored_storePiece settings labels
  have hencode : encode settings labels markup = String.ofList (parts.flatMap stored) := by
    rw [encode, store, ← hpieces, List.flatMap_map]
  refine ⟨parts, hwrite, hpieces, hruns, ⟨stored, hstored, hencode⟩, ?_⟩
  have hpart : ∀ part ∈ parts, '\r' ∈ stored part ↔ KeepsReturn settings labels part := by
    intro part hpart
    refine return_mem_iff_of_isStored htokens (fun hmem => hamp ?_) ?_ (hstored part)
    · exact hwrite ▸ List.mem_flatMap_of_mem hpart hmem
    · rintro text rfl
      exact hruns text hpart
  rw [hencode, String.toList_ofList, List.mem_flatMap]
  exact exists_congr fun part => and_congr_right (hpart part)

/-- A carriage return in a badge is replaced with it, and one behind it ends a line. -/
theorem return_mem_encode_iff_of_written_badge :
    let labels := LabelTable.ofList [("a.x", "A\rB")]
    let markup := "<b><span class=\"badge\">A\rB</span>\r\n\r"
    HasNoReturns labels ∧ '&' ∉ markup.toList ∧
      (∃ parts : List Markup.Written, parts.flatMap Markup.Written.write = markup.toList ∧
        ¬∃ part ∈ parts, KeepsReturn .standard labels part) ∧
      encode .standard labels markup = "<b>" ++ Template.wrap "a.x" ++ "\n\n" := by
  intro labels markup
  have htokens : HasNoReturns labels := by
    intro token label hget
    have hmem := labels.mem_entries_iff.mpr hget
    have hentries : (labels.entries.all fun entry => !entry.1.toList.contains '\r') = true := by
      decide
    simpa using List.all_eq_true.mp hentries _ hmem
  have hamp : '&' ∉ markup.toList := by decide
  have hencode : encode .standard labels markup = "<b>" ++ Template.wrap "a.x" ++ "\n\n" := by
    decide +kernel
  obtain ⟨parts, hwrite, _, _, _, hiff⟩ := return_mem_encode_iff_of_written .standard htokens hamp
  refine ⟨htokens, hamp, ⟨parts, hwrite, fun hkeeps => ?_⟩, hencode⟩
  exact absurd (hiff.mpr hkeeps) (by rw [hencode]; decide)

/-- A carriage return in a badge without a label is stored. -/
theorem return_mem_encode_unlabeled_badge :
    let markup := "<span class=\"badge\">a\r\nb</span>"
    HasNoReturns .empty ∧ '&' ∉ markup.toList ∧ encode .standard .empty markup = "a\r\nb" ∧
      '\r' ∈ (encode .standard .empty markup).toList := by
  intro markup
  have hencode : encode .standard .empty markup = "a\r\nb" := by decide +kernel
  exact ⟨nofun, by decide, hencode, by rw [hencode]; decide⟩

end Codec
end Workflow
