import Workflow.Codec
import Workflow.Proofs.Markup.Written

/-!
# Storing what is written

Markup is stored part by part, if its parts can be told apart: a run is stored as its text, a line
break as a newline, and a span as a marker or as its text (`encode_flatMap_write`).  In what way a
line break is written has no say in this, and no more have the other attributes of a span.
-/

namespace Workflow
namespace Codec

/-- What is stored for a span: the marker of the least token that its text is the label of, if it
has a class of badges and there is such a token, and its text otherwise. -/
def IsStoredSpan (settings : Settings) (labels : LabelTable) (classes inner : List Char)
    (stored : List Char) : Prop :=
  let text := Markup.unescape inner
  let isBadge := classes = settings.referenceClass.toList ∨ classes = settings.errorClass.toList
  (isBadge ∧ ∃ token, labels.IsLeastFor (String.ofList text) token ∧
    stored = Template.marker token.toList) ∨
  (¬(isBadge ∧ ∃ token, labels.get? token = some (String.ofList text)) ∧ stored = text)

/-- What is stored for a part of some markup. -/
def IsStored (settings : Settings) (labels : LabelTable) : Markup.Written → List Char → Prop
  | .run text, stored => stored = Markup.unescape text
  | .breakTag _ _, stored => stored = ['\n']
  | .returnFeed, stored => stored = ['\n']
  | .bareReturn, stored => stored = ['\n']
  | .span _ _ classes _ inner, stored => IsStoredSpan settings labels classes inner stored

/-- The token whose marker is stored for a part of some markup: the part is a badge, and the token is
the least with its text for a label. -/
def badgeToken? (settings : Settings) (labels : LabelTable) : Markup.Piece → Option String
  | .span classes inner =>
      if settings.isBadge classes then labels.tokenFor? (String.ofList (Markup.unescape inner))
      else none
  | _ => none

/-- What is stored for a part of some markup for which no marker is. -/
def plainPiece : Markup.Piece → List Char
  | .run text => Markup.unescape text
  | .lineBreak => ['\n']
  | .span _ inner => Markup.unescape inner

section Storing

variable (settings : Settings) (labels : LabelTable)

theorem storePiece_eq (piece : Markup.Piece) :
    storePiece settings labels piece = (badgeToken? settings labels piece).elim (plainPiece piece)
      fun token => Template.marker token.toList := by
  cases piece with
  | run text => rfl
  | lineBreak => rfl
  | span classes inner =>
      rw [storePiece, storeSpan, badgeToken?, plainPiece]
      cases labels.tokenFor? (String.ofList (Markup.unescape inner)) with
      | none => simp
      | some token =>
          cases settings.isBadge classes with
          | false => rfl
          | true => rfl

/-- The token of a badge has a label. -/
theorem exists_label_of_badgeToken? {piece : Markup.Piece} {token : String}
    (h : badgeToken? settings labels piece = some token) :
    ∃ label, labels.get? token = some label := by
  cases piece with
  | run text => cases h
  | lineBreak => cases h
  | span classes inner =>
      rw [badgeToken?] at h
      split at h
      · exact ⟨_, (labels.tokenFor?_eq_some_iff.mp h).1⟩
      · cases h

theorem isStoredSpan_storeSpan (classes inner : List Char) :
    IsStoredSpan settings labels classes inner (storeSpan settings labels classes inner) := by
  have hbadge : settings.isBadge classes = true ↔
      classes = settings.referenceClass.toList ∨ classes = settings.errorClass.toList := by
    simp [Settings.isBadge]
  cases hfound : labels.tokenFor? (String.ofList (Markup.unescape inner)) with
  | some token =>
      have hleast := labels.tokenFor?_eq_some_iff.mp hfound
      have hstore : storeSpan settings labels classes inner =
          if settings.isBadge classes then Template.marker token.toList
          else Markup.unescape inner := by
        simp only [storeSpan, hfound]
      by_cases hclass : settings.isBadge classes = true
      · exact Or.inl ⟨hbadge.mp hclass, token, hleast, hstore.trans (if_pos hclass)⟩
      · exact Or.inr ⟨fun h => hclass (hbadge.mpr h.1), hstore.trans (if_neg hclass)⟩
  | none =>
      have hnone := labels.tokenFor?_eq_none_iff.mp hfound
      have hstore : storeSpan settings labels classes inner = Markup.unescape inner := by
        simp only [storeSpan, hfound]
      exact Or.inr ⟨fun ⟨_, token, hlabel⟩ => hnone token hlabel, hstore⟩

theorem isStored_storePiece (part : Markup.Written) :
    IsStored settings labels part (storePiece settings labels part.piece) := by
  cases part with
  | run text => rfl
  | breakTag blanks slash => rfl
  | returnFeed => rfl
  | bareReturn => rfl
  | span before blank classes behind inner => exact isStoredSpan_storeSpan settings labels _ inner

theorem flatMap_storePiece_filter (pieces : List Markup.Piece) :
    (pieces.filter fun piece => !piece.isEmptyRun).flatMap (storePiece settings labels) =
      pieces.flatMap (storePiece settings labels) := by
  induction pieces with
  | nil => rfl
  | cons piece rest ih =>
      rw [List.flatMap_cons, ← ih]
      match piece with
      | .run [] => rfl
      | .run (c :: text) => rfl
      | .lineBreak => rfl
      | .span classes inner => rfl

/-- Well-formed markup is stored part by part. -/
theorem store_flatMap_write {parts : List Markup.Written} (h : Markup.WellFormed parts) :
    store settings labels (parts.flatMap Markup.Written.write) =
      (parts.map Markup.Written.piece).flatMap (storePiece settings labels) := by
  rw [store, Markup.scan_flatMap_write h, flatMap_storePiece_filter]

end Storing

/-- **Storing what is written.**  The text that is stored for well-formed markup is what is stored
for its parts, one after the other.  It is the same for all markup with the same runs, line breaks
and spans, in whatever way these are written. -/
theorem encode_flatMap_write (settings : Settings) (labels : LabelTable)
    {parts : List Markup.Written} (h : Markup.WellFormed parts) :
    let markup (parts : List Markup.Written) := String.ofList (parts.flatMap Markup.Written.write)
    (∃ stored : Markup.Written → List Char, (∀ part, IsStored settings labels part (stored part)) ∧
      encode settings labels (markup parts) = String.ofList (parts.flatMap stored)) ∧
    ∀ others, Markup.WellFormed others →
      others.map Markup.Written.piece = parts.map Markup.Written.piece →
      encode settings labels (markup others) = encode settings labels (markup parts) := by
  intro markup
  have hencode : ∀ parts, Markup.WellFormed parts → encode settings labels (markup parts) =
      String.ofList ((parts.map Markup.Written.piece).flatMap (storePiece settings labels)) := by
    intro parts h
    rw [encode, String.toList_ofList, store_flatMap_write settings labels h]
  refine ⟨⟨fun part => storePiece settings labels part.piece, isStored_storePiece settings labels,
    ?_⟩, fun others hothers hsame => ?_⟩
  · rw [hencode parts h, List.flatMap_map]
  · rw [hencode others hothers, hencode parts h, hsame]

/-- A badge is stored as the marker of the lesser of two tokens with its text for their label,
though another attribute stands before its class. -/
theorem encode_flatMap_write_least_token :
    let labels := LabelTable.ofList [("b.y", "A&<i>"), ("a.x", "A&<i>")]
    let badge : Markup.Written :=
      .span " data-class=\"x\"".toList '\n' "badge".toList " id='1'".toList "A&amp;<i>".toList
    let parts : List Markup.Written :=
      [.run "R &amp;lt;".toList, badge, .breakTag [' '] true, .bareReturn, .returnFeed]
    Markup.WellFormed parts ∧
      encode .standard labels
        "R &amp;lt;<span data-class=\"x\"\nclass=\"badge\" id='1'>A&amp;<i></span><br />\r\r\n" =
        "R &lt;" ++ Template.wrap "a.x" ++ "\n\n\n" := by
  intro labels badge parts
  have hinner : ¬Markup.spanClose <:+: "A&amp;<i>".toList := fun hclose =>
    absurd (hclose.subset (by decide : '/' ∈ Markup.spanClose)) (by decide)
  have hformed : Markup.WellFormed parts := by
    refine .run (by decide) (by decide) (by simp [badge]) ?_
    refine .span ?_ (by decide) (by decide) (by decide) (by decide) (by decide) hinner ?_
    · rintro c ⟨⟩
      exact Text.isWord_of_isBlank (by decide)
    · exact .breakTag true (List.all_eq_true.mp (by decide))
        (.bareReturn (by decide) (.returnFeed .nil))
  obtain ⟨⟨stored, hstored, hencode⟩, _⟩ := encode_flatMap_write .standard labels hformed
  have hleast : labels.IsLeastFor "A&<i>" "a.x" := labels.tokenFor?_eq_some_iff.mp (by decide)
  have hbadge : stored badge = Template.marker "a.x".toList := by
    rcases hstored badge with ⟨_, token, hother, heq⟩ | ⟨hnone, _⟩
    · have hsame : "a.x" = token :=
        String.le_antisymm (hleast.2 token hother.1) (hother.2 "a.x" hleast.1)
      rw [heq, ← hsame]
    · exact absurd ⟨Or.inl rfl, "a.x", hleast.1⟩ hnone
  have hrun : stored (.run "R &amp;lt;".toList) = "R &lt;".toList := hstored (.run _)
  have hbreak : stored (.breakTag [' '] true) = ['\n'] := hstored (.breakTag _ _)
  have hbare : stored .bareReturn = ['\n'] := hstored .bareReturn
  have hfeed : stored .returnFeed = ['\n'] := hstored .returnFeed
  refine ⟨hformed, hencode.trans ?_⟩
  simp only [parts, List.flatMap_cons, List.flatMap_nil, hrun, hbadge, hbreak, hbare, hfeed]
  decide

end Codec
end Workflow
