import Workflow.Proofs.Codec.Rendering
import Workflow.Proofs.Markup.Entities
import Workflow.Proofs.Markup.Pieces

/-!
# Storing what was shown

What the scan of markup finds in the markup of a stored text: its characters again, a line break for
a newline, and a span for each badge.  So encoding the markup of a text gives the text back, except
that a marker becomes the marker of the least token with the same label, or the label itself if no
token has it.
-/

namespace Workflow
namespace Codec

theorem startsMark_escapeChar (c : Char) :
    ∀ d ∈ Markup.escapeChar c, Markup.startsMark d = false := by
  intro d hd
  obtain ⟨hopen, _, hreturn⟩ := Markup.plain_of_mem_escapeChar hd
  simp [Markup.startsMark, hopen, hreturn]

theorem escapeChar_ne_nil (c : Char) : Markup.escapeChar c ≠ [] := by
  unfold Markup.escapeChar
  split <;> simp

/-- A badge is read as a span with its class and its escaped label. -/
theorem scan_badge {cls : String} (h : '"' ∉ cls.toList) (label : String) (rest : List Char) :
    Markup.scan (badge cls label ++ rest) =
      .span cls.toList (Markup.escape label.toList) :: Markup.scan rest := by
  have hsplit : badge cls label ++ rest = Markup.spanOpen ++ (' ' :: (Markup.classOpen ++
      (cls.toList ++ '"' :: (fixedAttribute ++ '>' ::
        (Markup.escape label.toList ++ Markup.spanClose ++ rest))))) := by
    simp [badge]
  have hblank : Text.isBlank ' ' = true := by decide
  have hname : Text.isWord ' ' = false := by decide +kernel
  have hfixed : '>' ∉ fixedAttribute := by decide
  rw [hsplit]
  refine Markup.scan_span rest ?_ (Markup.afterClassOpen?_cons hblank _) h hfixed fun hclose =>
    Markup.bracket_notMem_escape label.toList (hclose.subset (by decide))
  simp [Markup.endsName, hname]

section Storing

variable (settings : Settings) (labels : LabelTable)

/-- An escaped character is stored as itself, whatever follows it. -/
@[simp] theorem store_escapeChar (c : Char) (rest : List Char) :
    store settings labels (Markup.escapeChar c ++ rest) = c :: store settings labels rest := by
  have hscan := Markup.scan_append_of_unmarked (startsMark_escapeChar c) rest
  rcases Markup.foldr_consText (escapeChar_ne_nil c) (Markup.scan rest) with
    ⟨run, others, hrest, hfold⟩ | hfold
  · rw [store, store, hscan, hfold, hrest, List.flatMap_cons, List.flatMap_cons]
    simp [storePiece]
  · have hself : Markup.unescape (Markup.escapeChar c) = [c] := by
      simpa using Markup.unescape_escapeChar c []
    rw [store, store, hscan, hfold, List.flatMap_cons]
    simp [storePiece, hself]

/-- The markup of a character is stored as that character. -/
@[simp] theorem store_renderChar (c : Char) (rest : List Char) :
    store settings labels (renderChar c ++ rest) = c :: store settings labels rest := by
  unfold renderChar
  split
  · rename_i hnewline
    have hscan := Markup.scan_breakTag rest
    rw [breakTag, List.append_assoc, List.singleton_append, store, hscan, List.flatMap_cons,
      hnewline]
    rfl
  · exact store_escapeChar settings labels c rest

/-- What is stored for the badge of a label. -/
def storedLabel (label : String) : List Char :=
  match labels.tokenFor? label with
  | some token => Template.marker token.toList
  | none => label.toList

theorem store_badge {cls : String} (hquote : '"' ∉ cls.toList)
    (hbadge : settings.isBadge cls.toList = true) (label : String) (rest : List Char) :
    store settings labels (badge cls label ++ rest) =
      storedLabel labels label ++ store settings labels rest := by
  rw [store, scan_badge hquote, List.flatMap_cons]
  congr 1
  simp only [storePiece, storeSpan, Markup.unescape_escape, String.ofList_toList, hbadge, if_true]
  rfl

/-- What a part of a stored text is stored as again. -/
def restorePiece : Template.Piece → List Char
  | .char c => [c]
  | .marker token => storedLabel labels (labelOf labels (String.ofList token))

/-- The markup of the parts of a text is stored part by part. -/
theorem store_flatMap_renderPiece {classes : String → String}
    (hquote : ∀ token, '"' ∉ (classes token).toList)
    (hbadge : ∀ token, settings.isBadge (classes token).toList = true)
    (pieces : List Template.Piece) :
    store settings labels (pieces.flatMap (renderPiece classes labels)) =
      pieces.flatMap (restorePiece labels) := by
  induction pieces with
  | nil => simp [store, Markup.scan]
  | cons piece rest ih =>
      rw [List.flatMap_cons, List.flatMap_cons, ← ih]
      cases piece with
      | char c => simp [renderPiece, restorePiece]
      | marker token =>
          exact store_badge settings labels (hquote _) (hbadge _)
            (labelOf labels (String.ofList token)) _

/-- What the marker of a token is stored as again: the marker of the least token with what the token
is shown as for its label, or what is shown if no token has it for its label. -/
def IsRestored (token : String) (text : List Char) : Prop :=
  (∃ least, labels.IsLeastFor (labelOf labels token) least ∧
    text = Template.marker least.toList) ∨
  ((∀ other, labels.get? other ≠ some (labelOf labels token)) ∧
    text = (labelOf labels token).toList)

theorem isRestored_storedLabel (token : String) :
    IsRestored labels token (storedLabel labels (labelOf labels token)) := by
  unfold storedLabel
  split
  · rename_i least hleast
    exact Or.inl ⟨least, (labels.tokenFor?_eq_some_iff).mp hleast, rfl⟩
  · rename_i hnone
    exact Or.inr ⟨(labels.tokenFor?_eq_none_iff).mp hnone, rfl⟩

/-- No token of the table holds a brace. -/
def HasPlainTokens : Prop :=
  ∀ token label, labels.get? token = some label → ∀ c ∈ token.toList, Template.isPlain c = true

/-- A part of a stored text with something else in the place of a marker. -/
def replaceMarker (replacement : String → List Char) : Template.Piece → List Char
  | .char c => [c]
  | .marker token => replacement (String.ofList token)

end Storing

section Unchanged

variable {labels : LabelTable}

theorem labelOf_eq {token label : String} (h : labels.get? token = some label) :
    labelOf labels token = label := by
  rw [labelOf, h]
  rfl

/-- The marker of the least token with its label is restored unchanged. -/
theorem eq_marker_of_isLeastFor {token label : String} {text : List Char}
    (hleast : labels.IsLeastFor label token) (h : IsRestored labels token text) :
    text = Template.marker token.toList := by
  have hlabel := labelOf_eq hleast.1
  rcases h with ⟨least, hother, htext⟩ | ⟨hnone, _⟩
  · rw [hlabel] at hother
    have heq : least = token :=
      String.le_antisymm (hother.2 token hleast.1) (hleast.2 least hother.1)
    rw [htext, heq]
  · rw [hlabel] at hnone
    exact absurd hleast.1 (hnone token)

/-- Only the marker of the least token with its label is restored to a text that starts with that
marker.  This rests on the tokens of the table: none of them holds a brace. -/
theorem isLeastFor_of_append_eq (hplain : HasPlainTokens labels)
    {token : String} (htoken : Template.IsToken token.toList) {text before after : List Char}
    (hrestored : IsRestored labels token text)
    (h : text ++ before = Template.marker token.toList ++ after) :
    labels.IsLeastFor (labelOf labels token) token := by
  rcases hrestored with ⟨least, hleast, htext⟩ | ⟨hnone, htext⟩
  · subst htext
    have heq := Template.eq_of_marker_append (hplain least _ hleast.1) htoken.2 h
    rwa [String.toList_inj.mp heq] at hleast
  · -- Such a token has no label, so it is stored as its own characters, and none is a brace.
    have hget : labels.get? token = none := by
      cases hlabel : labels.get? token with
      | none => rfl
      | some label => exact absurd (labelOf_eq hlabel ▸ hlabel) (hnone token)
    have hself : labelOf labels token = token := by
      rw [labelOf, hget]
      rfl
    obtain ⟨c, rest, hc⟩ := List.exists_cons_of_ne_nil htoken.1
    have hbrace : Template.isPlain '{' = true := by
      rw [htext, hself] at h
      have hhead := congrArg List.head? h
      rw [hc] at hhead
      simp only [List.cons_append, List.head?_cons, Template.marker, Template.openMark] at hhead
      exact Option.some.inj hhead ▸ htoken.2 c (hc ▸ List.mem_cons_self)
    exact absurd hbrace (by decide)

/-- A text is restored unchanged just if each of its tokens is the least one with its label. -/
theorem flatMap_replaceMarker_eq_iff (hplain : HasPlainTokens labels)
    {replacement : String → List Char}
    (hrestored : ∀ token, IsRestored labels token (replacement token))
    {pieces : List Template.Piece}
    (htokens : ∀ token, .marker token ∈ pieces → Template.IsToken token) :
    pieces.flatMap (replaceMarker replacement) = pieces.flatMap Template.Piece.write ↔
      ∀ token : String, .marker token.toList ∈ pieces → ∃ label, labels.IsLeastFor label token := by
  induction pieces with
  | nil => simp
  | cons piece rest ih =>
      have ih := ih fun token hmem => htokens token (List.mem_cons_of_mem _ hmem)
      rw [List.flatMap_cons, List.flatMap_cons]
      cases piece with
      | char c =>
          have hrest : ∀ token : String, .marker token.toList ∈ Template.Piece.char c :: rest ↔
              .marker token.toList ∈ rest := by simp
          simp only [replaceMarker, Template.Piece.write, List.cons_append, List.nil_append,
            List.cons.injEq, true_and, hrest, ih]
      | marker token =>
          have htoken : Template.IsToken (String.ofList token).toList := by
            rw [String.toList_ofList]
            exact htokens token List.mem_cons_self
          have hwrite : (Template.Piece.marker token).write =
              Template.marker (String.ofList token).toList := by
            rw [String.toList_ofList]
            rfl
          rw [hwrite]
          constructor
          · intro h other hmem
            have hleast := isLeastFor_of_append_eq hplain htoken (hrestored _) h
            have hhead := eq_marker_of_isLeastFor hleast (hrestored _)
            rcases List.mem_cons.mp hmem with heq | hmem
            · have heq : other = String.ofList token := by
                rw [← Template.Piece.marker.inj heq, String.ofList_toList]
              exact ⟨_, heq ▸ hleast⟩
            · rw [replaceMarker, hhead] at h
              exact ih.mp (List.append_cancel_left h) other hmem
          · intro h
            obtain ⟨label, hleast⟩ := h (String.ofList token) (by simp)
            rw [replaceMarker, eq_marker_of_isLeastFor hleast (hrestored _),
              ih.mpr fun other hmem => h other (List.mem_cons_of_mem _ hmem)]

end Unchanged

/-- **Storing what was shown.**  The text that is stored for the markup of a text is that text with
its markers replaced: the marker of a token becomes the marker of the least token with the same
label, or the label if no token has it.  If no token of the table holds a brace, the text is stored
unchanged just if each of its tokens is the least one with its label. -/
theorem encode_decode (settings : Settings) (nodes : List Node) (node : Node) (check : Bool)
    (stored : String) (hreference : '"' ∉ settings.referenceClass.toList)
    (herror : '"' ∉ settings.errorClass.toList) :
    let again := encode settings node.labels (decode settings nodes node check stored).text
    (∃ replacement : String → List Char,
      (∀ token, IsRestored node.labels token (replacement token)) ∧
      stored = String.ofList ((Template.scan stored.toList).flatMap Template.Piece.write) ∧
      again = String.ofList ((Template.scan stored.toList).flatMap (replaceMarker replacement))) ∧
    (HasPlainTokens node.labels →
      (again = stored ↔
        ∀ token ∈ Template.tokens stored, ∃ label, node.labels.IsLeastFor label token)) := by
  intro again
  have hrestored := isRestored_storedLabel node.labels
  have hclass : ∀ token, settings.HasClass (classOf settings (.ofNodes nodes) node check token) :=
    fun token => settings.hasClass_ite _
  have hagain : again = String.ofList ((Template.scan stored.toList).flatMap
      (replaceMarker fun token => storedLabel node.labels (labelOf node.labels token))) := by
    have hstore := store_flatMap_renderPiece settings node.labels
      (fun token => (hclass token).quote_notMem hreference herror)
      (fun token => (hclass token).isBadge) (Template.scan stored.toList)
    show encode settings node.labels (decode settings nodes node check stored).text = _
    rw [decode_eq, encode, String.toList_ofList, render, hstore]
    rfl
  have hwrite : stored =
      String.ofList ((Template.scan stored.toList).flatMap Template.Piece.write) := by
    simp
  refine ⟨⟨_, hrestored, hwrite, hagain⟩, fun hplain => ?_⟩
  have hiff := flatMap_replaceMarker_eq_iff hplain hrestored
    fun token (hmem : .marker token ∈ Template.scan stored.toList) =>
      Template.isToken_of_mem_scan hmem
  rw [Template.write_scan] at hiff
  simp only [Template.mem_tokens_iff]
  rw [← hiff, hagain]
  constructor
  · intro h
    have hlist := congrArg String.toList h
    rwa [String.toList_ofList] at hlist
  · intro h
    rw [h, String.ofList_toList]

/-- Of two tokens with one label the lesser is stored unchanged, and the other is not. -/
theorem encode_decode_shared_label :
    let labels := LabelTable.ofList [("a.x", "X"), ("b.y", "X")]
    let node : Node := { id := "n", name := "", kind := "", groups := [], labels }
    let again := fun stored => encode .standard labels (decode .standard [node] node true stored).text
    '"' ∉ Settings.standard.referenceClass.toList ∧ '"' ∉ Settings.standard.errorClass.toList ∧
      again ("<br>\r\n" ++ Template.wrap "a.x") = "<br>\r\n" ++ Template.wrap "a.x" ∧
      again (Template.wrap "b.y") ≠ Template.wrap "b.y" := by
  intro labels node again
  have hreference : '"' ∉ Settings.standard.referenceClass.toList := by decide
  have herror : '"' ∉ Settings.standard.errorClass.toList := by decide
  have hplain : HasPlainTokens labels := by
    intro token label hget
    have hmem := labels.mem_entries_iff.mpr hget
    have hentries : (labels.entries.all fun entry => entry.1.toList.all Template.isPlain) = true := by
      decide
    exact List.all_eq_true.mp (List.all_eq_true.mp hentries _ hmem)
  have hleast : labels.IsLeastFor "X" "a.x" := labels.tokenFor?_eq_some_iff.mp (by decide)
  refine ⟨hreference, herror, ?_, fun h => ?_⟩
  · refine ((encode_decode .standard [node] node true _ hreference herror).2 hplain).mpr ?_
    have htokens : Template.tokens ("<br>\r\n" ++ Template.wrap "a.x") = ["a.x"] := by cbv
    intro token hmem
    rw [htokens, List.mem_singleton] at hmem
    exact ⟨"X", hmem ▸ hleast⟩
  · have htokens : Template.tokens (Template.wrap "b.y") = ["b.y"] := by cbv
    obtain ⟨label, hother⟩ :=
      ((encode_decode .standard [node] node true _ hreference herror).2 hplain).mp h "b.y"
        (htokens ▸ List.mem_singleton_self "b.y")
    have hlabel : label = "X" := Option.some.inj (hother.1.symm.trans (by decide))
    exact absurd (hother.2 "a.x" (hlabel ▸ hleast.1)) (by decide)

end Codec
end Workflow
