import Mathlib
import Workflow.Proofs.Codec.RoundTrip
import Workflow.Proofs.Reference.Report

/-!
# Errors of a shown text and its issues

A text of a parameter is looked at twice: when it is shown, and when the references of the flow are
checked.  The two agree (`Agrees`): the report has an issue for each badge that is shown as broken,
and the reported error is that of one of these issues.
-/

namespace Workflow

/-- Whether a part of some markup is a span with the class of a badge. -/
def Codec.Settings.isBadgePiece (settings : Settings) : Markup.Piece → Bool
  | .span classes _ => settings.isBadge classes
  | _ => false

namespace Codec

/-- The number of badges that the scan of some markup finds. -/
def badgeCount (settings : Settings) (markup : List Char) : Nat :=
  (Markup.scan markup).countP settings.isBadgePiece

section Counting

variable (settings : Settings)

@[simp] theorem badgeCount_renderChar (c : Char) (rest : List Char) :
    badgeCount settings (renderChar c ++ rest) = badgeCount settings rest := by
  unfold renderChar
  split
  · have hscan := Markup.scan_breakTag rest
    rw [breakTag, List.append_assoc, List.singleton_append, badgeCount, hscan,
      List.countP_cons_of_neg (by simp [Settings.isBadgePiece])]
    rfl
  · have hscan := Markup.scan_append_of_unmarked (startsMark_escapeChar c) rest
    rcases Markup.foldr_consText (escapeChar_ne_nil c) (Markup.scan rest) with
      ⟨run, others, hrest, hfold⟩ | hfold
    · rw [badgeCount, badgeCount, hscan, hfold, hrest,
        List.countP_cons_of_neg (by simp [Settings.isBadgePiece]),
        List.countP_cons_of_neg (by simp [Settings.isBadgePiece])]
    · rw [badgeCount, badgeCount, hscan, hfold,
        List.countP_cons_of_neg (by simp [Settings.isBadgePiece])]

/-- The markup of a text has a badge for each marker in it. -/
theorem badgeCount_render {classes : String → String}
    (hquote : ∀ token, '"' ∉ (classes token).toList)
    (hbadge : ∀ token, settings.isBadge (classes token).toList = true)
    (labels : LabelTable) (stored : String) :
    badgeCount settings (render classes labels stored) = (Template.tokens stored).length := by
  rw [render, Template.tokens]
  generalize Template.scan stored.toList = pieces
  induction pieces with
  | nil => simp [badgeCount, Markup.scan]
  | cons piece rest ih =>
      rw [List.flatMap_cons]
      cases piece with
      | char c =>
          simpa [renderPiece, Template.Piece.token?] using ih
      | marker token =>
          have hspan : settings.isBadgePiece (.span (classes (String.ofList token)).toList
              (Markup.escape (labelOf labels (String.ofList token)).toList)) = true := hbadge _
          rw [renderPiece, badgeCount, scan_badge (hquote _), List.countP_cons_of_pos hspan]
          exact congrArg Nat.succ ih

end Counting

/-- The markup of a text depends on the classes of its tokens alone. -/
theorem render_congr {classes others : String → String} {labels : LabelTable} {stored : String}
    (h : ∀ token ∈ Template.tokens stored, classes token = others token) :
    render classes labels stored = render others labels stored := by
  have hpieces : ∀ piece ∈ Template.scan stored.toList,
      renderPiece classes labels piece = renderPiece others labels piece := by
    intro piece hpiece
    cases piece with
    | char c => rfl
    | marker token =>
        have htoken : String.ofList token ∈ Template.tokens stored :=
          Template.mem_tokens_iff.mpr (by rwa [String.toList_ofList])
        rw [renderPiece, renderPiece, h _ htoken]
  rw [render, render, List.flatMap_def, List.flatMap_def, List.map_congr_left hpieces]

/-- The class of the badge of a token in a text with some issues. -/
def classAmong (settings : Settings) (issues : List Issue) (token : String) : String :=
  if issues.any fun issue => issue.token = token then settings.errorClass
  else settings.referenceClass

/-- What is shown for a text of a node agrees with a report on the references in it. -/
structure Agrees (settings : Settings) (nodes : List Node) (node : Node) (text : String)
    (report : Report) : Prop where
  /-- As many references are broken as the report has issues. -/
  broken : (decode settings nodes node true text).broken = report.issues.length
  /-- The reported error is that of the last or of the first issue. -/
  error : (decode settings nodes node true text).error? =
    match settings.errorPolicy with
    | .lastWins => report.issues.getLast?.map Issue.error
    | .firstWins => report.issues.head?.map Issue.error
  /-- No error is reported just if there is no issue. -/
  noError : (decode settings nodes node true text).error? = none ↔ report.issues = []
  isValid : (decode settings nodes node true text).isValid = true ↔
    (decode settings nodes node true text).broken = 0
  /-- The text is shown part by part, with the error class for the tokens of the issues. -/
  shown : (decode settings nodes node true text).text =
    String.ofList (render (classAmong settings report.issues) node.labels text)
  /-- Each marker is shown as a badge, and the report has looked at as many references. -/
  markers : (Template.tokens text).length = report.checked
  /-- If the classes can be told from the attribute around them, the badges are found again. -/
  badges : '"' ∉ settings.referenceClass.toList → '"' ∉ settings.errorClass.toList →
    badgeCount settings (decode settings nodes node true text).text.toList = report.checked
  /-- The policy has a say in the reported error alone. -/
  policy : ∀ policy check,
    (decode { settings with errorPolicy := policy } nodes node check text).text =
        (decode settings nodes node check text).text ∧
      (decode { settings with errorPolicy := policy } nodes node check text).broken =
        (decode settings nodes node check text).broken
  /-- If nothing is checked, nothing is broken. -/
  uncheckedBroken : (decode settings nodes node false text).broken = 0
  uncheckedError : (decode settings nodes node false text).error? = none
  /-- If nothing is checked, all badges have the reference class and all else is the same. -/
  unchecked : (decode settings nodes node false text).text =
    String.ofList (render (fun _ => settings.referenceClass) node.labels text)

section Agreement

variable (nodes : List Node) (node : Node) (param : Param)

theorem errorOf?_eq (token : String) :
    errorOf? (.ofNodes nodes) node true token =
      (Occurrence.issue? nodes ⟨node, param, token⟩).map Issue.error := by
  rw [Occurrence.issue?, Option.map_map]
  exact Option.map_id'.symm

theorem errors_eq {text : String} (hvalue : param.value = .str text) :
    errors (.ofNodes nodes) node true text = (param.issues nodes node).map Issue.error := by
  have htokens : param.tokens = Template.tokens text := by
    simp [Param.tokens, hvalue, Json.Value.texts]
  rw [errors, Param.issues, htokens, List.map_filterMap]
  exact congrArg (List.filterMap · _) (funext (errorOf?_eq nodes node param))

/-- A token of a text has the class that the issues of the text give it. -/
theorem classOf_eq_classAmong (settings : Settings) {token : String} (h : token ∈ param.tokens) :
    classOf settings (.ofNodes nodes) node true token =
      classAmong settings (param.issues nodes node) token := by
  have hiff : (errorOf? (.ofNodes nodes) node true token).isSome = true ↔
      (param.issues nodes node).any (fun issue => issue.token = token) = true := by
    rw [errorOf?_eq nodes node param, Option.isSome_map, List.any_eq_true]
    constructor
    · intro hsome
      obtain ⟨issue, hissue⟩ := Option.isSome_iff_exists.mp hsome
      refine ⟨issue, List.mem_filterMap.mpr ⟨token, h, hissue⟩, ?_⟩
      obtain ⟨error, _, rfl⟩ := Option.map_eq_some_iff.mp hissue
      exact decide_eq_true rfl
    · rintro ⟨issue, hmem, heq⟩
      obtain ⟨other, _, hissue⟩ := List.mem_filterMap.mp hmem
      have hother : other = token := by
        obtain ⟨error, _, rfl⟩ := Option.map_eq_some_iff.mp hissue
        exact of_decide_eq_true heq
      rw [← hother, hissue]
      rfl
  unfold classOf classAmong
  simp only [hiff]

/-- What is shown for a text of a parameter agrees with the issues of the parameter. -/
theorem agrees_issues (settings : Settings) {text : String} (hvalue : param.value = .str text) :
    Agrees settings nodes node text ⟨param.tokens.length, param.issues nodes node⟩ := by
  have htokens : param.tokens = Template.tokens text := by
    simp [Param.tokens, hvalue, Json.Value.texts]
  have herrors := errors_eq nodes node param hvalue
  have hunchecked : errors (.ofNodes nodes) node false text = [] := by
    simp [errors, errorOf?]
  have hshown : render (classOf settings (.ofNodes nodes) node true) node.labels text =
      render (classAmong settings (param.issues nodes node)) node.labels text :=
    render_congr fun token htoken =>
      classOf_eq_classAmong nodes node param settings (htokens ▸ htoken)
  constructor
  case broken => rw [decode_eq, herrors, List.length_map]
  case error =>
    rw [decode_eq, herrors]
    cases settings.errorPolicy with
    | lastWins => exact List.getLast?_map
    | firstWins => exact List.head?_map
  case noError =>
    rw [decode_eq, herrors]
    cases settings.errorPolicy <;> simp [ErrorPolicy.choose]
  case isValid =>
    rw [decode_eq, herrors]
    cases settings.errorPolicy <;> simp [Decoded.isValid, ErrorPolicy.choose]
  case shown => rw [decode_eq, hshown]
  case markers => rw [htokens]
  case badges =>
    intro hreference herror
    rw [decode_eq, hshown, String.toList_ofList, htokens]
    have hclass : ∀ token, settings.HasClass (classAmong settings (param.issues nodes node) token) :=
      fun token => settings.hasClass_ite _
    exact badgeCount_render settings (fun token => (hclass token).quote_notMem hreference herror)
      (fun token => (hclass token).isBadge) node.labels text
  case policy =>
    intro policy check
    rw [decode_eq, decode_eq]
    exact ⟨rfl, rfl⟩
  case uncheckedBroken => rw [decode_eq, hunchecked, List.length_nil]
  case uncheckedError =>
    rw [decode_eq, hunchecked]
    cases settings.errorPolicy <;> rfl
  case unchecked => rw [decode_eq]; rfl

end Agreement

/-- **Shown and reported.**  On the way through the flow, the report grows at a parameter whose value
is a text by a report that agrees with what is shown for the text. -/
theorem agrees_report (settings : Settings) {flow : Flow} {before after : List Node} {node : Node}
    {earlier later : List Param} {param : Param} {text : String}
    (hnodes : flow.nodes = before ++ node :: after) (hparams : node.params = earlier ++ param :: later)
    (hvalue : param.value = .str text) :
    let index := NodeIndex.ofNodes flow.nodes
    let reached := earlier.foldl (Report.checkParam index node)
      (before.foldl (Report.checkNode index) .empty)
    let left := Report.checkParam index node reached param
    flow.report =
        after.foldl (Report.checkNode index) (later.foldl (Report.checkParam index node) left) ∧
      ∃ added : Report, left.checked = reached.checked + added.checked ∧
        left.issues = reached.issues ++ added.issues ∧
        Agrees settings flow.nodes node text added := by
  intro index reached left
  refine ⟨?_, ⟨param.tokens.length, param.issues flow.nodes node⟩, ?_, ?_,
    agrees_issues flow.nodes node param settings hvalue⟩
  · have hloop : flow.report = (before ++ node :: after).foldl (Report.checkNode index) .empty := by
      rw [← hnodes]
      rfl
    have hnode : ∀ report : Report, Report.checkNode index report node =
        later.foldl (Report.checkParam index node) (Report.checkParam index node
          (earlier.foldl (Report.checkParam index node) report) param) := by
      intro report
      rw [Report.checkNode, hparams, List.foldl_append, List.foldl_cons]
    rw [hloop, List.foldl_append, List.foldl_cons, hnode]
  · show (Report.checkParam index node reached param).checked = _
    rw [Report.checkParam_eq]
  · show (Report.checkParam index node reached param).issues = _
    rw [Report.checkParam_eq]

/-- Of two references that do not resolve, the policy picks the later or the earlier one. -/
theorem agrees_report_two_issues :
    let text := Template.wrap "gone.x" ++ ", " ++ Template.wrap "gone.y"
    let param : Param :=
      { key := "prompt", label? := none, kind := .textArea, exposed := false, value := .str text }
    let node : Node :=
      { id := "llm", name := "", kind := "", groups := [⟨none, [param]⟩], labels := .empty }
    let flow : Flow := { nodes := [node], edges := [] }
    let shown := fun policy =>
      decode { Settings.standard with errorPolicy := policy } flow.nodes node true text
    flow.nodes = [] ++ node :: [] ∧ node.params = [] ++ param :: [] ∧ param.value = .str text ∧
      (shown .lastWins).error?.map ReferenceError.label = some "gone.y" ∧
      (shown .firstWins).error?.map ReferenceError.label = some "gone.x" := by
  intro text param node flow shown
  have hnodes : flow.nodes = [] ++ node :: [] := rfl
  have hparams : node.params = [] ++ param :: [] := rfl
  have hvalue : param.value = .str text := rfl
  obtain ⟨_, last, _, hlast, hagrees⟩ := agrees_report
    { Settings.standard with errorPolicy := .lastWins } hnodes hparams hvalue
  obtain ⟨_, first, _, hfirst, hagrees'⟩ := agrees_report
    { Settings.standard with errorPolicy := .firstWins } hnodes hparams hvalue
  simp only [List.foldl_nil, Report.empty, List.nil_append] at hlast hfirst
  refine ⟨hnodes, hparams, hvalue, ?_, ?_⟩
  · rw [hagrees.error, ← hlast]
    cbv
  · rw [hagrees'.error, ← hfirst]
    cbv

end Codec
end Workflow
