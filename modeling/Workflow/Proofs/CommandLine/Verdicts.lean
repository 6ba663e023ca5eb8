import Mathlib
import Workflow.CommandLine.Run
import Workflow.Proofs.Codec.Issues
import Workflow.Proofs.Flow.Faults

/-!
# Verdicts of the commands

One command checks the references of a whole flow, and another one those in the texts that it
renders for a node.  Their exits tell whether references do not resolve, and they tell the same
where both look (`VerdictsAgree`).  The first goes into arrays and objects too, so it alone can
fail for what stands in them.
-/

namespace Workflow

/-- The parameters of a node whose values are texts, with these texts. -/
def Node.texts (node : Node) : List (Param × String) :=
  node.params.filterMap fun param => param.value.str?.map fun text => (param, text)

/-- A marker in a text of a node names what does not resolve. -/
def Node.Breaks (nodes : List Node) (node : Node) (text : String) : Prop :=
  ∃ token ∈ Template.tokens text, validate? nodes node.id token (node.labels.get? token) ≠ none

/-- No value of a parameter is an array or an object. -/
def Flow.IsFlat (flow : Flow) : Prop :=
  ∀ node ∈ flow.nodes, ∀ param ∈ node.params,
    (∀ items, param.value ≠ .arr items) ∧ ∀ members, param.value ≠ .obj members

section Breaks

variable {nodes : List Node} {node : Node}

@[simp] theorem Node.mem_texts_iff {param : Param} {text : String} :
    (param, text) ∈ node.texts ↔ param ∈ node.params ∧ param.value = .str text := by
  have hstr : ∀ value : Json.Value, value.str? = some text ↔ value = .str text := by
    intro value
    cases value <;> simp [Json.Value.str?]
  simp only [Node.texts, List.mem_filterMap, Option.map_eq_some_iff, Prod.mk.injEq]
  constructor
  · rintro ⟨other, hother, found, hfound, rfl, rfl⟩
    exact ⟨hother, (hstr _).mp hfound⟩
  · rintro ⟨hparam, hvalue⟩
    exact ⟨param, hparam, text, (hstr _).mpr hvalue, rfl, rfl⟩

/-- The errors of a text are those of its markers. -/
@[simp] theorem Codec.errors_eq_nil_iff {text : String} :
    Codec.errors (.ofNodes nodes) node true text = [] ↔ ¬node.Breaks nodes text := by
  simp only [Codec.errors, Codec.errorOf?, if_true, List.filterMap_eq_nil_iff, Node.Breaks,
    not_exists, not_and, not_not, Codec.labelOf]
  rfl

/-- A parameter with a text has issues just if a marker in the text does not resolve. -/
theorem Param.issues_eq_nil_iff {param : Param} {text : String} (hvalue : param.value = .str text) :
    param.issues nodes node = [] ↔ ¬node.Breaks nodes text := by
  rw [← Codec.errors_eq_nil_iff, Codec.errors_eq nodes node param hvalue, List.map_eq_nil_iff]

theorem Flow.issues_eq_nil_iff {flow : Flow} :
    flow.report.issues = [] ↔
      ∀ node ∈ flow.nodes, ∀ param ∈ node.params, param.issues flow.nodes node = [] := by
  simp only [Flow.report_eq, Node.report_eq, List.flatMap_eq_nil_iff]

/-- Without an issue no marker in a text is broken. -/
theorem Flow.not_breaks {flow : Flow} (h : flow.report.issues = []) {node : Node}
    (hnode : node ∈ flow.nodes) {param : Param} {text : String}
    (hentry : (param, text) ∈ node.texts) : ¬node.Breaks flow.nodes text := by
  obtain ⟨hparam, hvalue⟩ := Node.mem_texts_iff.mp hentry
  exact (Param.issues_eq_nil_iff hvalue).mp (Flow.issues_eq_nil_iff.mp h node hnode param hparam)

/-- Without arrays and objects, all issues are those of broken markers in texts. -/
theorem Flow.IsFlat.issues_eq_nil {flow : Flow} (hflat : flow.IsFlat)
    (h : ∀ node ∈ flow.nodes, ∀ entry ∈ node.texts, ¬node.Breaks flow.nodes entry.2) :
    flow.report.issues = [] := by
  refine Flow.issues_eq_nil_iff.mpr fun node hnode param hparam => ?_
  obtain ⟨harr, hobj⟩ := hflat node hnode param hparam
  have hnone : param.value.texts = [] → param.issues flow.nodes node = [] := by
    intro htexts
    rw [Param.issues, Param.tokens, htexts]
    rfl
  cases hvalue : param.value with
  | str text =>
      have hentry := Node.mem_texts_iff.mpr ⟨hparam, hvalue⟩
      exact (Param.issues_eq_nil_iff hvalue).mpr (h node hnode _ hentry)
  | arr items => exact absurd hvalue (harr items)
  | obj members => exact absurd hvalue (hobj members)
  | null => exact hnone (hvalue ▸ rfl)
  | bool b => exact hnone (hvalue ▸ rfl)
  | int i => exact hnone (hvalue ▸ rfl)
  | real x => exact hnone (hvalue ▸ rfl)

end Breaks

namespace CommandLine

/-- A text made of some lines. -/
def unlines (lines : List String) : String :=
  String.join (lines.map (· ++ "\n"))

/-- The line on how much was checked. -/
def checkedLine (flow : Flow) : String :=
  "Checked " ++ Nat.repr flow.report.checked ++ " references across " ++
    Nat.repr flow.nodes.length ++ " nodes"

section Commands

variable (settings : Codec.Settings) (flow : Flow) (node : Node)

/-- The line that shows a text of a parameter. -/
def textLine (check : Bool) (shown : Param × String) : String :=
  shown.1.key ++ ": " ++ (Codec.decode settings flow.nodes node check shown.2).text

/-- The line on the error that is reported for a text. -/
def errorLine? (text : String) : Option String :=
  (settings.errorPolicy.choose (Codec.errors (.ofNodes flow.nodes) node true text)).map
    fun error => "  -> " ++ error.message

@[simp] theorem isSome_errorLine?_iff (text : String) :
    (errorLine? settings flow node text).isSome = true ↔ node.Breaks flow.nodes text := by
  have hchoose : ∀ errors : List ReferenceError,
      (settings.errorPolicy.choose errors).isSome = true ↔ errors ≠ [] := by
    intro errors
    cases settings.errorPolicy <;> cases errors <;> simp [Codec.ErrorPolicy.choose]
  simp [errorLine?, hchoose]

@[simp] theorem broken_eq_zero_iff (text : String) :
    (Codec.decode settings flow.nodes node true text).broken = 0 ↔
      ¬node.Breaks flow.nodes text := by
  simp [Codec.decode_eq]

theorem renderParam_eq (check : Bool) {param : Param} {text : String}
    (hvalue : param.value.str? = some text) :
    renderParam settings flow node check param =
      (textLine settings flow node check (param, text) ::
          (if check then (errorLine? settings flow node text).toList else []),
        (Codec.decode settings flow.nodes node check text).broken) := by
  have herror : ((Codec.decode settings flow.nodes node check text).error?.map fun error =>
      "  -> " ++ error.message).toList =
      if check then (errorLine? settings flow node text).toList else [] := by
    rw [Codec.decode_eq, errorLine?]
    cases check with
    | true => rfl
    | false =>
        have hnone : Codec.errors (.ofNodes flow.nodes) node false text = [] := by
          simp [Codec.errors, Codec.errorOf?]
        rw [hnone]
        cases settings.errorPolicy <;> rfl
  rw [renderParam, hvalue]
  dsimp only
  rw [herror]
  rfl

/-- A node is rendered text by text; the command fails if one of them has a broken reference. -/
theorem render_eq (check : Bool) :
    render settings flow node check =
      .done
        (node.texts.all fun shown =>
          (Codec.decode settings flow.nodes node check shown.2).broken = 0)
        (node.texts.flatMap fun shown =>
          textLine settings flow node check shown ::
            if check then (errorLine? settings flow node shown.2).toList else []) := by
  rw [render, Node.texts]
  generalize node.params = params
  congr 1
  · induction params with
    | nil => rfl
    | cons param rest ih =>
        cases hvalue : param.value.str? with
        | none => simp [hvalue, renderParam, ← ih]
        | some text => simp [hvalue, renderParam_eq settings flow node check hvalue, ← ih]
  · induction params with
    | nil => rfl
    | cons param rest ih =>
        cases hvalue : param.value.str? with
        | none => simp [hvalue, renderParam, ← ih]
        | some text => simp [hvalue, renderParam_eq settings flow node check hvalue, ← ih]

@[simp] theorem exit_done_eq_zero_iff {good : Bool} {lines : List String} :
    (Outcome.done good lines).exit = 0 ↔ good = true := by
  cases good <;> simp [Outcome.done]

@[simp] theorem exit_done_eq_one_iff {good : Bool} {lines : List String} :
    (Outcome.done good lines).exit = 1 ↔ good = false := by
  cases good <;> simp [Outcome.done]

@[simp] theorem exit_validate_eq_one_iff : (validate flow).exit = 1 ↔ flow.report.issues ≠ [] := by
  simp [validate, Report.isClean]

@[simp] theorem exit_validate_eq_zero_iff : (validate flow).exit = 0 ↔ flow.report.issues = [] := by
  simp [validate, Report.isClean]

theorem printed_validate :
    (validate flow).printed =
      unlines (checkedLine flow ::
        if flow.report.issues = [] then ["  -> All references resolve"]
        else flow.report.issues.map issueLine) := by
  simp only [validate, Outcome.done, Report.isClean, List.isEmpty_iff]
  rfl

/-- Whether a rendered node fails is up to its markers, whatever the settings. -/
@[simp] theorem exit_render_eq_zero_iff :
    (render settings flow node true).exit = 0 ↔
      ∀ shown ∈ node.texts, ¬node.Breaks flow.nodes shown.2 := by
  simp [render_eq]

@[simp] theorem exit_render_eq_one_iff :
    (render settings flow node true).exit = 1 ↔
      ∃ shown ∈ node.texts, node.Breaks flow.nodes shown.2 := by
  simp [render_eq]

/-- Nothing fails that is not checked. -/
@[simp] theorem exit_render_unchecked : (render settings flow node false).exit = 0 := by
  simp [render_eq, Codec.decode_eq, Codec.errors, Codec.errorOf?]

theorem exit_render_congr (others : Codec.Settings) (check : Bool) :
    (render settings flow node check).exit = (render others flow node check).exit := by
  simp only [render_eq, Codec.decode_eq, Outcome.done]

end Commands

/-- What the two commands tell of a flow, where `validated` is what comes of its check, and
`rendered` what comes of a rendered node of it. -/
structure VerdictsAgree (settings : Codec.Settings) (flow : Flow) (validated : Outcome)
    (rendered : Node → Bool → Outcome) : Prop where
  validated_ends : validated.error? = none
  /-- The check of the flow fails just if there is an issue. -/
  validated_exit : (validated.exit = 1 ↔ flow.report.issues ≠ []) ∧
    (validated.exit = 0 ↔ flow.report.issues = [])
  /-- It shows the issues as they are in the report. -/
  validated_printed : validated.printed =
    unlines (checkedLine flow ::
      if flow.report.issues = [] then ["  -> All references resolve"]
      else flow.report.issues.map issueLine)
  rendered_ends : ∀ node ∈ flow.nodes, ∀ check, (rendered node check).error? = none
  /-- A rendered node fails just if a marker in one of its texts does not resolve. -/
  rendered_exit : ∀ node ∈ flow.nodes,
    ((rendered node true).exit = 1 ↔
        ∃ shown ∈ node.texts, node.Breaks flow.nodes shown.2) ∧
      ((rendered node true).exit = 0 ↔
        ∀ shown ∈ node.texts, ¬node.Breaks flow.nodes shown.2)
  /-- Its texts are shown in order, each with an error behind it if there is one. -/
  rendered_printed : ∀ node ∈ flow.nodes,
    (rendered node true).printed =
      unlines (node.texts.flatMap fun shown =>
        textLine settings flow node true shown ::
          (errorLine? settings flow node shown.2).toList)
  /-- There is one for the texts with a marker that does not resolve. -/
  error_shown : ∀ node ∈ flow.nodes, ∀ shown ∈ node.texts,
    ((errorLine? settings flow node shown.2).isSome = true ↔ node.Breaks flow.nodes shown.2)
  /-- Without checks nothing fails, and only the texts are shown. -/
  unchecked : ∀ node ∈ flow.nodes, (rendered node false).exit = 0 ∧
    (rendered node false).printed = unlines (node.texts.map (textLine settings flow node false))
  /-- Where the flow passes, every node does. -/
  rendered_of_validated : validated.exit = 0 → ∀ node ∈ flow.nodes, (rendered node true).exit = 0
  /-- Without arrays and objects the flow fails just if a node does. -/
  validated_of_isFlat : flow.IsFlat →
    (validated.exit = 1 ↔ ∃ node ∈ flow.nodes, (rendered node true).exit = 1)

theorem verdictsAgree_of_eq {settings : Codec.Settings} {flow : Flow} {validated : Outcome}
    {rendered : Node → Bool → Outcome} (hvalidated : validated = validate flow)
    (hrendered : ∀ node ∈ flow.nodes, ∀ check,
      rendered node check = render settings flow node check) :
    VerdictsAgree settings flow validated rendered := by
  subst hvalidated
  constructor
  case validated_ends => rfl
  case validated_exit => exact ⟨exit_validate_eq_one_iff flow, exit_validate_eq_zero_iff flow⟩
  case validated_printed => exact printed_validate flow
  case rendered_ends =>
    intro node hnode check
    rw [hrendered node hnode]
    rfl
  case rendered_exit =>
    intro node hnode
    rw [hrendered node hnode]
    exact ⟨exit_render_eq_one_iff settings flow node, exit_render_eq_zero_iff settings flow node⟩
  case rendered_printed =>
    intro node hnode
    rw [hrendered node hnode, render_eq]
    rfl
  case error_shown => exact fun node _ shown _ => isSome_errorLine?_iff settings flow node shown.2
  case unchecked =>
    intro node hnode
    rw [hrendered node hnode]
    refine ⟨exit_render_unchecked settings flow node, ?_⟩
    rw [render_eq, List.map_eq_flatMap]
    rfl
  case rendered_of_validated =>
    intro hexit node hnode
    rw [hrendered node hnode, exit_render_eq_zero_iff]
    have hissues := (exit_validate_eq_zero_iff flow).mp hexit
    exact fun shown hshown => Flow.not_breaks hissues hnode hshown
  case validated_of_isFlat =>
    intro hflat
    rw [exit_validate_eq_one_iff]
    constructor
    · intro hissues
      by_contra hnone
      refine hissues (hflat.issues_eq_nil fun node hnode shown hshown hbreaks => hnone ?_)
      refine ⟨node, hnode, ?_⟩
      rw [hrendered node hnode, exit_render_eq_one_iff]
      exact ⟨shown, hshown, hbreaks⟩
    · rintro ⟨node, hnode, hexit⟩ hissues
      rw [hrendered node hnode, exit_render_eq_one_iff] at hexit
      obtain ⟨shown, hshown, hbreaks⟩ := hexit
      exact Flow.not_breaks hissues hnode hshown hbreaks

section Files

variable (files : String → Except String String)

/-- What comes of a command, where a file may hold the configuration. -/
def outcome (config? : Option String) (command : Command) : Outcome :=
  @run Id _ files { config?, command }

/-- A configuration is that of a file, or the standard one without a file. -/
def Configures (config? : Option String) (config : Config) : Prop :=
  match config? with
  | none => config = .standard
  | some path => ∃ text, files path = .ok text ∧ Config.load text = .ok config

variable {files} {config? : Option String} {config : Config}

theorem Configures.outcome_eq (h : Configures files config? config) (command : Command) :
    outcome files config? command = @runCommand Id _ files config command := by
  cases config? with
  | none => rw [show config = .standard from h]; rfl
  | some path =>
      obtain ⟨text, hfile, hload⟩ := h
      have hconfig : configOfFile path (files path) = .ok config := by
        simp only [configOfFile, hfile, hload]
      simp only [outcome, run, bind, hconfig]

variable {path text : String} {flow : Flow}

theorem outcome_validate (hfile : files path = .ok text) (hload : Flow.load text = .ok flow)
    (hconfig : Configures files config? config) :
    outcome files config? (.validate path) = validate flow := by
  rw [hconfig.outcome_eq]
  change onFlow path (files path) validate = _
  simp only [onFlow, flowOfFile, hfile, hload]

theorem outcome_render (hfile : files path = .ok text) (hload : Flow.load text = .ok flow)
    (hconfig : Configures files config? config) (id : String) (check : Bool) :
    outcome files config? (.render path id check) =
      onNode flow id fun node => render config.codec flow node check := by
  rw [hconfig.outcome_eq]
  change onFlow path (files path) (fun flow => onNode flow id fun node =>
    render config.codec flow node check) = _
  simp only [onFlow, flowOfFile, hfile, hload]

theorem outcome_render_of_mem (hfile : files path = .ok text) (hload : Flow.load text = .ok flow)
    (hconfig : Configures files config? config) {node : Node} (hnode : node ∈ flow.nodes)
    (check : Bool) :
    outcome files config? (.render path node.id check) =
      render config.codec flow node check := by
  rw [outcome_render hfile hload hconfig, onNode,
    (Flow.isFaultless_load hload).node?_of_mem hnode]

/-- No setting has a say in whether a rendered node fails. -/
theorem exit_onNode_congr (settings others : Codec.Settings) (id : String) (check : Bool) :
    (onNode flow id fun node => render settings flow node check).exit =
      (onNode flow id fun node => render others flow node check).exit := by
  unfold onNode
  cases flow.node? id with
  | none => rfl
  | some node => exact exit_render_congr settings flow node others check

/-- The commands agree on each flow that can be loaded, whatever the configuration; and this has no
say in how they end. -/
theorem verdictsAgree_outcome (hfile : files path = .ok text)
    (hload : Flow.load text = .ok flow) (hconfig : Configures files config? config) :
    VerdictsAgree config.codec flow (outcome files config? (.validate path))
        (fun node check => outcome files config? (.render path node.id check)) ∧
      ∀ others? others, Configures files others? others →
        (outcome files others? (.validate path)).exit =
            (outcome files config? (.validate path)).exit ∧
          ∀ id check, (outcome files others? (.render path id check)).exit =
            (outcome files config? (.render path id check)).exit := by
  constructor
  · exact verdictsAgree_of_eq (outcome_validate hfile hload hconfig)
      fun node hnode check => outcome_render_of_mem hfile hload hconfig hnode check
  · intro others? others hothers
    rw [outcome_validate hfile hload hothers, outcome_validate hfile hload hconfig]
    refine ⟨rfl, fun id check => ?_⟩
    rw [outcome_render hfile hload hothers, outcome_render hfile hload hconfig]
    exact exit_onNode_congr others.codec config.codec id check

set_option maxRecDepth 100000 in
/-- Of two nodes the one with a reference to a missing node fails, and with it the flow, with a
configuration from a file and without one. -/
theorem verdictsAgree_outcome_missing_node :
    let start : Node :=
      { id := "a", name := "", kind := "", groups := [], labels := .empty }
    let param : Param :=
      { key := "t", label? := none, kind := .other "", exposed := false
        value := .str (Template.wrap "c.y") }
    let last : Node :=
      { id := "b", name := "", kind := "", groups := [⟨none, [param]⟩], labels := .empty }
    let flow : Flow := { nodes := [start, last], edges := [] }
    let saved := "\x7b\"nodes\":[\x7b\"id\":\"a\",\"data\":\x7b\x7d\x7d,\x7b\"id\":\"b\"," ++
      "\"data\":\x7b\"group_params\":[\x7b\"params\":[\x7b\"key\":\"t\",\"value\":\"" ++
      Template.wrap "c.y" ++ "\"\x7d]\x7d]\x7d\x7d]\x7d"
    let settings : Codec.Settings := { Codec.Settings.standard with errorPolicy := .firstWins }
    let configured := "\x7b\"codec\":\x7b\"error_policy\":\"first_wins\"\x7d\x7d"
    let files : String → Except String String := fun path =>
      .ok (if path = "flow" then saved else configured)
    files "flow" = .ok saved ∧ Flow.load saved = .ok flow ∧
      Configures files (some "config") { Config.standard with codec := settings } ∧
      (outcome files (some "config") (.validate "flow")).exit = 1 ∧
      (outcome files (some "config") (.render "flow" "a" true)).exit = 0 ∧
      (outcome files (some "config") (.render "flow" "b" true)).exit = 1 ∧
      (outcome files (some "config") (.render "flow" "b" false)).exit = 0 ∧
      (outcome files none (.validate "flow")).exit = 1 := by
  intro start param last flow saved settings configured files
  have hfile : files "flow" = .ok saved := rfl
  have hload : Flow.load saved = .ok flow := by cbv
  have hconfig : Configures files (some "config") { Config.standard with codec := settings } :=
    ⟨_, rfl, by cbv⟩
  obtain ⟨hagree, hothers⟩ := verdictsAgree_outcome hfile hload hconfig
  have hissues : flow.report.issues ≠ [] := by cbv; simp
  have hstart : start ∈ flow.nodes := List.mem_cons_self
  have hlast : last ∈ flow.nodes := List.mem_cons_of_mem _ List.mem_cons_self
  have hvalidated := hagree.validated_exit.1.mpr hissues
  refine ⟨hfile, hload, hconfig, hvalidated, ?_, ?_, (hagree.unchecked last hlast).1, ?_⟩
  · exact (hagree.rendered_exit start hstart).2.mpr fun shown hshown =>
      absurd hshown List.not_mem_nil
  · have htoken : "c.y" ∈ Template.tokens (Template.wrap "c.y") := by
      have htokens : Template.tokens (Template.wrap "c.y") = ["c.y"] := by cbv
      exact htokens ▸ List.mem_singleton_self _
    have hbreaks : last.Breaks flow.nodes (Template.wrap "c.y") := ⟨"c.y", htoken, by cbv; simp⟩
    have hshown : (param, Template.wrap "c.y") ∈ last.texts :=
      Node.mem_texts_iff.mpr ⟨List.mem_singleton_self param, rfl⟩
    exact (hagree.rendered_exit last hlast).1.mpr ⟨_, hshown, hbreaks⟩
  · exact ((hothers none .standard rfl).1).trans hvalidated

end Files
end CommandLine
end Workflow
