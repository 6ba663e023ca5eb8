import Mathlib
import Workflow.Proofs.Reference.Occurrences

/-!
# What a report says

The loops that make a report visit the references of a flow one by one.  The report counts those
that `Flow.occurrences` lists and has an issue for each of them that does not resolve, in the same
order.
-/

namespace Workflow

/-- A label, or the token if there is none, is what a token is shown as in its error. -/
@[simp] theorem NodeIndex.validate?_getD (index : NodeIndex) (origin token : String)
    (label? : Option String) :
    index.validate? origin token (some (label?.getD token)) =
      index.validate? origin token label? :=
  rfl

/-- The issue of a reference that does not resolve: its error is that of the token in a text of the
node, shown as the node's label of the token or as the token itself. -/
def Occurrence.issue? (nodes : List Node) (found : Occurrence) : Option Issue :=
  (validate? nodes found.node.id found.token
    (some ((found.node.labels.get? found.token).getD found.token))).map fun error =>
    { nodeId := found.node.id, paramKey := found.param.key, token := found.token, error }

/-- The issues of a parameter of a node. -/
def Param.issues (nodes : List Node) (node : Node) (param : Param) : List Issue :=
  param.tokens.filterMap fun token => Occurrence.issue? nodes ⟨node, param, token⟩

namespace Report

/-- If each step of a loop adds something to a report, then the loop adds all of it. -/
theorem foldl_eq {α : Type} {step : Report → α → Report} {count : α → Nat}
    {issues : α → List Issue}
    (h : ∀ report a, step report a = ⟨report.checked + count a, report.issues ++ issues a⟩)
    (xs : List α) (report : Report) :
    xs.foldl step report =
      ⟨report.checked + (xs.map count).sum, report.issues ++ xs.flatMap issues⟩ := by
  induction xs generalizing report with
  | nil => simp
  | cons a rest ih =>
      rw [List.foldl_cons, ih, h]
      simp [Nat.add_assoc]

theorem checkToken_eq (nodes : List Node) (node : Node) (param : Param) (report : Report)
    (token : String) :
    checkToken (.ofNodes nodes) node param report token =
      ⟨report.checked + 1,
        report.issues ++ (Occurrence.issue? nodes ⟨node, param, token⟩).toList⟩ := by
  unfold checkToken Occurrence.issue?
  rw [validate?, NodeIndex.validate?_getD]
  cases (NodeIndex.ofNodes nodes).validate? node.id token (node.labels.get? token) with
  | none => simp
  | some error => simp

theorem checkParam_eq (nodes : List Node) (node : Node) (report : Report) (param : Param) :
    checkParam (.ofNodes nodes) node report param =
      ⟨report.checked + param.tokens.length, report.issues ++ param.issues nodes node⟩ := by
  have hcount : (param.tokens.map fun _ => 1).sum = param.tokens.length := by
    rw [List.map_const', List.sum_replicate_nat, Nat.mul_one]
  rw [checkParam, foldl_eq (checkToken_eq nodes node param), hcount, Param.issues,
    List.filterMap_eq_flatMap_toList]

/-- Checking a node adds the report on the node. -/
theorem checkNode_eq (nodes : List Node) (report : Report) (node : Node) :
    checkNode (.ofNodes nodes) report node =
      ⟨report.checked + (node.report nodes).checked,
        report.issues ++ (node.report nodes).issues⟩ := by
  simp only [Node.report, checkNode, foldl_eq (checkParam_eq nodes node), empty, Nat.zero_add,
    List.nil_append]

end Report

/-- The report on a node counts the references of its parameters and has their issues. -/
theorem Node.report_eq (nodes : List Node) (node : Node) :
    node.report nodes =
      ⟨(node.params.map fun param => param.tokens.length).sum,
        node.params.flatMap (Param.issues nodes node)⟩ := by
  simp only [Node.report, Report.checkNode, Report.foldl_eq (Report.checkParam_eq nodes node),
    Report.empty, Nat.zero_add, List.nil_append]

/-- The report on a flow is that on its nodes in turn. -/
theorem Flow.report_eq (flow : Flow) :
    flow.report =
      ⟨(flow.nodes.map fun node => (node.report flow.nodes).checked).sum,
        flow.nodes.flatMap fun node => (node.report flow.nodes).issues⟩ := by
  simp only [Flow.report, Report.foldl_eq (Report.checkNode_eq flow.nodes), Report.empty,
    Nat.zero_add, List.nil_append]

theorem Node.report_occurrences (nodes : List Node) (node : Node) :
    node.report nodes =
      ⟨node.occurrences.length,
        (node.occurrences.map Prod.snd).filterMap (Occurrence.issue? nodes)⟩ := by
  have hlength := congrArg List.length node.map_snd_occurrences
  rw [List.length_map] at hlength
  rw [hlength, node.map_snd_occurrences, node.report_eq, List.filterMap_flatMap,
    List.length_flatMap]
  simp only [List.length_map, List.filterMap_map]
  rfl

/-- The report on a node names no other node. -/
theorem Node.nodeId_of_mem_report {nodes : List Node} {node : Node} {issue : Issue}
    (h : issue ∈ (node.report nodes).issues) : issue.nodeId = node.id := by
  rw [Node.report_eq] at h
  obtain ⟨param, _, hparam⟩ := List.mem_flatMap.mp h
  obtain ⟨token, _, htoken⟩ := List.mem_filterMap.mp hparam
  obtain ⟨error, _, rfl⟩ := Option.map_eq_some_iff.mp htoken
  rfl

/-- The issues of one node in the report on a flow are those in the reports on the nodes with its
id. -/
theorem Flow.forNode_report (flow : Flow) (id : String) :
    flow.report.forNode id =
      (flow.nodes.filter fun node => node.id = id).flatMap fun node =>
        (node.report flow.nodes).issues := by
  rw [Report.forNode, Flow.report_eq]
  generalize flow.nodes = nodes
  suffices h : ∀ others : List Node,
      (others.flatMap fun node => (node.report nodes).issues).filter
        (fun issue => issue.nodeId = id) =
      (others.filter fun node => node.id = id).flatMap fun node => (node.report nodes).issues from
    h nodes
  intro others
  induction others with
  | nil => rfl
  | cons node rest ih =>
      rw [List.flatMap_cons, List.filter_append, ih]
      by_cases hid : node.id = id
      · have hall : (node.report nodes).issues.filter (fun issue => issue.nodeId = id) =
            (node.report nodes).issues :=
          List.filter_eq_self.mpr fun issue hissue =>
            decide_eq_true ((Node.nodeId_of_mem_report hissue).trans hid)
        simp only [hall, List.filter_cons, hid, decide_true, if_true, List.flatMap_cons]
      · have hnone : (node.report nodes).issues.filter (fun issue => issue.nodeId = id) = [] :=
          List.filter_eq_nil_iff.mpr fun issue hissue heq =>
            hid ((Node.nodeId_of_mem_report hissue).symm.trans (of_decide_eq_true heq))
        simp only [hnone, List.filter_cons, hid, decide_false, Bool.false_eq_true, if_false,
          List.nil_append]

/-- **What is reported.**  The report on a flow counts the references that stand in it and has an
issue for each of them that does not resolve, in the order of the ways to them.  It is the sum of
the reports on the nodes, and the issues under an id are those of the nodes that have it. -/
theorem Flow.report_eq_occurrences (flow : Flow) (hordered : flow.IsOrdered) :
    (∀ way found, (way, found) ∈ flow.occurrences ↔ flow.Holds way found) ∧
    (flow.occurrences.Pairwise fun a b => Way.Before a.1 b.1) ∧
    flow.report.checked = flow.occurrences.length ∧
    flow.report.issues =
      (flow.occurrences.map Prod.snd).filterMap (Occurrence.issue? flow.nodes) ∧
    flow.report.checked = (flow.nodes.map fun node => (node.report flow.nodes).checked).sum ∧
    flow.report.issues = (flow.nodes.flatMap fun node => (node.report flow.nodes).issues) ∧
    ∀ id, flow.report.forNode id =
      (flow.nodes.filter fun node => node.id = id).flatMap fun node =>
        (node.report flow.nodes).issues := by
  refine ⟨fun way found => Flow.mem_occurrences_iff, Flow.pairwise_occurrences hordered, ?_, ?_,
    ?_, ?_, flow.forNode_report⟩
  · have hlength := congrArg List.length flow.map_snd_occurrences
    rw [List.length_map, List.length_flatMap] at hlength
    rw [hlength, flow.report_eq]
    simp only [Node.report_occurrences, List.length_map]
  · rw [flow.map_snd_occurrences, flow.report_eq, List.filterMap_flatMap]
    simp only [Node.report_occurrences]
  · rw [flow.report_eq]
  · rw [flow.report_eq]

/-- Of two nodes with one id, each reports the reference that it holds itself. -/
theorem Flow.report_eq_occurrences_shared_id :
    let param (text : String) : Param :=
      { key := "prompt", label? := none, kind := .textArea, exposed := false,
        value := .obj [("a", .arr [.str (Template.wrap "gone.x")]), ("b", .str text)] }
    let node (text : String) : Node :=
      { id := "llm", name := "", kind := "", groups := [⟨none, [param text]⟩], labels := .empty }
    let flow : Flow := { nodes := [node (Template.wrap "gone.y"), node ""], edges := [] }
    flow.IsOrdered ∧ flow.report.checked = 3 ∧
      (flow.report.forNode "llm").map Issue.token = ["gone.x", "gone.y", "gone.x"] := by
  intro param node flow
  have hvalue : ∀ text, (param text).value.IsOrdered := by
    intro text
    refine .obj (List.pairwise_pair.mpr (by decide : "a" < "b")) fun name value hmem => ?_
    rcases List.mem_cons.mp hmem with heq | hmem
    · cases heq
      exact .arr fun item hitem => List.mem_singleton.mp hitem ▸ .str _
    · cases List.mem_singleton.mp hmem
      exact .str text
  have hordered : flow.IsOrdered := by
    intro holder hholder holding hholding
    rcases List.mem_cons.mp hholder with rfl | hholder
    · exact List.mem_singleton.mp hholding ▸ hvalue _
    · cases List.mem_singleton.mp hholder
      exact List.mem_singleton.mp hholding ▸ hvalue _
  obtain ⟨_, _, hchecked, _, _, _, hforNode⟩ := flow.report_eq_occurrences hordered
  refine ⟨hordered, ?_, ?_⟩
  · rw [hchecked]
    cbv
  · rw [hforNode]
    cbv

end Workflow
