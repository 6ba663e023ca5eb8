import Workflow.Proofs.Flow.Unlabeled
import Workflow.Proofs.Reference.Report

/-!
# What a verdict on a token depends on

Whether a token resolves, and what is missing if it does not, depends on what the first node with the
id of its producer declares, and on nothing else (`SameProducer.verdict?_eq`).  A report depends on
what the nodes declare, but for the wording of its errors (`Flow.report_congr`).
-/

namespace Workflow

/-- What is missing if a token does not resolve, without the wording. -/
def verdict? (nodes : List Node) (origin token : String) (label? : Option String) :
    Option Failure :=
  (validate? nodes origin token label?).map ReferenceError.failure

theorem verdict?_eq_failure? (nodes : List Node) (origin token : String) (label? : Option String) :
    verdict? nodes origin token label? = (NodeIndex.ofNodes nodes).failure? token := by
  rw [verdict?, validate?, NodeIndex.validate?, Option.map_map]
  exact Option.map_id'

/-! ## Declarations -/

/-- What of a parameter has a say in which tokens resolve. -/
structure Declaration where
  key : String
  kind : ParamKind
  value : Json.Value

def Param.declaration (param : Param) : Declaration :=
  { key := param.key, kind := param.kind, value := param.value }

namespace Declaration

/-- A parameter with nothing but a declaration. -/
def toParam (declared : Declaration) : Param :=
  { key := declared.key
    label? := none
    kind := declared.kind
    value := declared.value
    exposed := false }

end Declaration

@[simp] theorem Param.resolves_declaration (param : Param) (producer token : String) :
    param.declaration.toParam.resolves producer token = param.resolves producer token :=
  rfl

namespace Node

def declarations (node : Node) : List Declaration :=
  node.params.map Param.declaration

/-- What of a node has a say in which tokens resolve and where references stand. -/
def core (node : Node) : String × List Declaration :=
  (node.id, node.declarations)

theorem any_resolves (node : Node) (producer token : String) :
    (node.params.any fun param => param.resolves producer token) =
      node.declarations.any fun declared => declared.toParam.resolves producer token := by
  simp [declarations, Function.comp_def]

end Node

/-- No node has an id, or the first nodes with it declare the same. -/
inductive SameProducer (id : String) (nodes others : List Node) : Prop where
  | absent (hnodes : ∀ node ∈ nodes, node.id ≠ id) (hothers : ∀ other ∈ others, other.id ≠ id)
  | present {node other : Node} (hnode : nodeWithId? nodes id = some node)
      (hother : nodeWithId? others id = some other)
      (h : ∀ declared, declared ∈ node.declarations ↔ declared ∈ other.declarations)

theorem nodeWithId?_eq_none {nodes : List Node} {id : String} (h : ∀ node ∈ nodes, node.id ≠ id) :
    nodeWithId? nodes id = none :=
  List.find?_eq_none.mpr fun node hnode => by simpa using h node hnode

/-- Producers that declare the same offer the same values. -/
theorem SameProducer.failure?_eq {nodes others : List Node} {token : String}
    (h : SameProducer (Token.producer token) nodes others) :
    (NodeIndex.ofNodes nodes).failure? token = (NodeIndex.ofNodes others).failure? token := by
  rw [NodeIndex.failure?_ofNodes, NodeIndex.failure?_ofNodes]
  cases h with
  | absent hnodes hothers => rw [nodeWithId?_eq_none hnodes, nodeWithId?_eq_none hothers]
  | present hnode hother h =>
      rename_i node other
      have hany : (node.params.any fun param => param.resolves (Token.producer token) token) =
          other.params.any fun param => param.resolves (Token.producer token) token := by
        rw [Node.any_resolves, Node.any_resolves, Bool.eq_iff_iff, List.any_eq_true,
          List.any_eq_true]
        simp only [h]
      rw [hnode, hother]
      simp only [Option.map_some, Option.elim_some, hany]

/-- The verdict on a token is the same among all nodes with the same producer of it. -/
theorem SameProducer.verdict?_eq {nodes others : List Node} {token : String}
    (h : SameProducer (Token.producer token) nodes others) (origin origin' : String)
    (label? label'? : Option String) :
    verdict? nodes origin token label? = verdict? others origin' token label'? := by
  rw [verdict?_eq_failure?, verdict?_eq_failure?, h.failure?_eq]

theorem nodeWithId?_core (nodes : List Node) (id : String) :
    (nodeWithId? nodes id).map Node.core =
      (nodes.map Node.core).find? fun core => core.1 = id := by
  rw [nodeWithId?, List.find?_map]
  rfl

/-- Nodes with the same ids and declarations have the same producer of every token. -/
theorem sameProducer_of_core {nodes others : List Node}
    (h : nodes.map Node.core = others.map Node.core) (id : String) :
    SameProducer id nodes others := by
  have hfound : (nodeWithId? nodes id).map Node.core = (nodeWithId? others id).map Node.core := by
    rw [nodeWithId?_core, nodeWithId?_core, h]
  cases hnode : nodeWithId? nodes id with
  | none =>
      rw [hnode, Option.map_none, eq_comm, Option.map_eq_none_iff] at hfound
      exact .absent (fun node hmem => by simpa using List.find?_eq_none.mp hnode node hmem)
        fun other hmem => by simpa using List.find?_eq_none.mp hfound other hmem
  | some node =>
      rw [hnode, Option.map_some, eq_comm, Option.map_eq_some_iff] at hfound
      obtain ⟨other, hother, hcore⟩ := hfound
      have hdeclarations : other.declarations = node.declarations := congrArg Prod.snd hcore
      exact .present hnode hother fun declared => by rw [hdeclarations]

/-- Labels have no say in what the nodes declare. -/
theorem SameButLabels.map_core {nodes others : List Node} (h : SameButLabels nodes others) :
    nodes.map Node.core = others.map Node.core := by
  have hview : ∀ nodes : List Node,
      nodes.map Node.core = (nodes.map Node.unlabeled).map Node.core := by
    intro nodes
    rw [List.map_map]
    rfl
  rw [hview nodes, hview others, h]

/-! ## Reports -/

/-- What an issue says apart from the wording of its error: the node, the parameter, the token, and
what is missing. -/
def Issue.outline (issue : Issue) : String × String × String × Failure :=
  (issue.nodeId, issue.paramKey, issue.token, issue.error.failure)

/-- The outlines of the issues of a parameter of the node with an id. -/
def Declaration.outlines (failure? : String → Option Failure) (id : String)
    (declared : Declaration) : List (String × String × String × Failure) :=
  declared.toParam.tokens.filterMap fun token =>
    (failure? token).map fun failure => (id, declared.key, token, failure)

theorem Param.outline_issues (nodes : List Node) (node : Node) (param : Param) :
    (param.issues nodes node).map Issue.outline =
      param.declaration.outlines (NodeIndex.ofNodes nodes).failure? node.id := by
  have hissue : ∀ token, (Occurrence.issue? nodes ⟨node, param, token⟩).map Issue.outline =
      ((NodeIndex.ofNodes nodes).failure? token).map fun failure =>
        (node.id, param.key, token, failure) := by
    intro token
    rw [Occurrence.issue?, validate?, NodeIndex.validate?, Option.map_map, Option.map_map]
    rfl
  rw [Param.issues, List.map_filterMap]
  simp only [hissue]
  rfl

/-- A report counts the references in what the nodes declare, and outlines its issues by it. -/
theorem Flow.report_core (flow : Flow) :
    flow.report.checked = ((flow.nodes.map Node.core).map fun core =>
        (core.2.map fun declared => declared.toParam.tokens.length).sum).sum ∧
      flow.report.issues.map Issue.outline = (flow.nodes.map Node.core).flatMap fun core =>
        core.2.flatMap (Declaration.outlines (NodeIndex.ofNodes flow.nodes).failure? core.1) := by
  rw [flow.report_eq]
  constructor
  · simp only [Node.report_eq, Node.core, Node.declarations, List.map_map, Function.comp_def]
    rfl
  · simp only [Node.report_eq, Node.core, Node.declarations, List.map_flatMap, List.flatMap_map,
      Param.outline_issues]

/-- The reports on flows whose nodes have the same ids and declarations differ in the wording of
errors alone. -/
theorem Flow.report_congr {flow other : Flow}
    (h : flow.nodes.map Node.core = other.nodes.map Node.core) :
    flow.report.checked = other.report.checked ∧
      flow.report.issues.map Issue.outline = other.report.issues.map Issue.outline := by
  have hfailure : (NodeIndex.ofNodes flow.nodes).failure? =
      (NodeIndex.ofNodes other.nodes).failure? :=
    funext fun token => (sameProducer_of_core h (Token.producer token)).failure?_eq
  rw [flow.report_core.1, flow.report_core.2, other.report_core.1, other.report_core.2, h, hfailure]
  exact ⟨rfl, rfl⟩

/-! ## Removed nodes -/

/-- After the removal of the nodes with an id, no node has it, and all others are found as before. -/
@[simp] theorem Flow.nodeWithId?_removeNode (flow : Flow) (id other : String) :
    nodeWithId? (flow.removeNode id).nodes other =
      if other = id then none else nodeWithId? flow.nodes other := by
  rw [nodeWithId?, removeNode, List.find?_filter]
  by_cases h : other = id
  · subst h
    rw [if_pos rfl, List.find?_eq_none]
    simp
  · rw [if_neg h, nodeWithId?]
    refine congrArg (List.find? · flow.nodes) (funext fun node => ?_)
    by_cases hnode : node.id = other
    · simp [hnode, h]
    · simp [hnode]

/-- **What a verdict depends on.**  The verdict on a token depends on what the first node with the id
of its producer declares.  So names, kinds of nodes, groups, labels, exposure and edges have no say in
a report, but for the wording of its errors, and a removed node takes with it just the tokens that
name it. -/
theorem verdict?_of_producer :
    (∀ {nodes others : List Node} {token : String},
      SameProducer (Token.producer token) nodes others →
      ∀ (origin origin' : String) (label? label'? : Option String),
        verdict? nodes origin token label? = verdict? others origin' token label'?) ∧
    (∀ {flow other : Flow}, flow.nodes.map Node.core = other.nodes.map Node.core →
      flow.report.checked = other.report.checked ∧
        flow.report.issues.map Issue.outline = other.report.issues.map Issue.outline) ∧
    ∀ (flow : Flow) (id token origin origin' : String) (label? label'? : Option String),
      verdict? (flow.removeNode id).nodes origin token label? =
        if Token.producer token = id then some .nodeNotFound
        else verdict? flow.nodes origin' token label'? := by
  refine ⟨fun h => h.verdict?_eq, Flow.report_congr, ?_⟩
  intro flow id token origin origin' label? label'?
  rw [verdict?_eq_failure?, verdict?_eq_failure?, NodeIndex.failure?_ofNodes,
    Flow.nodeWithId?_removeNode]
  by_cases h : Token.producer token = id
  · rw [if_pos h, if_pos h, Option.map_none, Option.elim_none]
  · rw [if_neg h, if_neg h, NodeIndex.failure?_ofNodes]

/-- A later node with the same id, the order and repetition of parameters, their labels and their
groups have no say. -/
theorem verdict?_of_producer_regrouped :
    let asked : Param :=
      { key := "form", label? := some "Form", kind := .form,
        value := .arr [.null, .obj [("key", .str "city")]], exposed := true }
    let unlabeled : Param := { asked with label? := none, exposed := false }
    let note : Param :=
      { key := "note", label? := none, kind := .textArea, value := .str (Template.wrap "gone.x"),
        exposed := true }
    let node (name : String) (groups : List ParamGroup) : Node :=
      { id := "s", name, kind := name, groups, labels := .ofList [("s.form", name)] }
    let start : Node := node "Start" [⟨none, [asked]⟩, ⟨some "notes", [note]⟩]
    let reordered : List Node := [node "" [⟨none, [note, unlabeled, note]⟩], node "Later" []]
    let flow : Flow := { nodes := [start], edges := [] }
    let other : Flow :=
      { nodes := [node "" [⟨none, [unlabeled, note]⟩]], edges := [⟨"s", "s", none, none⟩] }
    Token.producer "s.city" = "s" ∧ Token.producer "s.form" = "s" ∧
      SameProducer "s" [start] reordered ∧
      flow.nodes.map Node.core = other.nodes.map Node.core ∧
      verdict? reordered "x" "s.city" (some "City") = none ∧
      verdict? reordered "x" "s.form" none = some .fieldNotFound ∧
      other.report.checked = 1 ∧
      other.report.issues.map Issue.outline = [("s", "note", "gone.x", .nodeNotFound)] := by
  intro asked unlabeled note node start reordered flow other
  have hproducer : SameProducer "s" [start] reordered := by
    refine .present rfl rfl fun declared => ?_
    show declared ∈ [asked.declaration, note.declaration] ↔
      declared ∈ [note.declaration, asked.declaration, note.declaration]
    simp only [List.mem_cons, List.not_mem_nil, or_false]
    exact ⟨Or.inr, fun h => h.elim Or.inr id⟩
  have hcity : Token.producer "s.city" = "s" := by decide
  have hform : Token.producer "s.form" = "s" := by decide
  have hcore : flow.nodes.map Node.core = other.nodes.map Node.core := rfl
  have hlisted : verdict? [start] "s" "s.city" none = none := by decide
  have hmissing : verdict? [start] "s" "s.form" none = some .fieldNotFound := by decide
  obtain ⟨hchecked, hissues⟩ := verdict?_of_producer.2.1 hcore
  refine ⟨hcity, hform, hproducer, hcore, ?_, ?_, ?_, ?_⟩
  · exact (verdict?_of_producer.1 (hcity.symm ▸ hproducer) "s" "x" none (some "City")).symm.trans
      hlisted
  · exact (verdict?_of_producer.1 (hform.symm ▸ hproducer) "s" "x" none none).symm.trans hmissing
  · rw [← hchecked]
    cbv
  · rw [← hissues]
    cbv

end Workflow
