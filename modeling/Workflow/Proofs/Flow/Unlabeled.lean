import Workflow.Catalog
import Workflow.Flow.Edit
import Workflow.Reference.Resolution

/-!
# Labels have no say

What a label table holds matters to the texts of its own node alone.  Flows that differ in nothing
but their label tables (`SameButLabels`) offer the same variables (`Flow.availableTo_congr`),
resolve the same tokens, and word their errors alike (`SameButLabels.validate?_eq`).
-/

namespace Workflow

/-- Why a token does not resolve depends on the parameters of its producer alone. -/
theorem NodeIndex.failure?_ofNodes (nodes : List Node) (token : String) :
    (ofNodes nodes).failure? token =
      ((nodeWithId? nodes (Token.producer token)).map Node.params).elim (some .nodeNotFound)
        fun params =>
          if params.any fun param => param.resolves (Token.producer token) token then none
          else some .fieldNotFound := by
  cases hfound : nodeWithId? nodes (Token.producer token) with
  | none => simp [failure?, hfound]
  | some node => simp [failure?, hfound]

theorem NodeIndex.originName_ofNodes (nodes : List Node) (id : String) :
    (ofNodes nodes).originName id = ((nodeWithId? nodes id).map Node.displayName).getD id := by
  cases hfound : nodeWithId? nodes id with
  | none => simp [originName, hfound]
  | some node => simp [originName, hfound]

/-- The node with an empty label table. -/
def Node.unlabeled (node : Node) : Node :=
  { node with labels := .empty }

/-- Nodes that differ in nothing but their label tables. -/
def SameButLabels (nodes others : List Node) : Prop :=
  nodes.map Node.unlabeled = others.map Node.unlabeled

namespace SameButLabels

variable {nodes others : List Node}

/-- What does not depend on labels is the same for the nodes with an id. -/
theorem map_nodeWithId? {α : Type} {view : Node → α} (h : SameButLabels nodes others)
    (hview : ∀ node, view node.unlabeled = view node) (id : String) :
    (nodeWithId? nodes id).map view = (nodeWithId? others id).map view := by
  have hunlabeled : ∀ nodes : List Node,
      (nodeWithId? nodes id).map view = (nodeWithId? (nodes.map Node.unlabeled) id).map view := by
    intro nodes
    rw [nodeWithId?, nodeWithId?, List.find?_map, Option.map_map]
    exact congrArg (Option.map · _) (funext fun node => (hview node).symm)
  rw [hunlabeled nodes, hunlabeled others, h]

/-- Labels have no say in whether a token resolves, and in its error. -/
theorem validate?_eq (h : SameButLabels nodes others) (origin token : String)
    (label? : Option String) :
    validate? nodes origin token label? = validate? others origin token label? := by
  have hfailure : (NodeIndex.ofNodes nodes).failure? token =
      (NodeIndex.ofNodes others).failure? token := by
    rw [NodeIndex.failure?_ofNodes, NodeIndex.failure?_ofNodes, h.map_nodeWithId? fun _ => rfl]
  have hname : (NodeIndex.ofNodes nodes).originName origin =
      (NodeIndex.ofNodes others).originName origin := by
    rw [NodeIndex.originName_ofNodes, NodeIndex.originName_ofNodes, h.map_nodeWithId? fun _ => rfl]
  rw [validate?, validate?, NodeIndex.validate?, NodeIndex.validate?, hfailure]
  exact congrArg (Option.map · _) (funext fun failure => by
    rw [NodeIndex.errorOf, NodeIndex.errorOf, hname])

end SameButLabels

/-- A change to the labels of a node changes nothing else in the flow. -/
theorem Flow.sameButLabels_modifyNode {flow : Flow} {id : String} {node : Node}
    (h : flow.node? id = some node) {change : Node → Node}
    (hchange : (change node).unlabeled = node.unlabeled) :
    SameButLabels (flow.modifyNode id change).nodes flow.nodes := by
  obtain ⟨before, behind, hsplit, _, hafter⟩ := Flow.nodes_modifyNode h change
  rw [SameButLabels, hafter, hsplit, List.map_append, List.map_append, List.map_cons, List.map_cons,
    hchange]

theorem Flow.availableTo_eq (flow : Flow) (id : String) :
    flow.availableTo id = ((flow.ancestorIds id).filterMap fun ancestor =>
      (nodeWithId? flow.nodes ancestor).map Node.exposedVariables).flatten := by
  rw [availableTo, ancestors, List.flatMap_def, List.map_filterMap]
  rfl

/-- Labels have no say in which variables a node may use. -/
theorem Flow.availableTo_congr {flow other : Flow} (hnodes : SameButLabels flow.nodes other.nodes)
    (hedges : flow.edges = other.edges) (id : String) :
    flow.availableTo id = other.availableTo id := by
  have hids : flow.ancestorIds id = other.ancestorIds id := by
    rw [ancestorIds, ancestorIds, hedges]
  rw [availableTo_eq, availableTo_eq, hids]
  have hview : (fun ancestor => (nodeWithId? flow.nodes ancestor).map Node.exposedVariables) =
      fun ancestor => (nodeWithId? other.nodes ancestor).map Node.exposedVariables :=
    funext fun ancestor => hnodes.map_nodeWithId? (fun _ => rfl) ancestor
  rw [hview]

end Workflow
