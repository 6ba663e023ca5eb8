import Workflow.Proofs.Codec.Storing
import Workflow.Proofs.Reference.Producer

/-!
# Dropping stale labels

All labels whose tokens do not resolve are found first, node by node, and then dropped one by one, each
from the table of the node at its place.  What is left in each table is what it held of the tokens that
resolve (`Flow.nodes_pruneLabels`).  Labels have no say in which tokens resolve, so those that are left
still do, and nothing is left to be dropped (`Flow.isPruned_pruneLabels`).
-/

namespace Workflow

/-- The node with the labels of the tokens that resolve. -/
def Node.keepResolved (index : NodeIndex) (node : Node) : Node :=
  { node with labels := node.labels.keep index.resolves }

theorem Node.foldl_eraseLabel (tokens : List String) (node : Node) :
    tokens.foldl Node.eraseLabel node =
      { node with labels := tokens.foldl LabelTable.erase node.labels } := by
  induction tokens generalizing node with
  | nil => rfl
  | cons token rest ih => exact ih (node.eraseLabel token)

/-- Without its stale tokens, a table holds just the tokens that resolve. -/
theorem Node.foldl_eraseLabel_staleTokens (index : NodeIndex) (node : Node) :
    (node.staleTokens index).foldl Node.eraseLabel node = node.keepResolved index := by
  have hkeep : (node.staleTokens index).foldl LabelTable.erase node.labels =
      node.labels.keep index.resolves := by
    rw [LabelTable.foldl_erase]
    refine LabelTable.keep_congr fun token htoken => ?_
    rw [Bool.eq_iff_iff]
    simp [Node.staleTokens, htoken]
  rw [Node.foldl_eraseLabel, hkeep, Node.keepResolved]

namespace Flow

/-- A label is dropped from the table of the node at its place. -/
@[simp] theorem eraseLabel_append (before : List Node) (node : Node) (behind : List Node)
    (token : String) :
    eraseLabel (before ++ node :: behind) (before.length, token) =
      before ++ node.eraseLabel token :: behind := by
  induction before with
  | nil => rfl
  | cons first rest ih => exact congrArg (first :: ·) ih

/-- The labels of one node are dropped from its own table. -/
theorem foldl_eraseLabel_append (tokens : List String) (before : List Node) (node : Node)
    (behind : List Node) :
    (tokens.map fun token => (before.length, token)).foldl eraseLabel (before ++ node :: behind) =
      before ++ tokens.foldl Node.eraseLabel node :: behind := by
  induction tokens generalizing node with
  | nil => rfl
  | cons token rest ih =>
      rw [List.map_cons, List.foldl_cons, eraseLabel_append, ih]
      rfl

/-- After the labels of all nodes up to some place have been dropped, those of the rest are. -/
theorem foldl_eraseLabel_staleTokens (index : NodeIndex) (nodes before : List Node) :
    ((nodes.zipIdx before.length).flatMap fun (node, place) =>
        (node.staleTokens index).map fun token => (place, token)).foldl eraseLabel
      (before ++ nodes) = before ++ nodes.map (Node.keepResolved index) := by
  induction nodes generalizing before with
  | nil => rfl
  | cons node rest ih =>
      have hrest := ih (before ++ [node.keepResolved index])
      rw [List.length_append, List.length_singleton] at hrest
      rw [List.zipIdx_cons, List.flatMap_cons, List.foldl_append, foldl_eraseLabel_append,
        Node.foldl_eraseLabel_staleTokens]
      simpa using hrest

/-- Each table is left with what it held of the tokens that resolve. -/
theorem nodes_pruneLabels (flow : Flow) :
    flow.pruneLabels.nodes = flow.nodes.map (Node.keepResolved (.ofNodes flow.nodes)) :=
  foldl_eraseLabel_staleTokens (.ofNodes flow.nodes) flow.nodes []

/-- How many labels the tables of a flow hold. -/
def labelCount (flow : Flow) : Nat :=
  (flow.nodes.map fun node => node.labels.size).sum

theorem staleCount_eq (flow : Flow) :
    flow.staleCount =
      (flow.nodes.map fun node => (node.staleTokens (.ofNodes flow.nodes)).length).sum := by
  rw [staleCount, staleLabels]
  generalize NodeIndex.ofNodes flow.nodes = index
  have hnodes := List.zipIdx_map_fst 0 flow.nodes
  generalize flow.nodes.zipIdx = entries at hnodes
  rw [← hnodes, List.map_map, List.length_flatMap]
  simp only [List.length_map]
  rfl

/-- Each label is left or counted as stale. -/
theorem labelCount_pruneLabels (flow : Flow) :
    flow.pruneLabels.labelCount + flow.staleCount = flow.labelCount := by
  rw [labelCount, labelCount, nodes_pruneLabels, staleCount_eq]
  generalize NodeIndex.ofNodes flow.nodes = index
  generalize flow.nodes = nodes
  induction nodes with
  | nil => rfl
  | cons node rest ih =>
      have hnode : (node.keepResolved index).labels.size + (node.staleTokens index).length =
          node.labels.size := node.labels.size_keep_add index.resolves
      simp only [List.map_cons, List.sum_cons] at ih ⊢
      omega

theorem sameButLabels_pruneLabels (flow : Flow) :
    SameButLabels flow.pruneLabels.nodes flow.nodes := by
  rw [SameButLabels, nodes_pruneLabels, List.map_map]
  rfl

theorem resolves_pruneLabels (flow : Flow) :
    (NodeIndex.ofNodes flow.pruneLabels.nodes).resolves =
      (NodeIndex.ofNodes flow.nodes).resolves := by
  funext token
  rw [NodeIndex.resolves, NodeIndex.resolves,
    (sameProducer_of_core flow.sameButLabels_pruneLabels.map_core _).failure?_eq]

/-- After all stale labels have been dropped there are none. -/
theorem staleTokens_pruneLabels {flow : Flow} {node : Node} (h : node ∈ flow.pruneLabels.nodes) :
    node.staleTokens (.ofNodes flow.pruneLabels.nodes) = [] := by
  rw [nodes_pruneLabels] at h
  obtain ⟨old, _, rfl⟩ := List.mem_map.mp h
  rw [Node.staleTokens, List.filter_eq_nil_iff]
  intro token htoken
  have hkept := (old.labels.mem_tokens_keep_iff _).mp htoken
  simp [resolves_pruneLabels, hkept.2]

@[simp] theorem staleLabels_pruneLabels (flow : Flow) : flow.pruneLabels.staleLabels = [] := by
  rw [staleLabels, List.flatMap_eq_nil_iff]
  intro entry hentry
  have hnode := List.mem_of_getElem? (List.mem_zipIdx_iff_getElem?.mp hentry)
  exact List.map_eq_nil_iff.mpr (staleTokens_pruneLabels hnode)

end Flow

/-! ## References -/

/-- A reference without the labels of its node. -/
def Occurrence.unlabeled (found : Occurrence) : Occurrence :=
  { found with node := found.node.unlabeled }

theorem map_under {α β γ : Type} (view : α → γ) (branches : List (Step × β))
    (found : β → List (List Step × α)) :
    (under branches found).map (fun entry => (entry.1, view entry.2)) =
      under branches fun branch => (found branch).map fun entry => (entry.1, view entry.2) := by
  simp only [under, List.map_flatMap, List.map_map]
  rfl

theorem under_stepsTo_map {α β γ : Type} (kind : Nat → Step) (view : β → γ) (elements : List β)
    (found : γ → List (List Step × α)) :
    under (stepsTo kind (elements.map view)) found =
      under (stepsTo kind elements) fun element => found (view element) := by
  simp only [under, stepsTo, List.zipIdx_map, List.flatMap_map, List.map_map]
  rfl

theorem Node.occurrences_unlabeled (node : Node) :
    node.unlabeled.occurrences =
      node.occurrences.map fun entry => (entry.1, entry.2.unlabeled) := by
  simp only [Node.occurrences, map_under, Param.occurrences, List.map_map]
  rfl

/-- Labels have no say in which references stand in a flow, and where. -/
theorem SameButLabels.occurrences_eq {flow other : Flow} (h : SameButLabels flow.nodes other.nodes) :
    (flow.occurrences.map fun entry => (entry.1, entry.2.unlabeled)) =
      other.occurrences.map fun entry => (entry.1, entry.2.unlabeled) := by
  have hview : ∀ flow : Flow,
      (flow.occurrences.map fun entry => (entry.1, entry.2.unlabeled)) =
        under (stepsTo .node (flow.nodes.map Node.unlabeled)) Node.occurrences := by
    intro flow
    rw [under_stepsTo_map, Flow.occurrences, map_under]
    simp only [Node.occurrences_unlabeled]
  rw [hview, hview, h]

/-! ## The pruned flow -/

theorem validate?_eq_none_iff_resolves {nodes : List Node} {origin token : String}
    {label? : Option String} :
    validate? nodes origin token label? = none ↔
      (NodeIndex.ofNodes nodes).resolves token = true := by
  rw [validate?, NodeIndex.validate?, Option.map_eq_none_iff, NodeIndex.resolves,
    Option.isNone_iff_eq_none]

/-- The stale labels of a flow have been dropped: the flow has become `after`, and `removed` labels
have been counted. -/
structure IsPruned (flow after : Flow) (removed : Nat) : Prop where
  /-- Node by node, nothing but labels has changed, and each table holds what it held of the tokens
  that resolved. -/
  nodes : List.Forall₂ (fun old new : Node => new.unlabeled = old.unlabeled ∧
    ∀ token label, new.labels.get? token = some label ↔
      old.labels.get? token = some label ∧ validate? flow.nodes old.id token none = none)
    flow.nodes after.nodes
  edges : after.edges = flow.edges
  /-- Each label is left or has been counted. -/
  count : after.labelCount + removed = flow.labelCount
  /-- Each token resolves that resolved before, and no other does. -/
  resolved : ∀ origin token label?,
    validate? after.nodes origin token label? = validate? flow.nodes origin token label?
  /-- The same references stand at the same places. -/
  occurrences : (after.occurrences.map fun entry => (entry.1, entry.2.unlabeled)) =
    flow.occurrences.map fun entry => (entry.1, entry.2.unlabeled)
  checked : after.report.checked = flow.report.checked
  /-- The same issues are found, but for the wording of their errors. -/
  issues : after.report.issues.map Issue.outline = flow.report.issues.map Issue.outline
  /-- There is nothing left to be dropped. -/
  again : after.pruneLabels = after
  countAgain : after.staleCount = 0
  /-- Each badge that is stored as a marker names a token that resolves. -/
  badges : ∀ settings : Codec.Settings, ∀ node ∈ after.nodes, ∀ markup : String,
    Codec.encode settings node.labels markup =
        String.ofList ((Markup.scan markup.toList).flatMap fun piece =>
          (Codec.badgeToken? settings node.labels piece).elim (Codec.plainPiece piece)
            fun token => Template.marker token.toList) ∧
      ∀ piece ∈ Markup.scan markup.toList, ∀ token ∈ Codec.badgeToken? settings node.labels piece,
        ∀ origin label?, validate? after.nodes origin token label? = none

namespace Flow

/-- A token with a label in a pruned flow resolves. -/
theorem resolves_of_get?_pruneLabels {flow : Flow} {node : Node} (h : node ∈ flow.pruneLabels.nodes)
    {token label : String} (hlabel : node.labels.get? token = some label) :
    (NodeIndex.ofNodes flow.pruneLabels.nodes).resolves token = true := by
  rw [nodes_pruneLabels] at h
  obtain ⟨old, _, rfl⟩ := List.mem_map.mp h
  rw [resolves_pruneLabels]
  exact ((old.labels.get?_keep_eq_some_iff _).mp hlabel).2

/-- **Dropping stale labels.**  Just the labels of tokens that do not resolve are dropped, each from
the table that it stands in, whatever ids the nodes share. -/
theorem isPruned_pruneLabels (flow : Flow) : IsPruned flow flow.pruneLabels flow.staleCount := by
  have hreport := report_congr flow.sameButLabels_pruneLabels.map_core
  constructor
  case nodes =>
    rw [nodes_pruneLabels, List.forall₂_map_right_iff, List.forall₂_same]
    intro old _
    refine ⟨rfl, fun token label => ?_⟩
    rw [validate?_eq_none_iff_resolves]
    exact old.labels.get?_keep_eq_some_iff _
  case edges => rfl
  case count => exact flow.labelCount_pruneLabels
  case resolved => exact flow.sameButLabels_pruneLabels.validate?_eq
  case occurrences => exact flow.sameButLabels_pruneLabels.occurrences_eq
  case checked => exact hreport.1
  case issues => exact hreport.2
  case again =>
    rw [pruneLabels]
    simp
  case countAgain => simp [staleCount]
  case badges =>
    intro settings node hnode markup
    constructor
    · simp only [Codec.encode, Codec.store, ← Codec.storePiece_eq]
    · intro piece _ token htoken origin label?
      obtain ⟨label, hlabel⟩ := Codec.exists_label_of_badgeToken? settings node.labels htoken
      exact validate?_eq_none_iff_resolves.mpr (resolves_of_get?_pruneLabels hnode hlabel)

end Flow
end Workflow
