import Workflow.Catalog
import Workflow.Naming
import Workflow.Reference.Resolution

/-!
# Changing flows

Changes to a flow that an editor makes, and the removal of labels whose tokens no longer resolve.
-/

namespace Workflow

/-- Changes the first member that passes a test. -/
def modifyFirst (test : α → Bool) (change : α → α) : List α → List α
  | [] => []
  | x :: xs => if test x then change x :: xs else x :: modifyFirst test change xs

/-- A member that passes the test is changed if none before it does. -/
theorem modifyFirst_append {α : Type} {test : α → Bool} {before : List α} {x : α}
    (hbefore : ∀ y ∈ before, test y = false) (hx : test x = true) (change : α → α)
    (behind : List α) :
    modifyFirst test change (before ++ x :: behind) = before ++ change x :: behind := by
  induction before with
  | nil => simp [modifyFirst, hx]
  | cons y rest ih =>
      have hy := hbefore y List.mem_cons_self
      have hrest := ih fun z hz => hbefore z (List.mem_cons_of_mem _ hz)
      simp [modifyFirst, hy, hrest]

namespace Node

/-- Labels a variable's token and gives the marker to put into a text. -/
def insertReference (node : Node) (offered : Variable) : Node × String :=
  ({ node with labels := node.labels.insert offered.token offered.label },
    Template.wrap offered.token)

/-- Changes the first parameter with a key, in whichever group it stands. -/
def modifyParam (node : Node) (key : String) (change : Param → Param) : Node :=
  let changeGroup (group : ParamGroup) : ParamGroup :=
    { group with params := modifyFirst (fun param => param.key = key) change group.params }
  let hasKey (group : ParamGroup) : Bool := group.params.any fun param => param.key = key
  { node with groups := modifyFirst hasKey changeGroup node.groups }

/-- The tokens with a label that do not resolve. -/
def staleTokens (index : NodeIndex) (node : Node) : List String :=
  node.labels.tokens.filter fun token => !index.resolves token

/-- Drops the label of a token. -/
def eraseLabel (node : Node) (token : String) : Node :=
  { node with labels := node.labels.erase token }

end Node

namespace Flow

def modifyNode (flow : Flow) (id : String) (change : Node → Node) : Flow :=
  { flow with nodes := modifyFirst (fun node => node.id = id) change flow.nodes }

/-- Of the nodes only the first one with the id is changed. -/
theorem nodes_modifyNode {flow : Flow} {id : String} {node : Node}
    (h : flow.node? id = some node) (change : Node → Node) :
    ∃ before behind, flow.nodes = before ++ node :: behind ∧ (∀ other ∈ before, other.id ≠ id) ∧
      (flow.modifyNode id change).nodes = before ++ change node :: behind := by
  obtain ⟨hid, before, behind, hsplit, hbefore⟩ := List.find?_eq_some_iff_append.mp h
  have hbefore : ∀ other ∈ before, decide (other.id = id) = false := by simpa using hbefore
  refine ⟨before, behind, hsplit, fun other hother => of_decide_eq_false (hbefore other hother), ?_⟩
  rw [modifyNode, hsplit]
  exact modifyFirst_append hbefore hid change behind

/-- Puts the nodes and edges of another flow behind those of a flow. -/
def append (flow other : Flow) : Flow :=
  { nodes := flow.nodes ++ other.nodes, edges := flow.edges ++ other.edges }

/-- Drops every node with an id, and no edge. -/
def removeNode (flow : Flow) (id : String) : Flow :=
  { flow with nodes := flow.nodes.filter fun node => node.id ≠ id }

def uniqueName (flow : Flow) (proposed : String) : String :=
  Naming.autoName (flow.nodes.map Node.name) proposed

/-- The labels whose token does not resolve: the place of their node, and the token. -/
def staleLabels (flow : Flow) : List (Nat × String) :=
  let index := NodeIndex.ofNodes flow.nodes
  flow.nodes.zipIdx.flatMap fun (node, place) =>
    (node.staleTokens index).map fun token => (place, token)

/-- Drops the label of a token in the table of the node at a place. -/
def eraseLabel (nodes : List Node) (stale : Nat × String) : List Node :=
  nodes.modify stale.1 (·.eraseLabel stale.2)

/-- Drops every label whose token does not resolve.  All of them are found before one is dropped. -/
def pruneLabels (flow : Flow) : Flow :=
  { flow with nodes := flow.staleLabels.foldl eraseLabel flow.nodes }

/-- How many labels have a token that does not resolve. -/
def staleCount (flow : Flow) : Nat :=
  flow.staleLabels.length

end Flow
end Workflow
