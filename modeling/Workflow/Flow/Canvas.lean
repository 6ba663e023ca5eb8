import Workflow.Flow.Basic
import Workflow.Fresh

/-!
# Canvases

A canvas is a flow as the editor saves it.  `Canvas.toFlow` makes a flow of it if its ids are
unique and its edges end at its nodes; a repeated id is reported before an edge, and the source of
an edge before its target.
-/

namespace Workflow
namespace Canvas

/-- A parameter as saved.  The mark that exposes it may be any value. -/
structure Param where
  key : String
  label? : Option String
  kind : ParamKind
  value : Json.Value
  mark : Json.Value
  deriving Inhabited

structure ParamGroup where
  name? : Option String
  params : List Param
  deriving Inhabited

/-- What is saved with a node beside its id. -/
structure NodeData where
  name : String
  kind : String
  groups : List ParamGroup
  labels? : Option LabelTable
  deriving Inhabited

structure Node where
  id : String
  data : NodeData
  deriving Inhabited

end Canvas

/-- A mark that exposes a parameter. -/
inductive IsExposing : Json.Value → Prop where
  | true : IsExposing (.bool true)
  | text {s : String} (h : s ≠ "") : IsExposing (.str s)

/-- A flow as the editor saves it. -/
structure Canvas where
  nodes : List Canvas.Node
  edges : List Edge
  deriving Inhabited

namespace Canvas

/-- Why a canvas is no flow. -/
inductive Fault where
  | duplicateNodeId (id : String)
  | edgeEndpointNotFound (source target missing : String)

def Fault.message : Fault → String
  | duplicateNodeId id => "Node id '" ++ id ++ "' is used by more than one node"
  | edgeEndpointNotFound source target missing =>
      "Edge '" ++ source ++ "' -> '" ++ target ++ "' references node '" ++ missing ++
        "', which is not in the flow"

/-- A mark exposes a parameter if it is `true` or a text that is not empty. -/
def isExposing : Json.Value → Bool
  | .bool b => b
  | .str s => !s.isEmpty
  | _ => false

@[simp] theorem isExposing_iff {mark : Json.Value} : isExposing mark = true ↔ IsExposing mark := by
  constructor
  · intro h
    cases mark with
    | bool b => cases h; exact .true
    | str s => exact .text (by simpa [isExposing] using h)
    | _ => cases h
  · intro h
    cases h with
    | true => rfl
    | text h => simpa [isExposing] using h

def Param.toParam (param : Param) : Workflow.Param :=
  { key := param.key
    label? := param.label?
    kind := param.kind
    value := param.value
    exposed := isExposing param.mark }

def ParamGroup.toGroup (group : ParamGroup) : Workflow.ParamGroup :=
  { name? := group.name?, params := group.params.map Param.toParam }

/-- The node that was saved; without a label table its table is empty. -/
def Node.toNode (node : Node) : Workflow.Node :=
  { id := node.id
    name := node.data.name
    kind := node.data.kind
    groups := node.data.groups.map ParamGroup.toGroup
    labels := node.data.labels?.getD .empty }

/-- The end of an edge that is none of the ids; the source goes first. -/
def missingEnd? (ids : List String) (edge : Edge) : Option String :=
  [edge.source, edge.target].find? fun id => id ∉ ids

/-- What is wrong with an edge between nodes with the given ids. -/
def edgeFault? (ids : List String) (edge : Edge) : Option Fault :=
  (missingEnd? ids edge).map fun missing =>
    .edgeEndpointNotFound edge.source edge.target missing

/-- The first fault of a canvas. -/
def fault? (canvas : Canvas) : Option Fault :=
  let ids := canvas.nodes.map Node.id
  match firstRepeated? [] ids with
  | some id => some (.duplicateNodeId id)
  | none => canvas.edges.findSome? (edgeFault? ids)

/-- The flow that was saved. -/
def toFlow (canvas : Canvas) : Except Fault Flow :=
  match canvas.fault? with
  | some fault => .error fault
  | none => .ok { nodes := canvas.nodes.map Node.toNode, edges := canvas.edges }

end Canvas
end Workflow
