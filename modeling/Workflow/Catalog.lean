import Workflow.Flow.Ancestors
import Workflow.Flow.Shape
import Workflow.Template.Marker
import Workflow.Token

/-!
# Variables

The variables that a node exposes through those of its parameters that other nodes may refer to,
and the variables that a node may use: those of its ancestors, nearest first.
-/

namespace Workflow

/-- A value that other nodes may refer to. -/
structure Variable where
  /-- The node that exposes it. -/
  nodeId : String
  token : String
  label : String
  deriving DecidableEq

def labelPath (base name : String) : String :=
  base ++ "/" ++ name

def elementLabel (list : String) (index : Nat) : String :=
  list ++ "[" ++ Nat.repr index ++ "]"

namespace Param

def fullLabel (node : Node) (param : Param) : String :=
  labelPath node.displayName (param.label?.getD param.key)

/-- The variable of one element of a list, if the element can be referred to. -/
def elementVariable? (node : Node) (param : Param) (index : Nat) (item : Json.Value) :
    Option Variable :=
  if isListed item then
    some
      { nodeId := node.id
        token := Token.element (Token.path node.id param.key) index
        label := elementLabel (param.fullLabel node) index }
  else
    none

def recordVariable? (node : Node) (record : Json.Value) : Option Variable :=
  (recordKey? record).map fun key =>
    { nodeId := node.id
      token := Token.path node.id key
      label := labelPath node.displayName ((recordLabel? record).getD key) }

/-- The variables that a parameter offers. -/
def offers (node : Node) (param : Param) : List Variable :=
  if param.kind = .inputList then
    param.items.zipIdx.filterMap fun (item, index) => param.elementVariable? node index item
  else
    match param.records? with
    | some records => records.filterMap (recordVariable? node)
    | none =>
        [{ nodeId := node.id
           token := Token.path node.id param.key
           label := param.fullLabel node }]

end Param

def Node.exposedVariables (node : Node) : List Variable :=
  (node.params.filter Param.exposed).flatMap (Param.offers node)

/-- The variables that a node may use. -/
def Flow.availableTo (flow : Flow) (id : String) : List Variable :=
  (flow.ancestors id).flatMap Node.exposedVariables

end Workflow
