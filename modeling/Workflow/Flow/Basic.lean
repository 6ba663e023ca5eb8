import Workflow.Flow.LabelTable
import Workflow.Json.Value

/-!
# Flows

A flow is a graph of nodes that an editor draws.  Each node has groups of parameters, and a table
with the labels of the references that its texts hold.  Nothing here asks that ids are unique or
that an edge ends at a node; where an id is looked up, the first node that has it is meant.
-/

namespace Workflow

/-- What a parameter is, as its type tag tells. -/
inductive ParamKind where
  /-- A plain variable. -/
  | var
  /-- A list of texts, each of which can be referred to by its index. -/
  | inputList
  /-- The fields of a form. -/
  | form
  /-- The declared outputs of a program. -/
  | codeOutput
  /-- A text that may hold references. -/
  | textArea
  /-- Any other tag. -/
  | other (tag : String)
  deriving DecidableEq, Inhabited

namespace ParamKind

def ofTag (tag : String) : ParamKind :=
  if tag = "var" then var
  else if tag = "input_list" then inputList
  else if tag = "form" then form
  else if tag = "code_output" then codeOutput
  else if tag = "var_textarea" then textArea
  else other tag

def tag : ParamKind → String
  | var => "var"
  | inputList => "input_list"
  | form => "form"
  | codeOutput => "code_output"
  | textArea => "var_textarea"
  | other tag => tag

/-- Whether a kind is one of those with a meaning of their own. -/
def isKnown : ParamKind → Bool
  | other _ => false
  | _ => true

@[simp] theorem tag_ofTag (t : String) : (ofTag t).tag = t := by
  unfold ofTag
  repeat' split
  all_goals simp_all [tag]

end ParamKind

/-- A parameter of a node. -/
structure Param where
  key : String
  label? : Option String
  kind : ParamKind
  value : Json.Value
  /-- Whether other nodes may refer to the parameter. -/
  exposed : Bool
  deriving Inhabited

structure ParamGroup where
  name? : Option String
  params : List Param
  deriving Inhabited

structure Node where
  id : String
  name : String
  kind : String
  groups : List ParamGroup
  labels : LabelTable
  deriving Inhabited

structure Edge where
  source : String
  target : String
  sourceHandle? : Option String
  targetHandle? : Option String
  deriving DecidableEq, Inhabited

structure Flow where
  nodes : List Node
  edges : List Edge
  deriving Inhabited

namespace Node

/-- The name of a node, or its id if the name is empty. -/
def displayName (node : Node) : String :=
  if node.name.isEmpty then node.id else node.name

def params (node : Node) : List Param :=
  node.groups.flatMap ParamGroup.params

def param? (node : Node) (key : String) : Option Param :=
  node.params.find? fun param => param.key = key

end Node

/-- The first node with an id. -/
def nodeWithId? (nodes : List Node) (id : String) : Option Node :=
  nodes.find? fun node => node.id = id

def Flow.node? (flow : Flow) (id : String) : Option Node :=
  nodeWithId? flow.nodes id

end Workflow
