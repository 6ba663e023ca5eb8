import Workflow.Reference.Resolution
import Workflow.Template.Marker

/-!
# Reports on references

A report counts the references in the texts of some parameters and lists those that do not resolve,
in the order in which they occur.  It grows reference by reference: `Report.checkNode` goes through
the parameters of a node, and `Flow.report` goes through the nodes of a flow.
-/

namespace Workflow

/-- A reference that does not resolve, and where it stands. -/
structure Issue where
  nodeId : String
  paramKey : String
  token : String
  error : ReferenceError
  deriving DecidableEq

/-- The outcome of checking the references of a flow or of a part of it. -/
structure Report where
  /-- How many references were looked at. -/
  checked : Nat
  /-- Those that do not resolve. -/
  issues : List Issue

namespace Report

def empty : Report :=
  ⟨0, []⟩

def isClean (report : Report) : Bool :=
  report.issues.isEmpty

def messages (report : Report) : List String :=
  report.issues.map fun issue => issue.error.message

def forNode (report : Report) (id : String) : List Issue :=
  report.issues.filter fun issue => issue.nodeId = id

end Report

/-- The tokens in the texts of a parameter's value, with repetitions. -/
def Param.tokens (param : Param) : List String :=
  param.value.texts.flatMap Template.tokens

namespace Report

/-- Checks a reference in a parameter of a node. -/
def checkToken (index : NodeIndex) (node : Node) (param : Param) (report : Report)
    (token : String) : Report :=
  let checked := report.checked + 1
  match index.validate? node.id token (node.labels.get? token) with
  | none => { report with checked }
  | some error =>
      let issue := { nodeId := node.id, paramKey := param.key, token, error }
      { checked, issues := report.issues ++ [issue] }

def checkParam (index : NodeIndex) (node : Node) (report : Report) (param : Param) : Report :=
  param.tokens.foldl (checkToken index node param) report

def checkNode (index : NodeIndex) (report : Report) (node : Node) : Report :=
  node.params.foldl (checkParam index node) report

end Report

/-- The report on a node among others. -/
def Node.report (nodes : List Node) (node : Node) : Report :=
  Report.checkNode (.ofNodes nodes) .empty node

def Flow.report (flow : Flow) : Report :=
  flow.nodes.foldl (Report.checkNode (.ofNodes flow.nodes)) .empty

end Workflow
