import Workflow.Flow.Canvas
import Workflow.Proofs.Json.Grammar

/-!
# Texts that save a flow

Which texts an editor may save a flow as.  The members of every object may come in any order and
among others, some have two spellings, and most may be left out if they have their default.  The
mark that exposes a parameter may be any value of the right sort.
-/

namespace Workflow

open Json

/-- A tag names a kind: it is the tag of the kind, and of no other kind with a meaning of its
own. -/
def ParamKind.IsNamed (kind : ParamKind) (tag : String) : Prop :=
  kind.tag = tag ∧ ∀ known : ParamKind, known.isKnown = true → known.tag = tag → known = kind

/-- A text for the mark of a parameter that is exposed or not. -/
def IsMark (depth : Nat) (exposed : Bool) (text : List Char) : Prop :=
  ∃ mark : Json.Value, mark.IsWritten depth text ∧ (exposed = true ↔ IsExposing mark)

section Parts

/-! Values have at most `depth` containers inside one another, and `marks` says what the mark of a
parameter may be. -/

variable (depth : Nat) (marks : Bool → List Char → Prop)

/-- Some members save a parameter. -/
structure Param.IsSaved (param : Param) (members : List (String × List Char)) : Prop where
  key : Has members ["key"] (IsQuoted param.key)
  label : MayHave members ["label"] (IsOptional IsQuoted param.label?) (param.label? = none)
  kind : MayHave members ["type"] (fun text => ∃ tag, param.kind.IsNamed tag ∧ IsQuoted tag text)
    (param.kind = .other "")
  value : MayHave members ["value"] (param.value.IsWritten depth) (param.value = .null)
  exposed : MayHave members ["global"] (marks param.exposed) (param.exposed = false)

/-- A text for a parameter. -/
def Param.IsWritten (param : Param) (text : List Char) : Prop :=
  ∃ members, IsRecord ["key", "label", "type", "value", "global"] members text ∧
    param.IsSaved depth marks members

structure ParamGroup.IsSaved (group : ParamGroup) (members : List (String × List Char)) : Prop where
  name : MayHave members ["name"] (IsOptional IsQuoted group.name?) (group.name? = none)
  params : MayHave members ["params"] (IsList (Param.IsWritten depth marks) group.params)
    (group.params = [])

def ParamGroup.IsWritten (group : ParamGroup) (text : List Char) : Prop :=
  ∃ members, IsRecord ["name", "params"] members text ∧ group.IsSaved depth marks members

/-- A text for a label table, an object with the label of each token; the last of several labels of
one token counts. -/
def LabelTable.IsWritten (table : LabelTable) (text : List Char) : Prop :=
  ∃ labels : List (String × String × List Char),
    (∀ label ∈ labels, IsQuoted label.2.1 label.2.2) ∧
      IsObject IsQuoted (labels.map fun label => (label.1, label.2.2)) text ∧
      ∀ token, table.get? token =
        Keyed.find? token (labels.map fun label => (label.1, label.2.1)).reverse

/-- What some members save of a node beside its id. -/
structure Node.IsSavedData (node : Node) (members : List (String × List Char)) : Prop where
  name : MayHave members ["name"] (IsQuoted node.name) (node.name = "")
  kind : MayHave members ["type"] (IsQuoted node.kind) (node.kind = "")
  groups : MayHave members ["group_params"] (IsList (ParamGroup.IsWritten depth marks) node.groups)
    (node.groups = [])
  labels : MayHave members ["var_zh", "varZh"]
    (fun text => text = "null".toList ∧ node.labels = .empty ∨ node.labels.IsWritten text)
    (node.labels = .empty)

def Node.IsWrittenData (node : Node) (text : List Char) : Prop :=
  ∃ members, IsRecord ["name", "type", "group_params", "var_zh", "varZh"] members text ∧
    node.IsSavedData depth marks members

structure Node.IsSaved (node : Node) (members : List (String × List Char)) : Prop where
  id : Has members ["id"] (IsQuoted node.id)
  data : Has members ["data"] (node.IsWrittenData depth marks)

def Node.IsWritten (node : Node) (text : List Char) : Prop :=
  ∃ members, IsRecord ["id", "data"] members text ∧ node.IsSaved depth marks members

structure Edge.IsSaved (edge : Edge) (members : List (String × List Char)) : Prop where
  source : Has members ["source"] (IsQuoted edge.source)
  target : Has members ["target"] (IsQuoted edge.target)
  sourceHandle : MayHave members ["source_handle", "sourceHandle"]
    (IsOptional IsQuoted edge.sourceHandle?) (edge.sourceHandle? = none)
  targetHandle : MayHave members ["target_handle", "targetHandle"]
    (IsOptional IsQuoted edge.targetHandle?) (edge.targetHandle? = none)

def Edge.IsWritten (edge : Edge) (text : List Char) : Prop :=
  ∃ members,
    IsRecord ["source", "target", "source_handle", "sourceHandle", "target_handle", "targetHandle"]
      members text ∧ edge.IsSaved members

structure Flow.IsSaved (flow : Flow) (members : List (String × List Char)) : Prop where
  nodes : Has members ["nodes"] (IsList (Node.IsWritten depth marks) flow.nodes)
  edges : MayHave members ["edges"] (IsList Edge.IsWritten flow.edges) (flow.edges = [])

def Flow.IsWritten (flow : Flow) (text : List Char) : Prop :=
  ∃ members, IsRecord ["nodes", "edges"] members text ∧ flow.IsSaved depth marks members

/-- A whole text for a flow, with white space around it. -/
def Flow.IsRenderedAs (flow : Flow) (text : String) : Prop :=
  ∃ before body after, text.toList = before ++ (body ++ after) ∧ IsBlank before ∧ IsBlank after ∧
    flow.IsWritten depth marks body

end Parts

/-- How many containers the value of a parameter may have inside one another: a text may have 127,
and eight of them stand around the value. -/
def valueDepth : Nat := 119

end Workflow
