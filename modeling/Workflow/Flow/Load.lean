import Workflow.Flow.Canvas
import Workflow.Json.Record

/-!
# Loading flows

The shape of a saved canvas as JSON, one reader for each of its parts, and `Flow.load`, which reads
a text and checks what it says.
-/

namespace Workflow

open Json

namespace LabelTable

/-- Reads a label table, an object of texts. -/
def reader : Reader LabelTable :=
  .table .string (fun token label table => table.insert token label) empty

end LabelTable

namespace Canvas

def Param.reader : Reader Param :=
  .record { key := "", label? := none, kind := .other "", value := .null, mark := .null } [
    .needed "key" .string fun key param => { param with key },
    .defaulted "label" (.optional .string) fun label? param => { param with label? },
    .defaulted "type" .string fun tag param => { param with kind := .ofTag tag },
    .defaulted "value" .value fun value param => { param with value },
    .defaulted "global" .value fun mark param => { param with mark }]

def ParamGroup.reader : Reader ParamGroup :=
  .record { name? := none, params := [] } [
    .defaulted "name" (.optional .string) fun name? group => { group with name? },
    .defaulted "params" (.list Param.reader) fun params group => { group with params }]

def NodeData.reader : Reader NodeData :=
  .record { name := "", kind := "", groups := [], labels? := none } [
    .defaulted "name" .string fun name data => { data with name },
    .defaulted "type" .string fun kind data => { data with kind },
    .defaulted "group_params" (.list ParamGroup.reader) fun groups data => { data with groups },
    Member.orSpelled
      (.defaulted "var_zh" (.optional LabelTable.reader) fun labels? data => { data with labels? })
      "varZh"]

def Node.reader : Reader Node :=
  .record default [
    .needed "id" .string fun id node => { node with id },
    .needed "data" NodeData.reader fun data node => { node with data }]

end Canvas

def Edge.reader : Reader Edge :=
  .record { source := "", target := "", sourceHandle? := none, targetHandle? := none } [
    .needed "source" .string fun source edge => { edge with source },
    .needed "target" .string fun target edge => { edge with target },
    Member.orSpelled
      (.defaulted "source_handle" (.optional .string) fun sourceHandle? edge =>
        { edge with sourceHandle? })
      "sourceHandle",
    Member.orSpelled
      (.defaulted "target_handle" (.optional .string) fun targetHandle? edge =>
        { edge with targetHandle? })
      "targetHandle"]

def Canvas.reader : Reader Canvas :=
  .record { nodes := [], edges := [] } [
    .needed "nodes" (.list Node.reader) fun nodes canvas => { canvas with nodes },
    .defaulted "edges" (.list Edge.reader) fun edges canvas => { canvas with edges }]

/-- Why a text is no flow. -/
inductive LoadError where
  | unreadable (error : ReadError)
  | faulty (fault : Canvas.Fault)

def LoadError.message : LoadError → String
  | unreadable error => "Failed to parse flow JSON: " ++ error.message
  | faulty fault => fault.message

/-- Loads a flow from the text of a canvas. -/
def Flow.load (text : String) : Except LoadError Flow :=
  match read Canvas.reader text with
  | .error error => .error (.unreadable error)
  | .ok canvas =>
      match canvas.toFlow with
      | .error fault => .error (.faulty fault)
      | .ok flow => .ok flow

end Workflow
