import Workflow.CommandLine.Arguments
import Workflow.Flow.Edit
import Workflow.Flow.Load
import Workflow.Reference.Report

/-!
# Running commands

What each command prints and how it ends.  Files are read by a function that is handed in, which
gives the content of a file or says why there is none.
-/

namespace Workflow
namespace CommandLine

/-- How a command ends and what it has printed. -/
structure Outcome where
  exit : Nat
  printed : String
  /-- What went wrong, if the command could not do its work. -/
  error? : Option String
  deriving DecidableEq

def Outcome.failed (message : String) : Outcome :=
  { exit := 1, printed := "", error? := some message }

/-- A command that has printed some lines, and ends well if `good` holds. -/
def Outcome.done (good : Bool) (lines : List String) : Outcome :=
  { exit := if good then 0 else 1
    printed := String.join (lines.map (· ++ "\n"))
    error? := none }

def issueLine (issue : Issue) : String :=
  "  -> [" ++ issue.nodeId ++ "." ++ issue.paramKey ++ "] " ++ Template.wrap issue.token ++ ": " ++
    issue.error.message

def validate (flow : Flow) : Outcome :=
  let report := flow.report
  let head := "Checked " ++ Nat.repr report.checked ++ " references across " ++
    Nat.repr flow.nodes.length ++ " nodes"
  .done report.isClean <|
    head ::
      (if report.isClean then ["  -> All references resolve"] else report.issues.map issueLine)

/-- The lines on a parameter with a text, and how many of its references do not resolve. -/
def renderParam (settings : Codec.Settings) (flow : Flow) (node : Node) (check : Bool)
    (param : Param) : List String × Nat :=
  match param.value.str? with
  | none => ([], 0)
  | some text =>
      let decoded := Codec.decode settings flow.nodes node check text
      let lines := (decoded.error?.map fun error => "  -> " ++ error.message).toList
      ((param.key ++ ": " ++ decoded.text) :: lines, decoded.broken)

def render (settings : Codec.Settings) (flow : Flow) (node : Node) (check : Bool) : Outcome :=
  let parts := node.params.map (renderParam settings flow node check)
  .done (parts.all fun part => part.2 = 0) (parts.flatMap Prod.fst)

def listVariables (flow : Flow) (id : String) : Outcome :=
  .done true ((flow.availableTo id).map fun offered => offered.token ++ "\t" ++ offered.label)

def pairLine (pair : Branch.Record × Branch.Record) : String :=
  let (a, b) := pair
  a.nodeId ++ " (" ++ a.branch ++ ") || " ++ b.nodeId ++ " (" ++ b.branch ++ ")"

def parallel (settings : Branch.Settings) (plan : Branch.Plan) : Outcome :=
  let ids := Branch.classify settings plan.fanOut plan.merges
  .done true <|
    (Branch.concurrentPairs settings plan.fanOut plan.merges).map pairLine ++
      ["Concurrent nodes: " ++ String.intercalate ", " ids]

def flowOfFile (path : String) (content : Except String String) : Except String Flow :=
  match content with
  | .error reason => .error ("Failed to read flow file '" ++ path ++ "': " ++ reason)
  | .ok text =>
      match Flow.load text with
      | .error error => .error ("Failed to load flow: " ++ error.message)
      | .ok flow => .ok flow

def planOfFile (path : String) (content : Except String String) : Except String Branch.Plan :=
  match content with
  | .error reason => .error ("Failed to read branches file '" ++ path ++ "': " ++ reason)
  | .ok text =>
      match Json.read Branch.Plan.reader text with
      | .error error => .error ("Failed to parse branches JSON: " ++ error.message)
      | .ok plan => .ok plan

def configOfFile (path : String) (content : Except String String) : Except String Config :=
  match content with
  | .error reason =>
      .error ("Failed to load config: Could not read config file '" ++ path ++ "': " ++ reason)
  | .ok text =>
      match Config.load text with
      | .error error =>
          .error ("Failed to load config: Failed to parse config JSON: " ++ error.message)
      | .ok config => .ok config

def onFlow (path : String) (content : Except String String) (action : Flow → Outcome) : Outcome :=
  match flowOfFile path content with
  | .error message => .failed message
  | .ok flow => action flow

def onNode (flow : Flow) (id : String) (action : Node → Outcome) : Outcome :=
  match flow.node? id with
  | none => .failed ("Node '" ++ id ++ "' not found in flow")
  | some node => action node

def runCommand [Monad m] (readFile : String → m (Except String String)) (config : Config) :
    Command → m Outcome
  | .validate path => do
      return onFlow path (← readFile path) validate
  | .render path id check => do
      return onFlow path (← readFile path) fun flow =>
        onNode flow id fun node => render config.codec flow node check
  | .listVariables path id => do
      return onFlow path (← readFile path) fun flow =>
        onNode flow id fun _ => listVariables flow id
  | .parallel path matching? => do
      let settings : Branch.Settings := { matching := matching?.getD config.branch.matching }
      match planOfFile path (← readFile path) with
      | .error message => return .failed message
      | .ok plan => return parallel settings plan
  | .name path proposed => do
      return onFlow path (← readFile path) fun flow => .done true [flow.uniqueName proposed]

/-- Runs an invocation.  The configuration is read before any other file. -/
def run [Monad m] (readFile : String → m (Except String String)) (invocation : Invocation) :
    m Outcome := do
  match invocation.config? with
  | none => runCommand readFile .standard invocation.command
  | some path =>
      match configOfFile path (← readFile path) with
      | .error message => return .failed message
      | .ok config => runCommand readFile config invocation.command

/-- Why a file that is not there cannot be read. -/
def noSuchFile : String :=
  "No such file or directory (os error 2)"

end CommandLine
end Workflow
