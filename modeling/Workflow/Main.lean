import Workflow.CommandLine.Run

/-!
# The program

Reads the arguments and the files, prints what a command prints, and ends as it ends.
-/

namespace Workflow
namespace CommandLine

def usage : String :=
  String.intercalate "\n" [
    "Usage: workflow [-c FILE] [-v] COMMAND",
    "",
    "Commands:",
    "  validate FLOW                       Validate every reference in a flow",
    "  render [--no-validate] FLOW NODE    Render the text parameters of a node as markup",
    "  variables FLOW NODE                 List the variables a node may reference",
    "  parallel [-m MATCHING] BRANCHES     List nodes that may run concurrently",
    "  name FLOW PROPOSED                  Propose a display name no node in the flow uses",
    ""]

/-- The content of a file, or why there is none. -/
def readFile (path : String) : IO (Except String String) := do
  try
    return .ok (← IO.FS.readFile path)
  catch
    | .noFileOrDirectory .. => return .error noSuchFile
    | error => return .error (toString error)

end CommandLine
end Workflow

open Workflow.CommandLine in
def main (arguments : List String) : IO UInt32 := do
  match Request.ofArguments arguments with
  | .help => IO.print usage; return 0
  | .unusable => IO.eprint usage; return 2
  | .run invocation =>
      let outcome ← run readFile invocation
      IO.print outcome.printed
      match outcome.error? with
      | some message => IO.eprint ("\nError: " ++ message ++ "\n")
      | none => pure ()
      return outcome.exit.toUInt32
