import Workflow.Text.Split

/-!
# Branch paths

A branch path says where a node stands in a tree of decisions: it lists the arms taken, joined by
underscores.  `isPrefix` tests whether one path lies on the way to another, either by characters or
by whole arms, and `parent` gives the path of the decision that a path starts from.
-/

namespace Workflow
namespace Branch

/-- How one path is tested as the start of another. -/
inductive PathMatching where
  /-- By characters, so that `0_1` is the start of `0_10`. -/
  | literal
  /-- By whole arms, so that `0_1` is the start of `0_1_0` but not of `0_10`. -/
  | segmented
  deriving DecidableEq, Inhabited

def arms (path : String) : List (List Char) :=
  Text.pieces '_' path.toList

/-- Whether one path is the start of another.  The empty path is the start of every path. -/
def PathMatching.isPrefix (matching : PathMatching) (start path : String) : Bool :=
  match matching with
  | literal => start.toList.isPrefixOf path.toList
  | segmented => start.isEmpty || (arms start).isPrefixOf (arms path)

/-- The path of the decision that a path starts from; it is empty for a single arm. -/
def parent (path : String) : String :=
  match Text.cutLast '_' path.toList with
  | some (before, _) => String.ofList before
  | none => ""

end Branch
end Workflow
