import Workflow.Branch.Path
import Workflow.Fresh
import Workflow.Json.Record

/-!
# Concurrent branches

Nodes behind a decision have branch paths, and so have the points where arms come together again.
Two nodes may run at the same time if neither path is the start of the other and no merge joins
them: a merge at their common parent, or otherwise one whose path is the start of both.
-/

namespace Workflow
namespace Branch

/-- A node and its branch path. -/
structure Record where
  branch : String
  nodeId : String
  deriving DecidableEq, Inhabited

/-- What may be set about the classification of branches. -/
structure Settings where
  matching : PathMatching
  deriving DecidableEq

def Settings.standard : Settings :=
  { matching := .literal }

/-- Whether a merge joins two paths: their common parent is a merge, or, if their parents differ,
the path of a merge is the start of both. -/
def isMerged (matching : PathMatching) (merges : List String) (a b : String) : Bool :=
  if parent a = parent b then
    merges.contains (parent a)
  else
    merges.any fun merge => matching.isPrefix merge a && matching.isPrefix merge b

/-- Whether nodes with two paths may run at the same time. -/
def isConcurrent (matching : PathMatching) (merges : List String) (a b : String) : Bool :=
  !matching.isPrefix a b && !matching.isPrefix b a && !isMerged matching merges a b

/-- Every member of a list paired with every later one, in order. -/
def pairs : List α → List (α × α)
  | [] => []
  | x :: xs => xs.map (fun y => (x, y)) ++ pairs xs

/-- Merges in the order in which they are reached: those with the shorter paths come first. -/
def byDepth (merges : List Record) : List Record :=
  merges.mergeSort fun a b => a.branch.utf8ByteSize ≤ b.branch.utf8ByteSize

/-- Whether the nodes of two records may run at the same time. -/
def areConcurrent (settings : Settings) (merges : List Record) (a b : Record) : Bool :=
  isConcurrent settings.matching (merges.map Record.branch) a.branch b.branch

/-- The pairs of records whose nodes may run at the same time. -/
def concurrentPairs (settings : Settings) (fanOut merges : List Record) :
    List (Record × Record) :=
  (pairs fanOut).filter fun (a, b) => areConcurrent settings (byDepth merges) a b

/-- The ids of the nodes that may run at the same time as another, in order of first appearance. -/
def classify (settings : Settings) (fanOut merges : List Record) : List String :=
  fresh [] ((concurrentPairs settings fanOut merges).flatMap fun (a, b) => [a.nodeId, b.nodeId])

open Json

def Record.reader : Reader Record :=
  .record { branch := "", nodeId := "" } [
    .needed "branch" .string fun branch record => { record with branch },
    Member.orSpelled (.needed "node_id" .string fun nodeId record => { record with nodeId })
      "nodeId"]

/-- The records behind the decisions of a flow, and its merges. -/
structure Plan where
  fanOut : List Record
  merges : List Record

def Plan.reader : Reader Plan :=
  .record { fanOut := [], merges := [] } [
    Member.orSpelled
      (.needed "fan_out" (.list Record.reader) fun fanOut plan => { plan with fanOut })
      "fanOut",
    .defaulted "merge" (.list Record.reader) fun merges plan => { plan with merges }]

end Branch
end Workflow
