import Workflow.Flow.Basic
import Workflow.Fresh

/-!
# Ancestors of a node

The ancestors of an id are the ids from which edges lead to it.  They are found breadth first:
`Ancestry.search` takes an id off the queue, follows the unused edges that end at it back to their
sources, and queues the sources that it has not seen.  An id is queued once, so an edge is followed
once, and each round uses up the head of the queue and at least as many edges as it queues ids.
-/

namespace Workflow
namespace Ancestry

/-- The sources of the edges that end at an id, in the order of the edges. -/
def sourcesInto (edges : List Edge) (id : String) : List String :=
  (edges.filter fun edge => edge.target = id).map Edge.source

def elsewhere (edges : List Edge) (id : String) : List Edge :=
  edges.filter fun edge => edge.target ≠ id

theorem length_sourcesInto_add (edges : List Edge) (id : String) :
    (sourcesInto edges id).length + (elsewhere edges id).length = edges.length := by
  induction edges with
  | nil => rfl
  | cons edge rest ih =>
      unfold sourcesInto elsewhere at ih ⊢
      by_cases h : edge.target = id <;> simp_all <;> omega

/-- The ids that have been seen when the queue is empty, in the order in which they are seen. -/
def search (unused : List Edge) (queue seen : List String) : List String :=
  match queue with
  | [] => seen
  | id :: queue =>
      let found := fresh seen (sourcesInto unused id)
      search (elsewhere unused id) (queue ++ found) (seen ++ found)
termination_by unused.length + queue.length
decreasing_by
  have hsplit := length_sourcesInto_add unused id
  have hfresh := length_fresh_le seen (sourcesInto unused id)
  simp only [List.length_append, List.length_cons]
  omega

end Ancestry

namespace Flow

/-- The ids from which edges lead to `id`, nearest first, and without `id` itself. -/
def ancestorIds (flow : Flow) (id : String) : List String :=
  (Ancestry.search flow.edges [id] [id]).tail

/-- The nodes from which edges lead to `id`, nearest first.  An id that no node has is passed
over. -/
def ancestors (flow : Flow) (id : String) : List Node :=
  (flow.ancestorIds id).filterMap flow.node?

end Flow
end Workflow
