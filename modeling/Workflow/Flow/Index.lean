import Workflow.Flow.Basic

/-!
# Looking up nodes by id

An index notes for each id where the first node with that id stands, so that a node is found
without a search.  It finds the same nodes as a search from the front (`node?_ofNodes`).
-/

namespace Workflow

/-- Some nodes, and the place of the first node with each id. -/
structure NodeIndex where
  nodes : List Node
  places : List (String × Nat)

namespace NodeIndex

/-- Notes the place of a node, unless the place of one with its id has been noted. -/
def note (places : List (String × Nat)) (entry : Node × Nat) : List (String × Nat) :=
  Keyed.insertIfNew entry.1.id entry.2 places

def ofNodes (nodes : List Node) : NodeIndex :=
  { nodes, places := nodes.zipIdx.foldl note [] }

/-- The node whose place is noted under an id. -/
def node? (index : NodeIndex) (id : String) : Option Node :=
  (Keyed.find? id index.places).bind fun place => index.nodes[place]?

/-- What is noted first under an id stays. -/
theorem find?_foldl_note (entries : List (Node × Nat)) (places : List (String × Nat))
    (id : String) :
    Keyed.find? id (entries.foldl note places) =
      (Keyed.find? id places).or ((entries.find? fun entry => entry.1.id = id).map Prod.snd) := by
  induction entries generalizing places with
  | nil => simp
  | cons entry rest ih =>
      rw [List.foldl_cons, ih]
      by_cases hid : entry.1.id = id
      · simp [note, hid]
      · simp [note, hid]

/-- The index finds the first node with an id. -/
@[simp] theorem node?_ofNodes (nodes : List Node) (id : String) :
    (ofNodes nodes).node? id = nodeWithId? nodes id := by
  have hfound : (nodes.zipIdx.map Prod.fst).find? (fun node => node.id = id) =
      (nodes.zipIdx.find? fun entry => entry.1.id = id).map Prod.fst := List.find?_map
  rw [List.zipIdx_map_fst] at hfound
  rw [nodeWithId?, hfound, node?, ofNodes, find?_foldl_note]
  cases hentry : nodes.zipIdx.find? fun entry => entry.1.id = id with
  | none => simp [Keyed.find?]
  | some entry =>
      have hplace := List.mem_zipIdx_iff_getElem?.mp (List.mem_of_find?_eq_some hentry)
      simpa [Keyed.find?] using hplace

end NodeIndex
end Workflow
