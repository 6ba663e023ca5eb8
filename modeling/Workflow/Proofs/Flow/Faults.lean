import Workflow.Flow.Load

/-!
# Flows without faults

A canvas is made a flow just if no two of its nodes share an id and every edge ends at nodes
(`Canvas.toFlow_eq_ok_iff`).  So in a flow that has been loaded each node is the one that is found
under its id (`Flow.IsFaultless.node?_of_mem`).
-/

namespace Workflow

/-- The ids of the nodes differ, and the edges end at nodes. -/
structure Flow.IsFaultless (flow : Flow) : Prop where
  nodup : (flow.nodes.map Node.id).Nodup
  ends : ∀ edge ∈ flow.edges,
    edge.source ∈ flow.nodes.map Node.id ∧ edge.target ∈ flow.nodes.map Node.id

namespace Canvas

/-- The flow that a canvas is made, whatever its faults are. -/
def asFlow (canvas : Canvas) : Flow :=
  { nodes := canvas.nodes.map Node.toNode, edges := canvas.edges }

@[simp] theorem missingEnd?_eq_none_iff {ids : List String} {edge : Edge} :
    missingEnd? ids edge = none ↔ edge.source ∈ ids ∧ edge.target ∈ ids := by
  simp [missingEnd?]

@[simp] theorem edgeFault?_eq_none_iff {ids : List String} {edge : Edge} :
    edgeFault? ids edge = none ↔ edge.source ∈ ids ∧ edge.target ∈ ids := by
  simp [edgeFault?]

/-- The flow has the ids of the canvas. -/
@[simp] theorem asFlow_ids (canvas : Canvas) :
    canvas.asFlow.nodes.map Workflow.Node.id = canvas.nodes.map Node.id := by
  simp [asFlow, Node.toNode]

theorem fault?_eq_none_iff {canvas : Canvas} :
    canvas.fault? = none ↔ canvas.asFlow.IsFaultless := by
  have hids := canvas.asFlow_ids
  have hedges : canvas.edges.findSome? (edgeFault? (canvas.nodes.map Node.id)) = none ↔
      ∀ edge ∈ canvas.edges, edge.source ∈ canvas.nodes.map Node.id ∧
        edge.target ∈ canvas.nodes.map Node.id := by
    simp
  simp only [fault?]
  cases hrepeated : firstRepeated? [] (canvas.nodes.map Node.id) with
  | some id =>
      constructor
      · exact fun h => nomatch h
      · intro h
        have hnone := firstRepeated?_eq_none_iff.mpr ⟨hids ▸ h.nodup, fun _ _ => List.not_mem_nil⟩
        exact nomatch hrepeated.symm.trans hnone
  | none =>
      have hnodup := (firstRepeated?_eq_none_iff.mp hrepeated).1
      constructor
      · exact fun h => ⟨hids ▸ hnodup, hids ▸ hedges.mp h⟩
      · exact fun h => hedges.mpr (hids ▸ h.ends)

theorem toFlow_eq_ok_iff {canvas : Canvas} {flow : Flow} :
    canvas.toFlow = .ok flow ↔ canvas.asFlow = flow ∧ flow.IsFaultless := by
  unfold toFlow
  cases hfault : canvas.fault? with
  | some fault =>
      constructor
      · exact fun h => nomatch h
      · rintro ⟨rfl, h⟩
        exact nomatch hfault.symm.trans (fault?_eq_none_iff.mpr h)
  | none =>
      constructor
      · intro h
        cases h
        exact ⟨rfl, fault?_eq_none_iff.mp hfault⟩
      · rintro ⟨rfl, _⟩
        rfl

end Canvas

namespace Flow

/-- A flow is loaded from a text if a canvas is read from it that is made the flow. -/
theorem load_eq_ok_iff {text : String} {flow : Flow} :
    Flow.load text = .ok flow ↔
      ∃ canvas, Json.read Canvas.reader text = .ok canvas ∧ canvas.toFlow = .ok flow := by
  unfold Flow.load
  cases Json.read Canvas.reader text with
  | error error =>
      constructor
      · exact fun h => nomatch h
      · rintro ⟨_, h, _⟩
        exact nomatch h
  | ok canvas =>
      constructor
      · intro h
        refine ⟨canvas, rfl, ?_⟩
        dsimp only at h
        split at h
        · cases h
        · cases h
          assumption
      · rintro ⟨_, h, hflow⟩
        cases h
        dsimp only
        rw [hflow]

theorem isFaultless_load {text : String} {flow : Flow} (h : Flow.load text = .ok flow) :
    flow.IsFaultless := by
  obtain ⟨canvas, _, hflow⟩ := load_eq_ok_iff.mp h
  exact (Canvas.toFlow_eq_ok_iff.mp hflow).2

/-- A node is found under its id. -/
theorem IsFaultless.node?_of_mem {flow : Flow} (h : flow.IsFaultless) {node : Node}
    (hnode : node ∈ flow.nodes) : flow.node? node.id = some node := by
  have hnodup := h.nodup
  rw [node?, nodeWithId?]
  generalize flow.nodes = nodes at hnode hnodup
  induction nodes with
  | nil => exact absurd hnode List.not_mem_nil
  | cons other rest ih =>
      obtain ⟨hnot, hnodup⟩ := List.nodup_cons.mp hnodup
      rcases List.mem_cons.mp hnode with rfl | hnode
      · simp
      · have hne : other.id ≠ node.id := fun heq => hnot (heq ▸ List.mem_map_of_mem hnode)
        rw [List.find?_cons_of_neg (by simpa using hne), ih hnode hnodup]

end Flow
end Workflow
