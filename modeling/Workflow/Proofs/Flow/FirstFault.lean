import Mathlib
import Workflow.Proofs.Flow.Faults

/-!
# What comes of a canvas

A canvas is made a flow part by part, or its first fault is reported: the first node with an id that
stands before it, and only without such a node the first edge with an end that is no node
(`Canvas.HasOutcome`).  No canvas has two outcomes, and each has the one that is found
(`Canvas.toFlow_eq_iff`).  The edges of a flow that is loaded end at nodes that no other node shares
its id with (`Flow.IsFaultless.exists_isOnly`).
-/

namespace Workflow
namespace Canvas

/-! ## What the parts of a canvas become -/

/-- A parameter as it was saved and as it is in the flow. -/
structure Param.Becomes (saved : Param) (param : Workflow.Param) : Prop where
  key : param.key = saved.key
  label : param.label? = saved.label?
  kind : param.kind = saved.kind
  value : param.value = saved.value
  exposed : param.exposed = true ↔ IsExposing saved.mark

structure ParamGroup.Becomes (saved : ParamGroup) (group : Workflow.ParamGroup) : Prop where
  name : group.name? = saved.name?
  params : List.Forall₂ Param.Becomes saved.params group.params

structure Node.Becomes (saved : Node) (node : Workflow.Node) : Prop where
  id : node.id = saved.id
  name : node.name = saved.data.name
  kind : node.kind = saved.data.kind
  groups : List.Forall₂ ParamGroup.Becomes saved.data.groups node.groups
  /-- A node that was saved without a label table has an empty one. -/
  labels : saved.data.labels? = some node.labels ∨
    saved.data.labels? = none ∧ node.labels = .empty

/-- The nodes and edges of the flow are those of the canvas, in the same order. -/
structure Becomes (canvas : Canvas) (flow : Flow) : Prop where
  nodes : List.Forall₂ Node.Becomes canvas.nodes flow.nodes
  edges : flow.edges = canvas.edges

@[simp] theorem Param.becomes_iff (saved : Param) (param : Workflow.Param) :
    saved.Becomes param ↔ saved.toParam = param := by
  constructor
  · rintro ⟨hkey, hlabel, hkind, hvalue, hexposed⟩
    cases param
    simp only [toParam, Workflow.Param.mk.injEq] at *
    refine ⟨hkey.symm, hlabel.symm, hkind.symm, hvalue.symm, ?_⟩
    rw [Bool.eq_iff_iff]
    simp [hexposed]
  · rintro rfl
    exact ⟨rfl, rfl, rfl, rfl, isExposing_iff⟩

/-- Lists correspond one to one if the parts of one are what is made of the parts of the other. -/
theorem forall₂_iff_map_eq {α β : Type} {R : α → β → Prop} {make : α → β}
    (h : ∀ a b, R a b ↔ make a = b) {parts : List α} {made : List β} :
    List.Forall₂ R parts made ↔ parts.map make = made := by
  simp only [← List.forall₂_eq_eq_eq, List.forall₂_map_left_iff]
  exact ⟨fun hall => hall.imp fun a b => (h a b).mp, fun hall => hall.imp fun a b => (h a b).mpr⟩

@[simp] theorem ParamGroup.becomes_iff (saved : ParamGroup) (group : Workflow.ParamGroup) :
    saved.Becomes group ↔ saved.toGroup = group := by
  constructor
  · rintro ⟨hname, hparams⟩
    cases group
    rw [toGroup, (forall₂_iff_map_eq Param.becomes_iff).mp hparams, ← hname]
  · rintro rfl
    exact ⟨rfl, (forall₂_iff_map_eq Param.becomes_iff).mpr rfl⟩

@[simp] theorem Node.becomes_iff (saved : Node) (node : Workflow.Node) :
    saved.Becomes node ↔ saved.toNode = node := by
  constructor
  · rintro ⟨hid, hname, hkind, hgroups, hlabels⟩
    have hlabels : saved.data.labels?.getD .empty = node.labels := by
      rcases hlabels with hsome | ⟨hnone, hempty⟩
      · rw [hsome, Option.getD_some]
      · rw [hnone, Option.getD_none, hempty]
    cases node
    rw [toNode, (forall₂_iff_map_eq ParamGroup.becomes_iff).mp hgroups, hlabels, ← hid, ← hname,
      ← hkind]
  · rintro rfl
    refine ⟨rfl, rfl, rfl, (forall₂_iff_map_eq ParamGroup.becomes_iff).mpr rfl, ?_⟩
    cases hlabels : saved.data.labels? with
    | none => exact Or.inr ⟨rfl, by rw [toNode, hlabels, Option.getD_none]⟩
    | some labels => exact Or.inl (by rw [toNode, hlabels, Option.getD_some])

@[simp] theorem becomes_iff {canvas : Canvas} {flow : Flow} :
    canvas.Becomes flow ↔ canvas.asFlow = flow := by
  constructor
  · rintro ⟨hnodes, hedges⟩
    cases flow
    rw [asFlow, (forall₂_iff_map_eq Node.becomes_iff).mp hnodes, ← hedges]
  · rintro rfl
    exact ⟨(forall₂_iff_map_eq Node.becomes_iff).mpr rfl, rfl⟩

/-! ## The first fault -/

/-- An end of an edge that is none of the ids; the target only counts if the source is one. -/
inductive IsMissing (ids : List String) (edge : Edge) : String → Prop where
  | source (h : edge.source ∉ ids) : IsMissing ids edge edge.source
  | target (hsource : edge.source ∈ ids) (h : edge.target ∉ ids) : IsMissing ids edge edge.target

theorem missingEnd?_eq_some_iff {ids : List String} {edge : Edge} {id : String} :
    missingEnd? ids edge = some id ↔ IsMissing ids edge id := by
  constructor
  · intro h
    by_cases hsource : edge.source ∈ ids
    · by_cases htarget : edge.target ∈ ids
      · simp [missingEnd?, hsource, htarget] at h
      · obtain rfl : edge.target = id := by simpa [missingEnd?, hsource, htarget] using h
        exact .target hsource htarget
    · obtain rfl : edge.source = id := by simpa [missingEnd?, hsource] using h
      exact .source hsource
  · intro h
    cases h with
    | source h => simp [missingEnd?, h]
    | target hsource h => simp [missingEnd?, hsource, h]

/-- The flow that is made of a canvas, or the fault that is reported. -/
inductive HasOutcome (canvas : Canvas) : Except Fault Flow → Prop where
  /-- The ids before some node differ, and its own is one of them. -/
  | duplicate {before behind : List Node} {node : Node}
      (hnodes : canvas.nodes = before ++ node :: behind) (hbefore : (before.map Node.id).Nodup)
      (hagain : node.id ∈ before.map Node.id) :
      HasOutcome canvas (.error (.duplicateNodeId node.id))
  /-- The ids of all nodes differ, and some edge is the first with an end that is none of them. -/
  | missing {before behind : List Edge} {edge : Edge} {id : String}
      (hids : (canvas.nodes.map Node.id).Nodup) (hedges : canvas.edges = before ++ edge :: behind)
      (hbefore : ∀ other ∈ before, other.source ∈ canvas.nodes.map Node.id ∧
        other.target ∈ canvas.nodes.map Node.id)
      (hmissing : IsMissing (canvas.nodes.map Node.id) edge id) :
      HasOutcome canvas (.error (.edgeEndpointNotFound edge.source edge.target id))
  /-- The ids of all nodes differ, and all edges end at nodes. -/
  | flow {flow : Flow} (hids : (canvas.nodes.map Node.id).Nodup)
      (hends : ∀ edge ∈ canvas.edges, edge.source ∈ canvas.nodes.map Node.id ∧
        edge.target ∈ canvas.nodes.map Node.id)
      (hbecomes : canvas.Becomes flow) : HasOutcome canvas (.ok flow)

/-! ## What is found -/

theorem edgeFault?_eq_some_iff {ids : List String} {edge : Edge} {fault : Fault} :
    edgeFault? ids edge = some fault ↔
      ∃ id, IsMissing ids edge id ∧ .edgeEndpointNotFound edge.source edge.target id = fault := by
  simp only [edgeFault?, Option.map_eq_some_iff, missingEnd?_eq_some_iff]

/-- A fault that is found is an outcome. -/
theorem hasOutcome_of_fault? {canvas : Canvas} {fault : Fault} (h : canvas.fault? = some fault) :
    canvas.HasOutcome (.error fault) := by
  simp only [fault?] at h
  cases hrepeated : firstRepeated? [] (canvas.nodes.map Node.id) with
  | some id =>
      rw [hrepeated] at h
      cases h
      obtain ⟨ids, others, hids, hnodup, _, hagain⟩ := firstRepeated?_eq_some_iff.mp hrepeated
      obtain ⟨before, rest, hnodes, rfl, hrest⟩ := List.map_eq_append_iff.mp hids
      obtain ⟨node, behind, rfl, rfl, _⟩ := List.map_eq_cons_iff.mp hrest
      exact .duplicate hnodes hnodup (hagain.resolve_right List.not_mem_nil)
  | none =>
      rw [hrepeated] at h
      obtain ⟨before, edge, behind, hedges, hfault, hbefore⟩ := List.findSome?_eq_some_iff.mp h
      obtain ⟨id, hmissing, rfl⟩ := edgeFault?_eq_some_iff.mp hfault
      exact .missing (firstRepeated?_eq_none_iff.mp hrepeated).1 hedges
        (fun other hother => edgeFault?_eq_none_iff.mp (hbefore other hother)) hmissing

theorem hasOutcome_toFlow (canvas : Canvas) : canvas.HasOutcome canvas.toFlow := by
  cases hfault : canvas.fault? with
  | some fault =>
      rw [toFlow, hfault]
      exact hasOutcome_of_fault? hfault
  | none =>
      have hfaultless := fault?_eq_none_iff.mp hfault
      rw [toFlow_eq_ok_iff.mpr ⟨rfl, hfaultless⟩]
      exact .flow (canvas.asFlow_ids ▸ hfaultless.nodup) (canvas.asFlow_ids ▸ hfaultless.ends)
        (becomes_iff.mpr rfl)

/-- Nothing but its outcome is made of a canvas. -/
theorem HasOutcome.toFlow_eq {canvas : Canvas} {result : Except Fault Flow}
    (h : canvas.HasOutcome result) : canvas.toFlow = result := by
  cases h with
  | @duplicate before behind node hnodes hbefore hagain =>
      have hrepeated : firstRepeated? [] (canvas.nodes.map Node.id) = some node.id := by
        refine firstRepeated?_eq_some_iff.mpr
          ⟨before.map Node.id, behind.map Node.id, ?_, hbefore, fun _ _ => List.not_mem_nil,
            Or.inl hagain⟩
        rw [hnodes, List.map_append, List.map_cons]
      simp only [toFlow, fault?, hrepeated]
  | @missing before behind edge id hids hedges hbefore hmissing =>
      have hrepeated : firstRepeated? [] (canvas.nodes.map Node.id) = none :=
        firstRepeated?_eq_none_iff.mpr ⟨hids, fun _ _ => List.not_mem_nil⟩
      have hfault : canvas.edges.findSome? (edgeFault? (canvas.nodes.map Node.id)) =
          some (.edgeEndpointNotFound edge.source edge.target id) :=
        List.findSome?_eq_some_iff.mpr ⟨before, edge, behind, hedges,
          edgeFault?_eq_some_iff.mpr ⟨id, hmissing, rfl⟩,
          fun other hother => edgeFault?_eq_none_iff.mpr (hbefore other hother)⟩
      simp only [toFlow, fault?, hrepeated, hfault]
  | flow hids hends hbecomes =>
      obtain rfl := becomes_iff.mp hbecomes
      exact toFlow_eq_ok_iff.mpr ⟨rfl, canvas.asFlow_ids ▸ hids, canvas.asFlow_ids ▸ hends⟩

/-- A canvas has one outcome, the one that is found. -/
theorem toFlow_eq_iff {canvas : Canvas} {result : Except Fault Flow} :
    canvas.toFlow = result ↔ canvas.HasOutcome result :=
  ⟨fun h => h ▸ canvas.hasOutcome_toFlow, HasOutcome.toFlow_eq⟩

theorem exists_toFlow_eq_ok_iff {canvas : Canvas} :
    (∃ flow, canvas.toFlow = .ok flow) ↔
      (canvas.nodes.map Node.id).Nodup ∧ ∀ edge ∈ canvas.edges,
        edge.source ∈ canvas.nodes.map Node.id ∧ edge.target ∈ canvas.nodes.map Node.id := by
  constructor
  · rintro ⟨flow, hflow⟩
    cases toFlow_eq_iff.mp hflow with
    | flow hids hends _ => exact ⟨hids, hends⟩
  · rintro ⟨hids, hends⟩
    exact ⟨canvas.asFlow, toFlow_eq_iff.mpr (.flow hids hends (becomes_iff.mpr rfl))⟩

end Canvas

/-! ## The ends of edges -/

/-- The node that is found under an id, and no other node has the id. -/
def Flow.IsOnly (flow : Flow) (id : String) (node : Node) : Prop :=
  flow.node? id = some node ∧ flow.nodes.filter (fun other => other.id = id) = [node]

theorem Flow.IsFaultless.isOnly_of_mem {flow : Flow} (h : flow.IsFaultless) {node : Node}
    (hnode : node ∈ flow.nodes) : flow.IsOnly node.id node := by
  refine ⟨h.node?_of_mem hnode, ?_⟩
  obtain ⟨before, behind, hnodes⟩ := List.append_of_mem hnode
  have hnodup := h.nodup
  rw [hnodes, List.map_append, List.map_cons, List.nodup_middle, List.nodup_cons,
    ← List.map_append] at hnodup
  have hothers : ∀ other ∈ before ++ behind, other.id ≠ node.id := fun other hother heq =>
    hnodup.1 (heq ▸ List.mem_map_of_mem hother)
  have hbefore : before.filter (fun other => other.id = node.id) = [] :=
    List.filter_eq_nil_iff.mpr fun other hother => by
      simpa using hothers other (List.mem_append_left _ hother)
  have hbehind : behind.filter (fun other => other.id = node.id) = [] :=
    List.filter_eq_nil_iff.mpr fun other hother => by
      simpa using hothers other (List.mem_append_right _ hother)
  rw [hnodes, List.filter_append, List.filter_cons_of_pos (by simp), hbefore, hbehind,
    List.nil_append]

theorem Flow.IsFaultless.exists_isOnly {flow : Flow} (h : flow.IsFaultless) {edge : Edge}
    (hedge : edge ∈ flow.edges) {id : String} (hid : id = edge.source ∨ id = edge.target) :
    ∃ node, flow.IsOnly id node := by
  have hmem : id ∈ flow.nodes.map Node.id := by
    rcases hid with rfl | rfl
    · exact (h.ends edge hedge).1
    · exact (h.ends edge hedge).2
  obtain ⟨node, hnode, rfl⟩ := List.mem_map.mp hmem
  exact ⟨node, h.isOnly_of_mem hnode⟩

/-- **Canvases become flows, or their first fault is reported.**  What is made of a canvas is its
one outcome, and a flow is made of it just if no id stands twice and all edges end at nodes.  A flow
that is loaded is the outcome of the canvas in the text, and either end of each of its edges is the
id of one node. -/
theorem Canvas.toFlow_iff_hasOutcome_and_load :
    (∀ (canvas : Canvas) (result : Except Fault Flow),
      canvas.toFlow = result ↔ canvas.HasOutcome result) ∧
    (∀ canvas : Canvas, (∃ flow, canvas.toFlow = .ok flow) ↔
      (canvas.nodes.map Canvas.Node.id).Nodup ∧ ∀ edge ∈ canvas.edges,
        edge.source ∈ canvas.nodes.map Canvas.Node.id ∧
          edge.target ∈ canvas.nodes.map Canvas.Node.id) ∧
    ∀ (text : String) (flow : Flow), Flow.load text = .ok flow →
      (∃ canvas, Json.read Canvas.reader text = .ok canvas ∧ canvas.HasOutcome (.ok flow)) ∧
      ∀ edge ∈ flow.edges, ∀ id, id = edge.source ∨ id = edge.target →
        ∃ node, flow.IsOnly id node := by
  refine ⟨fun _ _ => toFlow_eq_iff, fun _ => exists_toFlow_eq_ok_iff, fun text flow hload => ?_⟩
  obtain ⟨canvas, hread, hflow⟩ := Flow.load_eq_ok_iff.mp hload
  exact ⟨⟨canvas, hread, toFlow_eq_iff.mp hflow⟩,
    fun edge hedge id hid => (Flow.isFaultless_load hload).exists_isOnly hedge hid⟩

/-- A canvas of nodes without data. -/
def Canvas.ofIds (ids : List String) (edges : List Edge) : Canvas :=
  { nodes := ids.map fun id => ⟨id, ⟨"", "", [], none⟩⟩, edges }

/-- A node with an exposed parameter and an edge to itself. -/
def loopText : String :=
  "\x7b\"nodes\":[\x7b\"id\":\"a\",\"data\":\x7b\"varZh\":null,\"group_params\":" ++
    "[\x7b\"params\":[\x7b\"key\":\"k\",\"global\":\"yes\"\x7d]\x7d]\x7d\x7d]," ++
    "\"edges\":[\x7b\"source\":\"a\",\"target\":\"a\"\x7d]\x7d"

def loopFlow : Flow :=
  let param : Param :=
    { key := "k", label? := none, kind := .other "", value := .null, exposed := true }
  { nodes := [⟨"a", "", "", [⟨none, [param]⟩], .empty⟩], edges := [⟨"a", "a", none, none⟩] }

set_option maxRecDepth 100000 in
theorem load_loopText : Flow.load loopText = .ok loopFlow := by
  cbv

/-- The first id that stands twice is reported before any edge, and a source before a target. -/
theorem Canvas.toFlow_iff_hasOutcome_and_load_loopText :
    (ofIds ["a", "b", "b", "a"] [⟨"x", "y", none, none⟩]).HasOutcome
      (.error (.duplicateNodeId "b")) ∧
    (ofIds ["a", "b"] [⟨"a", "b", none, none⟩, ⟨"x", "y", none, none⟩]).HasOutcome
      (.error (.edgeEndpointNotFound "x" "y" "x")) ∧
    Flow.load loopText = .ok loopFlow ∧
    (∃ canvas, Json.read Canvas.reader loopText = .ok canvas ∧ canvas.HasOutcome (.ok loopFlow)) ∧
    ∃ node, loopFlow.IsOnly "a" node := by
  obtain ⟨houtcome, _, hload⟩ := Canvas.toFlow_iff_hasOutcome_and_load
  obtain ⟨hcanvas, hends⟩ := hload loopText loopFlow load_loopText
  exact ⟨(houtcome _ _).mp rfl, (houtcome _ _).mp rfl, load_loopText, hcanvas,
    hends ⟨"a", "a", none, none⟩ List.mem_cons_self "a" (Or.inl rfl)⟩

end Workflow
