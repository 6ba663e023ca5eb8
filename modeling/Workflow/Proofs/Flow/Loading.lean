import Workflow.Flow.Load
import Workflow.Proofs.Json.Ordered

/-!
# Flows as they are loaded

The values of the parameters of a loaded flow are read from its text, so the objects inside them
have their members in ascending order (`Flow.isOrdered_load`).
-/

namespace Workflow

open Json

/-- The members of the objects inside the values of a flow stand in ascending order. -/
def Flow.IsOrdered (flow : Flow) : Prop :=
  ∀ node ∈ flow.nodes, ∀ param ∈ node.params, param.value.IsOrdered

namespace Canvas

/-- The values of some groups are in order. -/
def AreOrdered (groups : List ParamGroup) : Prop :=
  ∀ group ∈ groups, ∀ param ∈ group.params, param.value.IsOrdered

theorem Param.gives_reader : Param.reader.Gives fun param => param.value.IsOrdered := by
  refine Reader.gives_record (fun member hmember => ?_) .null
  simp only [List.mem_cons, List.not_mem_nil, or_false] at hmember
  rcases hmember with rfl | rfl | rfl | rfl | rfl
  · refine Member.keeps_needed (Reader.gives_true _) ?_ _
    exact fun _ _ _ h => h
  · refine Member.keeps_defaulted (Reader.gives_true _) ?_ _
    exact fun _ _ _ h => h
  · refine Member.keeps_defaulted (Reader.gives_true _) ?_ _
    exact fun _ _ _ h => h
  · refine Member.keeps_defaulted gives_value ?_ _
    exact fun _ _ h _ => h
  · refine Member.keeps_defaulted (Reader.gives_true _) ?_ _
    exact fun _ _ _ h => h

theorem ParamGroup.gives_reader :
    ParamGroup.reader.Gives fun group => ∀ param ∈ group.params, param.value.IsOrdered := by
  refine Reader.gives_record (fun member hmember => ?_) fun _ h => absurd h List.not_mem_nil
  simp only [List.mem_cons, List.not_mem_nil, or_false] at hmember
  rcases hmember with rfl | rfl
  · refine Member.keeps_defaulted (Reader.gives_true _) ?_ _
    exact fun _ _ _ h => h
  · refine Member.keeps_defaulted (Reader.gives_list Param.gives_reader) ?_ _
    exact fun _ _ h _ => h

theorem NodeData.gives_reader : NodeData.reader.Gives fun data => AreOrdered data.groups := by
  refine Reader.gives_record (fun member hmember => ?_) fun _ h => absurd h List.not_mem_nil
  simp only [List.mem_cons, List.not_mem_nil, or_false] at hmember
  rcases hmember with rfl | rfl | rfl | rfl
  · refine Member.keeps_defaulted (Reader.gives_true _) ?_ _
    exact fun _ _ _ h => h
  · refine Member.keeps_defaulted (Reader.gives_true _) ?_ _
    exact fun _ _ _ h => h
  · refine Member.keeps_defaulted (Reader.gives_list ParamGroup.gives_reader) ?_ _
    exact fun _ _ h _ => h
  · refine Member.keeps_orSpelled (Member.keeps_defaulted (Reader.gives_true _) ?_ _) _
    exact fun _ _ _ h => h

theorem Node.gives_reader : Node.reader.Gives fun node => AreOrdered node.data.groups := by
  refine Reader.gives_record (fun member hmember => ?_) fun _ h => absurd h List.not_mem_nil
  simp only [List.mem_cons, List.not_mem_nil, or_false] at hmember
  rcases hmember with rfl | rfl
  · refine Member.keeps_needed (Reader.gives_true _) ?_ _
    exact fun _ _ _ h => h
  · refine Member.keeps_needed NodeData.gives_reader ?_ _
    exact fun _ _ h _ => h

theorem gives_reader :
    Canvas.reader.Gives fun canvas => ∀ node ∈ canvas.nodes, AreOrdered node.data.groups := by
  refine Reader.gives_record (fun member hmember => ?_) fun _ h => absurd h List.not_mem_nil
  simp only [List.mem_cons, List.not_mem_nil, or_false] at hmember
  rcases hmember with rfl | rfl
  · refine Member.keeps_needed (Reader.gives_list Node.gives_reader) ?_ _
    exact fun _ _ h _ => h
  · refine Member.keeps_defaulted (Reader.gives_true _) ?_ _
    exact fun _ _ _ h => h

/-- A flow has the values of the canvas that it is made of. -/
theorem isOrdered_toFlow {canvas : Canvas} {flow : Flow} (hflow : canvas.toFlow = .ok flow)
    (h : ∀ node ∈ canvas.nodes, AreOrdered node.data.groups) : flow.IsOrdered := by
  unfold toFlow at hflow
  split at hflow
  · cases hflow
  · cases hflow
    intro node hnode param hparam
    obtain ⟨saved, hsaved, rfl⟩ := List.mem_map.mp hnode
    obtain ⟨group, hgroup, hparam⟩ := List.mem_flatMap.mp hparam
    obtain ⟨savedGroup, hsavedGroup, rfl⟩ := List.mem_map.mp hgroup
    obtain ⟨savedParam, hsavedParam, rfl⟩ := List.mem_map.mp hparam
    exact h saved hsaved savedGroup hsavedGroup savedParam hsavedParam

end Canvas

/-- Every flow that is loaded is in order. -/
theorem Flow.isOrdered_load {text : String} {flow : Flow} (h : Flow.load text = .ok flow) :
    flow.IsOrdered := by
  unfold Flow.load at h
  split at h
  · cases h
  · rename_i canvas hcanvas
    split at h
    · cases h
    · rename_i found hfound
      cases h
      exact Canvas.isOrdered_toFlow hfound (of_read Canvas.gives_reader hcanvas)

end Workflow
