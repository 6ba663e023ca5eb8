import Mathlib
import Workflow.Flow.Load
import Workflow.Proofs.Flow.NewNames

/-!
# What appended nodes are displayed as

A node that is appended is displayed as the name that is found for it, which no other node has.  But
nodes without a name are displayed as their ids, and these are not looked at when a name is found.
So an appended node is displayed as another one just if the other has been there before, without a
name, and its id is the name (`Flow.displayName_eq_iff_of_appended`).
-/

namespace Workflow

theorem Naming.numbered_ne_empty (base : String) (number : Nat) : numbered base number ≠ "" := by
  intro h
  have hlist := congrArg String.toList h
  rw [numbered, String.toList_append, Nat.toList_repr] at hlist
  exact Nat.toDigits_ne_nil (List.append_eq_nil_iff.mp hlist).2

theorem Naming.autoName_ne_empty (taken : List String) {proposed : String} (h : proposed ≠ "") :
    autoName taken proposed ≠ "" := by
  by_cases htaken : proposed ∈ taken
  · obtain ⟨number, _, hname, _⟩ := autoName_of_mem htaken
    rw [hname]
    exact numbered_ne_empty _ number
  · rw [autoName_of_notMem htaken]
    exact h

theorem Node.displayName_of_ne_empty {node : Node} (h : node.name ≠ "") :
    node.displayName = node.name := by
  simp [displayName, h]

/-- A node is displayed as a name that it does not have if it has none and the name is its id. -/
theorem Node.displayName_eq_iff {node : Node} {name : String} (h : node.name ≠ name) :
    node.displayName = name ↔ node.name = "" ∧ node.id = name := by
  by_cases hname : node.name = ""
  · simp [displayName, hname]
  · simp [displayName, hname, h]

namespace Flow

variable {flow : Flow} {drafts : List Node}

theorem displayName_eq_iff_of_notMem {name : String} (hname : name ∉ flow.names) {node : Node}
    (hnode : node ∈ flow.nodes) : node.displayName = name ↔ node.name = "" ∧ node.id = name :=
  Node.displayName_eq_iff fun heq => hname (heq ▸ List.mem_map_of_mem hnode)

/-- If no draft has an empty name, then no name is empty but those that the flow had. -/
theorem mem_or_ne_empty_of_mem_names (h : ∀ draft ∈ drafts, draft.name ≠ "") {name : String}
    (hname : name ∈ (drafts.foldl appendNamed flow).names) : name ∈ flow.names ∨ name ≠ "" := by
  induction drafts generalizing flow with
  | nil => exact Or.inl hname
  | cons draft rest ih =>
      have hrest := ih (fun other hother => h other (List.mem_cons_of_mem draft hother)) hname
      simp only [names_appendNamed, List.mem_append, List.mem_singleton] at hrest
      rcases hrest with (hold | rfl) | hne
      · exact Or.inl hold
      · exact Or.inr (Naming.autoName_ne_empty _ (h draft List.mem_cons_self))
      · exact Or.inr hne

/-- Behind the nodes of the flow stand those that were appended, under names that differ from each
other, are new and not empty. -/
theorem exists_names_of_appended (flow : Flow) (h : ∀ draft ∈ drafts, draft.name ≠ "") :
    ∃ names : List String, names.Nodup ∧
      ∀ i node, (drafts.foldl appendNamed flow).nodes[flow.nodes.length + i]? = some node →
        names[i]? = some node.name ∧ node.name ∉ flow.names ∧ node.name ≠ "" := by
  obtain ⟨names, _, hnodes, hnodup, hnew⟩ := flow.exists_names_foldl_appendNamed drafts
  refine ⟨names, hnodup, fun i node hnode => ?_⟩
  have hmem := mem_or_ne_empty_of_mem_names h (List.mem_map_of_mem (List.mem_of_getElem? hnode))
  rw [hnodes, List.getElem?_append_right (Nat.le_add_right _ _), Nat.add_sub_cancel_left,
    List.getElem?_zipWith_eq_some] at hnode
  obtain ⟨draft, name, _, hname, rfl⟩ := hnode
  have hnot := hnew name (List.mem_of_getElem? hname)
  exact ⟨hname, hnot, hmem.resolve_left hnot⟩

theorem getElem?_nodes_foldl_appendNamed {i : Nat} (hi : i < flow.nodes.length) :
    (drafts.foldl appendNamed flow).nodes[i]? = flow.nodes[i]? := by
  obtain ⟨names, _, hnodes, _⟩ := flow.exists_names_foldl_appendNamed drafts
  rw [hnodes, List.getElem?_append_left hi]

/-- An appended node is displayed as another one is just if the other is of the flow, has no name,
and its id is the name of the appended one. -/
theorem displayName_eq_iff_of_appended (h : ∀ draft ∈ drafts, draft.name ≠ "") {i j : Nat}
    {appended other : Node} (hi : flow.nodes.length ≤ i) (hij : i ≠ j)
    (happended : (drafts.foldl appendNamed flow).nodes[i]? = some appended)
    (hother : (drafts.foldl appendNamed flow).nodes[j]? = some other) :
    other.displayName = appended.displayName ↔
      j < flow.nodes.length ∧ other.name = "" ∧ other.id = appended.name := by
  obtain ⟨names, hnodup, hnames⟩ := exists_names_of_appended flow h
  obtain ⟨k, rfl⟩ := Nat.exists_eq_add_of_le hi
  obtain ⟨hname, hnew, hne⟩ := hnames k appended happended
  rw [Node.displayName_of_ne_empty hne]
  rcases Nat.lt_or_ge j flow.nodes.length with hj | hj
  · rw [getElem?_nodes_foldl_appendNamed hj] at hother
    rw [displayName_eq_iff_of_notMem hnew (List.mem_of_getElem? hother)]
    exact (and_iff_right hj).symm
  · obtain ⟨l, rfl⟩ := Nat.exists_eq_add_of_le hj
    obtain ⟨hname', _, hne'⟩ := hnames l other hother
    rw [Node.displayName_of_ne_empty hne']
    constructor
    · intro heq
      have hlt : k < names.length := (List.getElem?_eq_some_iff.mp hname).1
      have hkl : k = l := (List.getElem?_inj hlt hnodup).mp (by rw [hname, hname', heq])
      exact absurd (congrArg (flow.nodes.length + ·) hkl) hij
    · exact fun hold => absurd hold.1 (Nat.not_lt.mpr hj)

/-- **What appended nodes are displayed as.**  A node is displayed as the name that is found for a new
one just if it has no name, and its id is the name that is found.  Along a run that appends nodes
under the names found for theirs, which are not empty, an appended node is displayed as another one
just if the other is of the flow from before, has no name, and its id is the appended node's name. -/
theorem displayName_eq_iff_unnamed (flow : Flow) :
    (∀ proposed, ∀ node ∈ flow.nodes, node.displayName = flow.uniqueName proposed ↔
      node.name = "" ∧ node.id = flow.uniqueName proposed) ∧
    ∀ drafts : List Node, (∀ draft ∈ drafts, draft.name ≠ "") →
      ∀ (i j : Nat) (appended other : Node), flow.nodes.length ≤ i → i ≠ j →
        (drafts.foldl appendNamed flow).nodes[i]? = some appended →
        (drafts.foldl appendNamed flow).nodes[j]? = some other →
        (other.displayName = appended.displayName ↔
          j < flow.nodes.length ∧ other.name = "" ∧ other.id = appended.name) := by
  refine ⟨fun proposed node hnode => ?_, fun drafts h i j appended other => ?_⟩
  · exact displayName_eq_iff_of_notMem (flow.uniqueName_notMem proposed) hnode
  · exact displayName_eq_iff_of_appended h

/-- A node with nothing but an id and a name. -/
def bareNode (id name : String) : Node :=
  { id, name, kind := "", groups := [], labels := .empty }

/-- Of two appended nodes the first is displayed as the node without a name is. -/
theorem displayName_eq_iff_unnamed_second_appended :
    let flow : Flow := { nodes := [bareNode "Code" "", bareNode "x" "LLM"], edges := [] }
    let drafts := [bareNode "y" "Code", bareNode "z" "Code"]
    let run := (drafts.foldl appendNamed flow).nodes
    (∀ draft ∈ drafts, draft.name ≠ "") ∧
      run[0]? = some (bareNode "Code" "") ∧ run[2]? = some (bareNode "y" "Code") ∧
      run[3]? = some (bareNode "z" "Code2") ∧
      (bareNode "Code" "").displayName = (bareNode "y" "Code").displayName ∧
      (bareNode "y" "Code").displayName ≠ (bareNode "z" "Code2").displayName := by
  intro flow drafts run
  have hdrafts : ∀ draft ∈ drafts, draft.name ≠ "" := by simp [drafts, bareNode]
  have hrun : run = flow.nodes ++ [bareNode "y" "Code", bareNode "z" "Code2"] := by
    simp only [run, flow, drafts]
    cbv
  have hfirst : run[0]? = some (bareNode "Code" "") := hrun ▸ rfl
  have hadded : run[2]? = some (bareNode "y" "Code") := hrun ▸ rfl
  have hlast : run[3]? = some (bareNode "z" "Code2") := hrun ▸ rfl
  refine ⟨hdrafts, hfirst, hadded, hlast, ?_, ?_⟩
  · exact ((displayName_eq_iff_unnamed flow).2 drafts hdrafts 2 0 _ _ (by decide) (by decide) hadded
      hfirst).mpr ⟨by decide, rfl, rfl⟩
  · intro heq
    have hold := ((displayName_eq_iff_unnamed flow).2 drafts hdrafts 3 2 _ _ (by decide) (by decide)
      hlast hadded).mp heq
    exact absurd hold.1 (by decide)

/-- The id of a node without a name is found as the name for a new one. -/
theorem uniqueName_eq_displayName_unnamed :
    let saved := "\x7b\"nodes\":[\x7b\"id\":\"Code\",\"data\":\x7b\x7d\x7d]\x7d"
    let flow : Flow := { nodes := [bareNode "Code" ""], edges := [] }
    Flow.load saved = .ok flow ∧ ∃ node ∈ flow.nodes,
      flow.uniqueName "Code" = node.displayName := by
  intro saved flow
  refine ⟨?_, bareNode "Code" "", List.mem_cons_self, ?_⟩
  · simp only [saved, flow]
    cbv
  · simp only [flow]
    cbv

end Flow
end Workflow
