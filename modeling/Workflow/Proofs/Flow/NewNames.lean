import Mathlib
import Workflow.Flow.Edit
import Workflow.Proofs.Naming.LeastFree

/-!
# Names of nodes that are appended

A node that is appended under the name that is found for it has a name that no node had before
(`Flow.nodes_appendNamed`, `Flow.uniqueName_notMem`).  That name is taken from then on, so nodes that
are appended one after the other are also told from each other by their names
(`Flow.exists_names_foldl_appendNamed`).
-/

namespace Workflow
namespace Flow

def names (flow : Flow) : List String :=
  flow.nodes.map Node.name

/-- Puts a node behind the others, under the name that is found for its own. -/
def appendNamed (flow : Flow) (draft : Node) : Flow :=
  flow.append { nodes := [{ draft with name := flow.uniqueName draft.name }], edges := [] }

@[simp] theorem nodes_appendNamed (flow : Flow) (draft : Node) :
    (flow.appendNamed draft).nodes =
      flow.nodes ++ [{ draft with name := flow.uniqueName draft.name }] :=
  rfl

@[simp] theorem names_appendNamed (flow : Flow) (draft : Node) :
    (flow.appendNamed draft).names = flow.names ++ [flow.uniqueName draft.name] :=
  List.map_append

theorem uniqueName_notMem (flow : Flow) (proposed : String) :
    flow.uniqueName proposed ∉ flow.names :=
  Naming.autoName_notMem flow.names proposed

/-- Nodes that are appended one after the other have names that are new, each in its own way. -/
theorem exists_names_foldl_appendNamed (flow : Flow) (drafts : List Node) :
    ∃ names, names.length = drafts.length ∧
      (drafts.foldl appendNamed flow).nodes =
        flow.nodes ++ List.zipWith (fun draft name => { draft with name }) drafts names ∧
      names.Nodup ∧ ∀ name ∈ names, name ∉ flow.names := by
  induction drafts generalizing flow with
  | nil => exact ⟨[], rfl, (List.append_nil flow.nodes).symm, List.nodup_nil, nofun⟩
  | cons draft rest ih =>
      obtain ⟨names, hlength, hnodes, hnodup, hnew⟩ := ih (flow.appendNamed draft)
      -- A name is new after the first node has been appended, so it is not the first node's.
      have hnew : ∀ name ∈ names, name ∉ flow.names ∧ name ≠ flow.uniqueName draft.name := by
        intro name hname
        simpa using hnew name hname
      refine ⟨flow.uniqueName draft.name :: names, ?_, ?_, ?_, ?_⟩
      · simp [hlength]
      · simp [hnodes]
      · exact List.nodup_cons.mpr ⟨fun hmem => (hnew _ hmem).2 rfl, hnodup⟩
      · intro name hname
        rcases List.mem_cons.mp hname with rfl | hname
        · exact flow.uniqueName_notMem draft.name
        · exact (hnew name hname).1

/-- The name that is found is the least free one, which the search comes to within a turn for each
taken name and one more.  Nodes that are appended under such names therefore have names that differ
from each other and from all names before. -/
theorem uniqueName_isLeast_and_distinct :
    (∀ taken proposed, taken.toFinset.card < Naming.counterBound - 2 →
      ∃ base, Naming.IsStem proposed base ∧
        Naming.IsChosen taken proposed base (Naming.autoName taken proposed)) ∧
      ∀ (flow : Flow) (drafts : List Node), ∃ names, names.length = drafts.length ∧
        (drafts.foldl appendNamed flow).nodes =
          flow.nodes ++ List.zipWith (fun draft name => { draft with name }) drafts names ∧
        names.Nodup ∧ ∀ name ∈ names, name ∉ flow.nodes.map Node.name := by
  refine ⟨fun taken proposed hcard => ?_, exists_names_foldl_appendNamed⟩
  exact ⟨Naming.stem proposed, Naming.isStem_stem proposed, Naming.isChosen_autoName hcard⟩

/-- Digits that the proposed name ends in can come back: here its own name is the second candidate. -/
theorem uniqueName_isLeast_and_distinct_ends_in_digits :
    ["Code3", "Code2", "Code3"].toFinset.card < Naming.counterBound - 2 ∧
      ∃ base, Naming.IsStem "Code3" base ∧
        Naming.IsChosen ["Code3", "Code2", "Code3"] "Code3" base "Code4" := by
  have hcard : ["Code3", "Code2", "Code3"].toFinset.card < Naming.counterBound - 2 := by decide
  have hname : Naming.autoName ["Code3", "Code2", "Code3"] "Code3" = "Code4" := by cbv
  refine ⟨hcard, ?_⟩
  rw [← hname]
  exact uniqueName_isLeast_and_distinct.1 _ _ hcard

end Flow
end Workflow
