import Workflow.Flow.Ancestors

/-!
# What the search for ancestors finds

The search puts the ids that it finds behind those that it has seen before, and it finds none twice.
So no id is an ancestor of its own, whatever edges lead back to it (`notMem_ancestorIds`).
-/

namespace Workflow
namespace Ancestry

/-- What has been seen stays in front. -/
theorem prefix_search (unused : List Edge) (queue seen : List String) :
    seen <+: search unused queue seen := by
  fun_induction search unused queue seen with
  | case1 unused seen => exact List.prefix_refl seen
  | case2 unused seen id queue found ih => exact (List.prefix_append seen found).trans ih

/-- No id is seen twice. -/
theorem nodup_search (unused : List Edge) (queue : List String) {seen : List String}
    (h : seen.Nodup) : (search unused queue seen).Nodup := by
  fun_induction search unused queue seen with
  | case1 unused seen => exact h
  | case2 unused seen id queue found ih =>
      refine ih (List.nodup_append.mpr ⟨h, nodup_fresh seen _, fun a ha b hb heq => ?_⟩)
      exact (mem_fresh.mp hb).2 (heq ▸ ha)

end Ancestry

/-- No id is an ancestor of its own. -/
theorem Flow.notMem_ancestorIds (flow : Flow) (id : String) : id ∉ flow.ancestorIds id := by
  obtain ⟨found, hfound⟩ := Ancestry.prefix_search flow.edges [id] [id]
  have hone : [id].Nodup := by simp
  have hnodup := Ancestry.nodup_search flow.edges [id] hone
  rw [← hfound] at hnodup
  rw [Flow.ancestorIds, ← hfound]
  exact (List.nodup_cons.mp hnodup).1

end Workflow
