import Workflow.Proofs.Flow.Ancestry
import Workflow.Proofs.Flow.VisitingOrder

/-!
# The search for ancestors is breadth first

`Finds` is what holds between two rounds of the search, whatever the edges are: what has been found
stands in the order of its first links.  At the end all that has been found has been dealt with.  The
number of links on the way from an id to the start is then its distance, and so the ids stand in
the one visiting order (`Flow.isVisitingOrder_iff`).  Ids that no node has are passed on the way
and left out of the result.
-/

namespace Workflow
namespace Ancestry

/-! ## What a round of the search keeps -/

/-- What has been found when the ids `done` have been dealt with and those of the queue have not. -/
structure Finds (edges : List Edge) (start : String) (done queue : List String) : Prop where
  first : (done ++ queue)[0]? = some start
  nodup : (done ++ queue).Nodup
  /-- The edges that end at an id dealt with have been followed. -/
  closed : ∀ edge ∈ edges, edge.target ∈ done → edge.source ∈ done ++ queue
  /-- An id is found behind the id that it has an edge to. -/
  linked : ∀ place id, (done ++ queue)[place + 1]? = some id →
    ∃ i ≤ place, firstLink? edges done id = some i
  sorted : ((done ++ queue).drop 1).Pairwise (LinksBefore edges done)

section Round

variable {edges : List Edge} {start : String} {done queue : List String}

theorem any_joins_iff {id last : String} :
    edges.any (joins id last) = true ↔ id ∈ sourcesInto edges last := by
  simp only [joins, sourcesInto, List.any_eq_true, Bool.and_eq_true, decide_eq_true_eq,
    List.mem_map, List.mem_filter]
  constructor
  · rintro ⟨edge, hedge, hsource, htarget⟩
    exact ⟨edge, ⟨hedge, htarget⟩, hsource⟩
  · rintro ⟨edge, ⟨hedge, htarget⟩, hsource⟩
    exact ⟨edge, hedge, hsource, htarget⟩

/-- An id that has not been found has its first link to the id that is dealt with next. -/
theorem firstLink?_of_fresh (h : Finds edges start done queue) {last id : String}
    (hid : id ∈ sourcesInto edges last) (hnew : id ∉ done ++ queue) :
    firstLink? edges (done ++ [last]) id = some done.length := by
  have hnone : firstLink? edges done id = none := by
    refine List.findIdx?_eq_none_iff.mpr fun other hother => ?_
    refine Bool.eq_false_iff.mpr fun hjoins => hnew ?_
    obtain ⟨edge, hedge, hends⟩ := List.any_eq_true.mp hjoins
    simp only [joins, Bool.and_eq_true, decide_eq_true_eq] at hends
    exact hends.1 ▸ h.closed edge hedge (hends.2 ▸ hother)
  rw [firstLink?] at hnone ⊢
  rw [List.findIdx?_append, hnone, Option.none_or, List.findIdx?_singleton,
    if_pos (any_joins_iff.mpr hid)]
  simp

/-- The sources of the edges that end at an id are met in the order of their first edges. -/
theorem pairwise_fresh_sourcesInto (edges : List Edge) (last : String) (seen : List String) :
    (fresh seen (sourcesInto edges last)).Pairwise (EdgeBefore edges last) := by
  induction edges generalizing seen with
  | nil => exact List.Pairwise.nil
  | cons edge rest ih =>
      -- The first edge of an id that is not the source of `edge` stands one place further.
      have hshift : ∀ {id : String} {p : Nat}, joins id last edge = false →
          firstEdge? rest id last = some p → firstEdge? (edge :: rest) id last = some (p + 1) := by
        intro id p hedge hp
        rw [firstEdge?] at hp ⊢
        rw [List.findIdx?_cons, hedge, hp]
        rfl
      have hlift : ∀ {ids : List String}, (∀ id ∈ ids, joins id last edge = false) →
          ids.Pairwise (EdgeBefore rest last) → ids.Pairwise (EdgeBefore (edge :: rest) last) := by
        intro ids hids hpairs
        refine hpairs.imp_of_mem fun ha hb hab => ?_
        obtain ⟨p, q, hp, hq, hlt⟩ := hab
        exact ⟨p + 1, q + 1, hshift (hids _ ha) hp, hshift (hids _ hb) hq, Nat.succ_lt_succ hlt⟩
      by_cases htarget : edge.target = last
      · have hsources : sourcesInto (edge :: rest) last = edge.source :: sourcesInto rest last := by
          simp [sourcesInto, htarget]
        rw [hsources]
        unfold fresh
        split
        · rename_i hseen
          refine hlift (fun id hid => ?_) (ih seen)
          have hne : edge.source ≠ id := fun heq => (mem_fresh.mp hid).2 (heq ▸ hseen)
          simp [joins, hne]
        · have hne : ∀ id ∈ fresh (edge.source :: seen) (sourcesInto rest last),
              joins id last edge = false := by
            intro id hid
            have hne : edge.source ≠ id := fun heq =>
              (mem_fresh.mp hid).2 (heq ▸ List.mem_cons_self)
            simp [joins, hne]
          refine List.pairwise_cons.mpr ⟨fun id hid => ?_, hlift hne (ih _)⟩
          have hfirst : firstEdge? (edge :: rest) edge.source last = some 0 := by
            simp [firstEdge?, joins, htarget, List.findIdx?_cons]
          have hmem := (mem_fresh.mp hid).1
          obtain ⟨p, hp⟩ : ∃ p, firstEdge? rest id last = some p := by
            rw [← Option.isSome_iff_exists, firstEdge?, List.findIdx?_isSome]
            exact any_joins_iff.mpr hmem
          exact ⟨0, p + 1, hfirst, hshift (hne id hid) hp, Nat.succ_pos p⟩
      · have hsources : sourcesInto (edge :: rest) last = sourcesInto rest last := by
          simp [sourcesInto, htarget]
        rw [hsources]
        exact hlift (fun id _ => by simp [joins, htarget]) (ih seen)

/-- Dealing with the head of the queue keeps what has been found in order. -/
theorem Finds.round {last : String} (h : Finds edges start done (last :: queue)) :
    Finds edges start (done ++ [last])
      (queue ++ fresh (done ++ last :: queue) (sourcesInto edges last)) := by
  have hassoc : (done ++ [last]) ++
      (queue ++ fresh (done ++ last :: queue) (sourcesInto edges last)) =
      (done ++ last :: queue) ++ fresh (done ++ last :: queue) (sourcesInto edges last) := by
    simp
  have hpos : 0 < (done ++ last :: queue).length :=
    List.length_pos_of_mem (List.mem_append_right done List.mem_cons_self)
  constructor
  case first =>
    rw [hassoc, List.getElem?_append_left hpos, h.first]
  case nodup =>
    rw [hassoc]
    refine List.nodup_append.mpr ⟨h.nodup, nodup_fresh _ _, fun a ha b hb heq => ?_⟩
    exact (mem_fresh.mp hb).2 (heq ▸ ha)
  case closed =>
    intro edge hedge htarget
    rw [hassoc]
    rcases List.mem_append.mp htarget with hdone | hlast
    · exact List.mem_append_left _ (h.closed edge hedge hdone)
    · by_cases hseen : edge.source ∈ done ++ last :: queue
      · exact List.mem_append_left _ hseen
      · refine List.mem_append_right _ (mem_fresh.mpr ⟨?_, hseen⟩)
        have hends : edge.target = last := List.mem_singleton.mp hlast
        exact List.mem_map_of_mem (List.mem_filter.mpr ⟨hedge, decide_eq_true hends⟩)
  case linked =>
    intro place id hid
    rw [hassoc] at hid
    by_cases hplace : place + 1 < (done ++ last :: queue).length
    · rw [List.getElem?_append_left hplace] at hid
      obtain ⟨i, hi, hlink⟩ := h.linked place id hid
      exact ⟨i, hi, firstLink?_append_of_some hlink _⟩
    · rw [List.getElem?_append_right (Nat.le_of_not_lt hplace)] at hid
      have hnew := mem_fresh.mp (List.mem_of_getElem? hid)
      refine ⟨done.length, ?_, firstLink?_of_fresh h hnew.1 hnew.2⟩
      simp only [List.length_append, List.length_cons] at hplace
      omega
  case sorted =>
    rw [hassoc, List.drop_append_of_le_length hpos]
    refine List.pairwise_append.mpr ⟨h.sorted.imp fun hab => hab.append _, ?_, ?_⟩
    · refine (pairwise_fresh_sourcesInto edges last _).imp_of_mem fun ha hb hedge => ?_
      have ha := mem_fresh.mp ha
      have hb := mem_fresh.mp hb
      exact .earlierEdge (firstLink?_of_fresh h ha.1 ha.2) (firstLink?_of_fresh h hb.1 hb.2) (by simp)
        hedge
    · intro a ha b hb
      obtain ⟨place, ha⟩ := List.mem_iff_getElem?.mp ha
      rw [List.getElem?_drop, Nat.add_comm] at ha
      obtain ⟨i, _, hlink⟩ := h.linked place a ha
      have hb := mem_fresh.mp hb
      exact .earlierLink (firstLink?_append_of_some hlink _) (firstLink?_of_fresh h hb.1 hb.2)
        (lt_length_of_firstLink? hlink)

end Round

/-- The search ends when all that it has found has been dealt with. -/
theorem finds_search {edges : List Edge} {start : String} (done queue : List String)
    (h : Finds edges start done queue) :
    Finds edges start
      (search (edges.filter fun edge => edge.target ∉ done) queue (done ++ queue)) [] := by
  generalize hunused : (edges.filter fun edge => edge.target ∉ done) = unused
  generalize hseen : done ++ queue = seen
  fun_induction search unused queue seen generalizing done with
  | case1 unused seen =>
      rw [List.append_nil] at hseen
      exact hseen ▸ h
  | case2 unused seen last queue found ih =>
      subst hunused hseen
      have hlast : last ∉ done := fun hmem =>
        (List.nodup_append.mp h.nodup).2.2 last hmem last List.mem_cons_self rfl
      have hsources : sourcesInto (edges.filter fun edge => edge.target ∉ done) last =
          sourcesInto edges last := by
        rw [sourcesInto, sourcesInto, List.filter_filter]
        congr 1
        refine List.filter_congr fun edge _ => ?_
        by_cases hends : edge.target = last
        · simp [hends, hlast]
        · simp [hends]
      have hfound : found = fresh (done ++ last :: queue) (sourcesInto edges last) := by
        rw [← hsources]
      have hround := h.round
      rw [← hfound] at hround
      refine ih (done ++ [last]) hround ?_ (by simp)
      rw [elsewhere, List.filter_filter]
      refine List.filter_congr fun edge _ => ?_
      rw [Bool.eq_iff_iff]
      simp [and_comm]

/-! ## Places and distances -/

/-- How many first links lead from the id at a place to the start. -/
inductive Depth (edges : List Edge) (visited : List String) : (place depth : Nat) → Prop
  | start : Depth edges visited 0 0
  | linked {place link depth : Nat} {id : String} (hid : visited[place + 1]? = some id)
      (hlink : firstLink? edges visited id = some link) (h : Depth edges visited link depth) :
      Depth edges visited (place + 1) (depth + 1)

namespace Finds

variable {edges : List Edge} {start : String} {visited : List String}

theorem getElem?_inj (h : Finds edges start visited []) {i j : Nat} {id : String}
    (hi : visited[i]? = some id) (hj : visited[j]? = some id) : i = j := by
  have hnodup := h.nodup
  rw [List.append_nil] at hnodup
  obtain ⟨hlt, _⟩ := List.getElem?_eq_some_iff.mp hi
  exact (List.getElem?_inj hlt hnodup).mp (hi.trans hj.symm)

theorem exists_link (h : Finds edges start visited []) {place : Nat} {id : String}
    (hid : visited[place + 1]? = some id) :
    ∃ i ≤ place, firstLink? edges visited id = some i := by
  have hlinked := h.linked place id
  rw [List.append_nil] at hlinked
  exact hlinked hid

theorem exists_depth (h : Finds edges start visited []) {place : Nat}
    (hplace : place < visited.length) : ∃ depth, Depth edges visited place depth := by
  induction place using Nat.strongRecOn with
  | ind place ih =>
      cases place with
      | zero => exact ⟨0, .start⟩
      | succ place =>
          have hid := List.getElem?_eq_getElem hplace
          obtain ⟨i, hi, hlink⟩ := h.exists_link hid
          obtain ⟨depth, hdepth⟩ := ih i (Nat.lt_succ_of_le hi) (lt_length_of_firstLink? hlink)
          exact ⟨depth + 1, .linked hid hlink hdepth⟩

theorem linksBefore (h : Finds edges start visited []) {i j : Nat} {a b : String}
    (hij : i < j) (ha : visited[i + 1]? = some a) (hb : visited[j + 1]? = some b) :
    LinksBefore edges visited a b := by
  have hsorted := h.sorted
  rw [List.append_nil] at hsorted
  obtain ⟨hi, rfl⟩ := List.getElem?_eq_some_iff.mp ha
  obtain ⟨hj, rfl⟩ := List.getElem?_eq_some_iff.mp hb
  have hpair := List.pairwise_iff_getElem.mp hsorted i j (by simp; omega) (by simp; omega) hij
  simpa [List.getElem_drop, Nat.add_comm] using hpair

/-- What is found later is at least as deep. -/
theorem depth_le (h : Finds edges start visited []) {i j m n : Nat} (hij : i ≤ j)
    (hi : Depth edges visited i m) (hj : Depth edges visited j n) : m ≤ n := by
  induction j using Nat.strongRecOn generalizing i m n with
  | ind j ih =>
      cases hi with
      | start => exact Nat.zero_le n
      | @linked i linkA m a ha hlinkA hA =>
          cases hj with
          | start => omega
          | @linked j linkB n b hb hlinkB hB =>
              have hle : linkA ≤ linkB := by
                rcases Nat.lt_or_ge i j with hlt | hge
                · cases h.linksBefore hlt ha hb with
                  | earlierLink hA' hB' hlt' =>
                      cases hlinkA.symm.trans hA'
                      cases hlinkB.symm.trans hB'
                      exact Nat.le_of_lt hlt'
                  | earlierEdge hA' hB' _ _ =>
                      cases hlinkA.symm.trans hA'
                      cases hlinkB.symm.trans hB'
                      exact Nat.le_refl _
                · have hsame : i = j := by omega
                  subst hsame
                  cases ha.symm.trans hb
                  cases hlinkA.symm.trans hlinkB
                  exact Nat.le_refl _
              obtain ⟨k, hk, hlink⟩ := h.exists_link hb
              cases hlinkB.symm.trans hlink
              exact Nat.succ_le_succ (ih linkB (Nat.lt_succ_of_le hk) hle hA hB)

theorem walk_of_depth (h : Finds edges start visited []) {place depth : Nat}
    (hdepth : Depth edges visited place depth) {id : String} (hid : visited[place]? = some id) :
    Walk edges start depth id := by
  induction hdepth generalizing id with
  | start =>
      have hfirst := h.first
      rw [List.append_nil, hid] at hfirst
      cases hfirst
      exact .stay
  | linked hother hlink hrest ih =>
      cases hid.symm.trans hother
      obtain ⟨edge, hedge, rfl, htarget⟩ := exists_edge_of_firstLink? hlink
      exact .step hedge (ih htarget)

/-- All from which edges lead to the start has been visited. -/
theorem mem_of_walk (h : Finds edges start visited []) {id : String} {steps : Nat}
    (hwalk : Walk edges start steps id) : id ∈ visited := by
  induction hwalk with
  | stay =>
      have hfirst := h.first
      rw [List.append_nil] at hfirst
      exact List.mem_of_getElem? hfirst
  | step hedge _ ih =>
      have hsource := h.closed _ hedge ih
      rwa [List.append_nil] at hsource

/-- No walk has fewer steps than there are first links on the way. -/
theorem depth_le_of_walk (h : Finds edges start visited []) {id : String} {steps : Nat}
    (hwalk : Walk edges start steps id) {place depth : Nat} (hid : visited[place]? = some id)
    (hdepth : Depth edges visited place depth) : depth ≤ steps := by
  induction hwalk generalizing place depth with
  | stay =>
      have hfirst := h.first
      rw [List.append_nil] at hfirst
      cases h.getElem?_inj hid hfirst
      cases hdepth
      exact Nat.le_refl 0
  | step hedge hrest ih =>
      cases hdepth with
      | start => exact Nat.zero_le _
      | linked hother hlink hlinked =>
          cases hid.symm.trans hother
          obtain ⟨j, htarget⟩ := List.mem_iff_getElem?.mp (h.mem_of_walk hrest)
          obtain ⟨hlt, _⟩ := List.getElem?_eq_some_iff.mp htarget
          obtain ⟨other, hother⟩ := h.exists_depth hlt
          have hle := h.depth_le (firstLink?_le hedge hlink htarget) hlinked hother
          exact Nat.succ_le_succ (Nat.le_trans hle (ih htarget hother))

theorem isDistance_of_depth (h : Finds edges start visited []) {place depth : Nat}
    (hdepth : Depth edges visited place depth) {id : String} (hid : visited[place]? = some id) :
    IsDistance edges start id depth :=
  ⟨h.walk_of_depth hdepth hid, fun _ hwalk => h.depth_le_of_walk hwalk hid hdepth⟩

/-- Behind the start, the ids have been visited in order. -/
theorem isVisitingOrder {found : List String} (h : Finds edges start (start :: found) []) :
    IsVisitingOrder edges start found := by
  have hnodup := h.nodup
  rw [List.append_nil, List.nodup_cons] at hnodup
  refine ⟨hnodup.2, fun id => ⟨fun hid => ?_, ?_⟩, ?_⟩
  · refine ⟨fun heq => hnodup.1 (heq ▸ hid), ?_⟩
    obtain ⟨place, hplace⟩ := List.mem_iff_getElem?.mp hid
    obtain ⟨hlt, _⟩ := List.getElem?_eq_some_iff.mp hplace
    obtain ⟨depth, hdepth⟩ := h.exists_depth (Nat.succ_lt_succ hlt)
    cases hdepth with
    | @linked _ _ depth _ hother hlink hrest =>
        exact ⟨depth, h.walk_of_depth (.linked hother hlink hrest) hplace⟩
  · rintro ⟨hne, steps, hwalk⟩
    exact (List.mem_cons.mp (h.mem_of_walk hwalk)).resolve_left hne
  · refine List.pairwise_iff_getElem.mpr fun i j hi hj hij => ?_
    have ha : (start :: found)[i + 1]? = some found[i] := by simp
    have hb : (start :: found)[j + 1]? = some found[j] := by simp
    obtain ⟨m, hm⟩ := h.exists_depth (Nat.succ_lt_succ hi)
    obtain ⟨n, hn⟩ := h.exists_depth (Nat.succ_lt_succ hj)
    have hle := h.depth_le (Nat.succ_le_succ (Nat.le_of_lt hij)) hm hn
    rcases Nat.lt_or_eq_of_le hle with hlt | rfl
    · exact .nearer (h.isDistance_of_depth hm ha) (h.isDistance_of_depth hn hb) hlt
    · exact .asNear (h.isDistance_of_depth hm ha) (h.isDistance_of_depth hn hb)
        (h.linksBefore hij ha hb)

end Finds

end Ancestry

open Ancestry

/-- The ancestors of an id are found in the one order of a breadth-first search. -/
theorem Flow.isVisitingOrder_iff (flow : Flow) (id : String) (found : List String) :
    IsVisitingOrder flow.edges id found ↔ found = flow.ancestorIds id := by
  have hstart : Finds flow.edges id [] [id] :=
    { first := rfl
      nodup := by simp
      closed := fun _ _ hmem => absurd hmem List.not_mem_nil
      linked := fun place other h => by simp at h
      sorted := List.Pairwise.nil }
  have hall : (flow.edges.filter fun edge => edge.target ∉ ([] : List String)) = flow.edges :=
    List.filter_eq_self.mpr fun edge _ => by simp
  have hfinds := finds_search [] [id] hstart
  rw [hall, List.nil_append] at hfinds
  obtain ⟨rest, hrest⟩ := prefix_search flow.edges [id] [id]
  have hfound : flow.ancestorIds id = rest := by
    rw [ancestorIds, ← hrest]
    rfl
  rw [← hrest] at hfinds
  have horder : IsVisitingOrder flow.edges id rest := hfinds.isVisitingOrder
  rw [hfound]
  constructor
  · exact fun h => h.unique horder
  · rintro rfl
    exact horder

/-- **Ancestors.**  The search visits, in the one order of a breadth-first search, the ids from
which edges lead to an id.  It returns for each of them the first node that has it, once, in this
order, and passes over the ids that no node has. -/
theorem Flow.ancestors_breadthFirst (flow : Flow) (id : String) :
    (∀ found, IsVisitingOrder flow.edges id found ↔ found = flow.ancestorIds id) ∧
    (∀ node, node ∈ flow.ancestors id ↔
      nodeWithId? flow.nodes node.id = some node ∧ node.id ≠ id ∧
        LeadsTo flow.edges id node.id) ∧
    ((flow.ancestors id).map Node.id).Nodup ∧
    (flow.ancestors id).Pairwise fun a b =>
      ComesBefore flow.edges id (id :: flow.ancestorIds id) a.id b.id := by
  have horder := (flow.isVisitingOrder_iff id _).mpr rfl
  have hnode : ∀ {other : String} {node : Node}, flow.node? other = some node →
      node.id = other := by
    intro other node h
    rw [Flow.node?, nodeWithId?] at h
    simpa using List.find?_some h
  refine ⟨flow.isVisitingOrder_iff id, fun node => ?_, ?_, ?_⟩
  · rw [ancestors, List.mem_filterMap]
    constructor
    · rintro ⟨other, hother, hfound⟩
      cases hnode hfound
      exact ⟨hfound, (horder.mem_iff node.id).mp hother⟩
    · rintro ⟨hfound, hleads⟩
      exact ⟨node.id, (horder.mem_iff node.id).mpr hleads, hfound⟩
  · refine List.pairwise_map.mpr (List.Pairwise.filterMap flow.node? ?_ horder.nodup)
    intro a b hab node ha other hb heq
    exact hab ((hnode ha).symm.trans (heq.trans (hnode hb)))
  · refine List.Pairwise.filterMap flow.node? ?_ horder.sorted
    intro a b hab node ha other hb
    cases hnode ha
    cases hnode hb
    exact hab

end Workflow
