import Workflow.Flow.Ancestors

/-!
# Visiting orders

A breadth-first search from an id visits the ids from which edges lead to it.  `ComesBefore` says
which of two such ids goes first: the one that is nearer to the start, or, of two that are as near,
the one with an edge to an earlier visited id, or else the one whose edge to that id stands first.

The order of the ids behind a place depends on those in front of it alone, so two visiting orders
for the same edges are equal (`IsVisitingOrder.unique`).
-/

namespace Workflow
namespace Ancestry

/-- The edges lead from an id to `last` in a number of steps. -/
inductive Walk (edges : List Edge) (last : String) : (steps : Nat) → String → Prop
  | stay : Walk edges last 0 last
  | step {edge : Edge} {steps : Nat} (hedge : edge ∈ edges)
      (hrest : Walk edges last steps edge.target) : Walk edges last (steps + 1) edge.source

/-- The edges lead from an id to `last`, and there is at least one of them on the way. -/
def LeadsTo (edges : List Edge) (last id : String) : Prop :=
  ∃ steps, Walk edges last (steps + 1) id

/-- No walk from an id to `last` has fewer steps. -/
structure IsDistance (edges : List Edge) (last id : String) (steps : Nat) : Prop where
  walk : Walk edges last steps id
  least : ∀ other, Walk edges last other id → steps ≤ other

theorem IsDistance.unique {edges : List Edge} {last id : String} {m n : Nat}
    (hm : IsDistance edges last id m) (hn : IsDistance edges last id n) : m = n :=
  Nat.le_antisymm (hm.least n hn.walk) (hn.least m hm.walk)

def joins (id last : String) (edge : Edge) : Bool :=
  edge.source = id && edge.target = last

/-- The place of the first edge from an id to another. -/
def firstEdge? (edges : List Edge) (id last : String) : Option Nat :=
  edges.findIdx? (joins id last)

/-- The place of the first visited id to which an id has an edge. -/
def firstLink? (edges : List Edge) (visited : List String) (id : String) : Option Nat :=
  visited.findIdx? fun last => edges.any (joins id last)

/-- The first edge from `a` to `last` stands before the first one from `b`. -/
def EdgeBefore (edges : List Edge) (last a b : String) : Prop :=
  ∃ p q, firstEdge? edges a last = some p ∧ firstEdge? edges b last = some q ∧ p < q

/-- `a` has an edge to an earlier visited id than `b`, or an earlier edge to the same one. -/
inductive LinksBefore (edges : List Edge) (visited : List String) (a b : String) : Prop
  | earlierLink {i j : Nat} (ha : firstLink? edges visited a = some i)
      (hb : firstLink? edges visited b = some j) (h : i < j)
  | earlierEdge {i : Nat} {last : String} (ha : firstLink? edges visited a = some i)
      (hb : firstLink? edges visited b = some i) (hlast : visited[i]? = some last)
      (h : EdgeBefore edges last a b)

/-- `a` is nearer to the start than `b`, or it is as near and links to what has been visited before
`b` does. -/
inductive ComesBefore (edges : List Edge) (start : String) (visited : List String) (a b : String) :
    Prop
  | nearer {m n : Nat} (ha : IsDistance edges start a m) (hb : IsDistance edges start b n)
      (h : m < n)
  | asNear {n : Nat} (ha : IsDistance edges start a n) (hb : IsDistance edges start b n)
      (h : LinksBefore edges visited a b)

/-- The ids from which edges lead to the start, in the order in which a breadth-first search from
the start visits them. -/
structure IsVisitingOrder (edges : List Edge) (start : String) (found : List String) : Prop where
  nodup : found.Nodup
  mem_iff : ∀ id, id ∈ found ↔ id ≠ start ∧ LeadsTo edges start id
  sorted : found.Pairwise (ComesBefore edges start (start :: found))

section Order

variable {edges : List Edge} {start : String} {visited : List String}

theorem firstLink?_append_of_some {id : String} {i : Nat} (h : firstLink? edges visited id = some i)
    (more : List String) : firstLink? edges (visited ++ more) id = some i := by
  rw [firstLink?] at h ⊢
  rw [List.findIdx?_append, h, Option.some_or]

theorem lt_length_of_firstLink? {id : String} {i : Nat}
    (h : firstLink? edges visited id = some i) : i < visited.length := by
  obtain ⟨hlt, _⟩ := List.findIdx?_eq_some_iff_getElem.mp h
  exact hlt

theorem LinksBefore.append {a b : String} (h : LinksBefore edges visited a b)
    (more : List String) : LinksBefore edges (visited ++ more) a b := by
  cases h with
  | earlierLink ha hb hlt =>
      exact .earlierLink (firstLink?_append_of_some ha more) (firstLink?_append_of_some hb more) hlt
  | earlierEdge ha hb hlast hedge =>
      have hlt := lt_length_of_firstLink? ha
      refine .earlierEdge (firstLink?_append_of_some ha more) (firstLink?_append_of_some hb more) ?_ hedge
      rw [List.getElem?_append_left hlt, hlast]

/-- An id has an edge to the id at its link. -/
theorem exists_edge_of_firstLink? {id : String} {i : Nat}
    (h : firstLink? edges visited id = some i) :
    ∃ edge ∈ edges, edge.source = id ∧ visited[i]? = some edge.target := by
  obtain ⟨hlt, hjoins, _⟩ := List.findIdx?_eq_some_iff_getElem.mp h
  obtain ⟨edge, hedge, hends⟩ := List.any_eq_true.mp hjoins
  simp only [joins, Bool.and_eq_true, decide_eq_true_eq] at hends
  exact ⟨edge, hedge, hends.1, by rw [hends.2, List.getElem?_eq_getElem hlt]⟩

/-- No edge of an id leads to an id before its link. -/
theorem firstLink?_le {edge : Edge} {i j : Nat} (hedge : edge ∈ edges)
    (hi : firstLink? edges visited edge.source = some i) (hj : visited[j]? = some edge.target) :
    i ≤ j := by
  obtain ⟨_, _, hbefore⟩ := List.findIdx?_eq_some_iff_getElem.mp hi
  refine Nat.le_of_not_lt fun hlt => ?_
  obtain ⟨hj, htarget⟩ := List.getElem?_eq_some_iff.mp hj
  refine hbefore j hlt (List.any_eq_true.mpr ⟨edge, hedge, ?_⟩)
  simp [joins, htarget]

/-- Where both link to the front, what follows it is of no account. -/
theorem LinksBefore.of_append {more : List String} {a b : String} {i j : Nat}
    (h : LinksBefore edges (visited ++ more) a b) (ha : firstLink? edges visited a = some i)
    (hb : firstLink? edges visited b = some j) : LinksBefore edges visited a b := by
  cases h with
  | earlierLink ha' hb' hlt =>
      cases (firstLink?_append_of_some ha more).symm.trans ha'
      cases (firstLink?_append_of_some hb more).symm.trans hb'
      exact .earlierLink ha hb hlt
  | earlierEdge ha' hb' hlast hedge =>
      cases (firstLink?_append_of_some ha more).symm.trans ha'
      cases (firstLink?_append_of_some hb more).symm.trans hb'
      rw [List.getElem?_append_left (lt_length_of_firstLink? ha)] at hlast
      exact .earlierEdge ha hb hlast hedge

theorem EdgeBefore.asymm {last a b : String} (h : EdgeBefore edges last a b) :
    ¬EdgeBefore edges last b a := by
  obtain ⟨p, q, hp, hq, hlt⟩ := h
  rintro ⟨q', p', hq', hp', hlt'⟩
  cases hp.symm.trans hp'
  cases hq.symm.trans hq'
  omega

theorem LinksBefore.asymm {a b : String} (h : LinksBefore edges visited a b) :
    ¬LinksBefore edges visited b a := by
  intro hback
  cases h with
  | earlierLink ha hb hlt =>
      cases hback with
      | earlierLink hb' ha' hlt' =>
          cases ha.symm.trans ha'
          cases hb.symm.trans hb'
          omega
      | earlierEdge hb' ha' _ _ =>
          cases ha.symm.trans ha'
          cases hb.symm.trans hb'
          omega
  | earlierEdge ha hb hlast hedge =>
      cases hback with
      | earlierLink hb' ha' hlt' =>
          cases ha.symm.trans ha'
          cases hb.symm.trans hb'
          omega
      | earlierEdge hb' _ hlast' hedge' =>
          cases hb.symm.trans hb'
          cases hlast.symm.trans hlast'
          exact hedge.asymm hedge'

/-- Of two visited ids the one in front is no further from the start. -/
theorem ComesBefore.le {a b : String} (h : ComesBefore edges start visited a b) {m n : Nat}
    (ha : IsDistance edges start a m) (hb : IsDistance edges start b n) : m ≤ n := by
  cases h with
  | nearer ha' hb' hlt =>
      rw [ha.unique ha', hb.unique hb']
      exact Nat.le_of_lt hlt
  | asNear ha' hb' _ => exact Nat.le_of_eq ((ha.unique ha').trans (hb'.unique hb))

theorem ComesBefore.linksBefore {a b : String} (h : ComesBefore edges start visited a b) {n : Nat}
    (ha : IsDistance edges start a n) (hb : IsDistance edges start b n) :
    LinksBefore edges visited a b := by
  cases h with
  | nearer ha' hb' hlt =>
      rw [ha'.unique ha, hb'.unique hb] at hlt
      exact absurd hlt (Nat.lt_irrefl n)
  | asNear _ _ h => exact h

theorem ComesBefore.exists_isDistance {a b : String}
    (h : ComesBefore edges start visited a b) :
    (∃ m, IsDistance edges start a m) ∧ ∃ n, IsDistance edges start b n := by
  cases h with
  | nearer ha hb _ => exact ⟨⟨_, ha⟩, ⟨_, hb⟩⟩
  | asNear ha hb _ => exact ⟨⟨_, ha⟩, ⟨_, hb⟩⟩

/-- An id that is not the start has an edge to an id that is one step nearer to it. -/
theorem IsDistance.exists_edge {id : String} {steps : Nat}
    (h : IsDistance edges start id (steps + 1)) :
    ∃ edge ∈ edges, edge.source = id ∧ IsDistance edges start edge.target steps := by
  obtain ⟨hwalk, hleast⟩ := h
  cases hwalk with
  | @step edge _ hedge hrest =>
      exact ⟨edge, hedge, rfl, hrest, fun other hother =>
        Nat.le_of_succ_le_succ (hleast (other + 1) (.step hedge hother))⟩

namespace IsVisitingOrder

/-- An id has a link to what stands before it. -/
theorem exists_link {before after : List String} {id : String} {steps : Nat}
    (h : IsVisitingOrder edges start (before ++ id :: after))
    (hid : IsDistance edges start id steps) :
    ∃ i, firstLink? edges (start :: before) id = some i := by
  have hne := ((h.mem_iff id).mp (by simp)).1
  cases steps with
  | zero =>
      cases hid.walk
      exact absurd rfl hne
  | succ steps =>
      obtain ⟨edge, hedge, hsource, htarget⟩ := hid.exists_edge
      have hmem : edge.target ∈ start :: before := by
        by_cases hstart : edge.target = start
        · exact List.mem_cons.mpr (Or.inl hstart)
        -- What is nearer than `id` stands neither behind it nor in its place.
        have hleads : LeadsTo edges start edge.target := by
          cases steps with
          | zero =>
              cases htarget.walk
              exact absurd rfl hstart
          | succ steps => exact ⟨steps, htarget.walk⟩
        have hfound := (h.mem_iff edge.target).mpr ⟨hstart, hleads⟩
        rcases List.mem_append.mp hfound with hbefore | hrest
        · exact List.mem_cons_of_mem start hbefore
        · have hle : steps + 1 ≤ steps := by
            rcases List.mem_cons.mp hrest with heq | hafter
            · exact Nat.le_of_eq (hid.unique (heq ▸ htarget))
            · have hsorted := (List.pairwise_append.mp h.sorted).2.1
              exact ((List.pairwise_cons.mp hsorted).1 _ hafter).le hid htarget
          omega
      have hjoins : (start :: before).any (fun last => edges.any (joins id last)) = true := by
        refine List.any_eq_true.mpr ⟨edge.target, hmem, List.any_eq_true.mpr ⟨edge, hedge, ?_⟩⟩
        simp [joins, hsource]
      rw [← Option.isSome_iff_exists, firstLink?, List.findIdx?_isSome]
      exact hjoins

/-- Of two visiting orders with the same front, one goes on with an id that the other has further
on. -/
theorem mem_of_ne {before after other : List String} {a b : String}
    (ha : IsVisitingOrder edges start (before ++ a :: after))
    (hb : IsVisitingOrder edges start (before ++ b :: other)) (hne : a ≠ b) : b ∈ after := by
  have hmem := (ha.mem_iff b).mpr ((hb.mem_iff b).mp (by simp))
  have hnot : b ∉ before := fun h =>
    (List.nodup_append.mp hb.nodup).2.2 b h b List.mem_cons_self rfl
  exact (List.mem_cons.mp ((List.mem_append.mp hmem).resolve_left hnot)).resolve_left
    (Ne.symm hne)

theorem comesBefore {before after : List String} {a b : String}
    (h : IsVisitingOrder edges start (before ++ a :: after)) (hb : b ∈ after) :
    ComesBefore edges start (start :: before ++ a :: after) a b :=
  (List.pairwise_cons.mp (List.pairwise_append.mp h.sorted).2.1).1 b hb

/-- What stands in front settles which id comes next. -/
theorem head_eq {before after other : List String} {a b : String}
    (ha : IsVisitingOrder edges start (before ++ a :: after))
    (hb : IsVisitingOrder edges start (before ++ b :: other)) : a = b := by
  refine Decidable.byContradiction fun hne => ?_
  have hab := ha.comesBefore (ha.mem_of_ne hb hne)
  have hba := hb.comesBefore (hb.mem_of_ne ha (Ne.symm hne))
  obtain ⟨⟨m, hm⟩, ⟨n, hn⟩⟩ := hab.exists_isDistance
  cases Nat.le_antisymm (hab.le hm hn) (hba.le hn hm)
  obtain ⟨i, hi⟩ := ha.exists_link hm
  obtain ⟨j, hj⟩ := hb.exists_link hn
  -- Both link to ids in front of the place where the orders part, so the two comparisons contradict.
  have hfirst := (hab.linksBefore hm hn).of_append hi hj
  have hsecond := (hba.linksBefore hn hm).of_append hj hi
  exact hfirst.asymm hsecond

/-- No visiting order ends before another one does. -/
theorem ne_nil_of_append {before rest other : List String} {b : String}
    (hrest : IsVisitingOrder edges start (before ++ rest))
    (hother : IsVisitingOrder edges start (before ++ b :: other)) : rest ≠ [] := by
  rintro rfl
  have hmem := (hrest.mem_iff b).mpr ((hother.mem_iff b).mp (by simp))
  rw [List.append_nil] at hmem
  exact (List.nodup_append.mp hother.nodup).2.2 b hmem b List.mem_cons_self rfl

theorem eq_of_append {before rest other : List String}
    (hrest : IsVisitingOrder edges start (before ++ rest))
    (hother : IsVisitingOrder edges start (before ++ other)) : rest = other := by
  induction rest generalizing before other with
  | nil =>
      cases other with
      | nil => rfl
      | cons b other => exact absurd rfl (hrest.ne_nil_of_append hother)
  | cons a rest ih =>
      cases other with
      | nil => exact absurd rfl (hother.ne_nil_of_append hrest)
      | cons b other =>
          cases hrest.head_eq hother
          rw [List.append_cons] at hrest hother
          exact congrArg (a :: ·) (ih hrest hother)

theorem unique {found other : List String} (h : IsVisitingOrder edges start found)
    (hother : IsVisitingOrder edges start other) : found = other :=
  @eq_of_append edges start [] found other h hother

end IsVisitingOrder
end Order
end Ancestry
end Workflow
