import Workflow.Proofs.Flow.Loading
import Workflow.Proofs.Template.Places
import Workflow.Reference.Report

/-!
# References of a flow

A reference stands in a flow at the end of a way: a node, one of its groups, a parameter of the
group, elements and members inside the parameter's value down to a text, and a place in the text.
`Flow.Holds` tells which references stand in a flow.  `Flow.occurrences` lists them
(`mem_occurrences_iff`), each once and with the ways in lexicographic order
(`pairwise_occurrences`).
-/

namespace Workflow

/-- A step on the way to a reference. -/
inductive Step where
  | node (place : Nat)
  | group (place : Nat)
  | param (place : Nat)
  /-- To an element of an array. -/
  | item (place : Nat)
  /-- To a member of an object. -/
  | member (name : String)
  /-- To the start of a marker in a text. -/
  | marker (place : Nat)
  deriving DecidableEq

/-- Of two steps from one place, one comes first. -/
def Step.Before : Step → Step → Prop
  | node i, node j => i < j
  | group i, group j => i < j
  | param i, param j => i < j
  | item i, item j => i < j
  | member a, member b => a < b
  | marker i, marker j => i < j
  | _, _ => False

/-- Of two ways, one comes first. -/
def Way.Before : List Step → List Step → Prop :=
  List.Lex Step.Before

/-! ## Lists by their ways -/

section Ways

variable {α β : Type}

/-- The elements of a list behind the steps to them. -/
def stepsTo (step : Nat → Step) (elements : List β) : List (Step × β) :=
  elements.zipIdx.map fun (element, place) => (step place, element)

/-- What is found behind some steps, each with the way to it. -/
def under (branches : List (Step × β)) (found : β → List (List Step × α)) :
    List (List Step × α) :=
  branches.flatMap fun (step, branch) => (found branch).map fun (way, a) => (step :: way, a)

@[simp] theorem mem_stepsTo_iff {kind : Nat → Step} {elements : List β} {step : Step}
    {element : β} :
    (step, element) ∈ stepsTo kind elements ↔
      ∃ place, step = kind place ∧ elements[place]? = some element := by
  simp only [stepsTo, List.mem_map, Prod.exists, List.mem_zipIdx_iff_getElem?, Prod.mk.injEq]
  constructor
  · rintro ⟨_, place, hget, rfl, rfl⟩
    exact ⟨place, rfl, hget⟩
  · rintro ⟨place, rfl, hget⟩
    exact ⟨element, place, hget, rfl, rfl⟩

/-- The steps to the elements of a list are in order. -/
theorem pairwise_stepsTo (kind : Nat → Step)
    (h : ∀ i j, i < j → (kind i).Before (kind j)) (elements : List β) :
    (stepsTo kind elements).Pairwise fun a b => a.1.Before b.1 := by
  rw [stepsTo, List.pairwise_map]
  have hplaces : (elements.zipIdx.map Prod.snd).Pairwise (· < ·) := by
    rw [List.zipIdx_map_snd]
    exact List.pairwise_lt_range'
  exact (List.pairwise_map.mp hplaces).imp fun hlt => h _ _ hlt

@[simp] theorem map_snd_stepsTo (kind : Nat → Step) (elements : List β) :
    (stepsTo kind elements).map Prod.snd = elements := by
  rw [stepsTo, List.map_map]
  exact List.zipIdx_map_fst 0 elements

/-- What is found behind some steps is found behind one of them. -/
@[simp] theorem mem_under_iff {branches : List (Step × β)} {found : β → List (List Step × α)}
    {way : List Step} {a : α} :
    (way, a) ∈ under branches found ↔
      ∃ step branch rest, way = step :: rest ∧ (step, branch) ∈ branches ∧
        (rest, a) ∈ found branch := by
  simp only [under, List.mem_flatMap, List.mem_map, Prod.exists, Prod.mk.injEq]
  constructor
  · rintro ⟨step, branch, hbranch, rest, _, hrest, rfl, rfl⟩
    exact ⟨step, branch, rest, rfl, hbranch, hrest⟩
  · rintro ⟨step, branch, rest, rfl, hbranch, hrest⟩
    exact ⟨step, branch, hbranch, rest, a, hrest, rfl, rfl⟩

/-- The ways to what is found are in order if the steps are, and the ways behind each step. -/
theorem pairwise_under {branches : List (Step × β)} {found : β → List (List Step × α)}
    (hsteps : branches.Pairwise fun a b => a.1.Before b.1)
    (hfound : ∀ branch ∈ branches, (found branch.2).Pairwise fun a b => Way.Before a.1 b.1) :
    (under branches found).Pairwise fun a b => Way.Before a.1 b.1 := by
  rw [under, List.pairwise_flatMap]
  constructor
  · intro branch hbranch
    rw [List.pairwise_map]
    exact (hfound branch hbranch).imp fun hlex => List.Lex.cons hlex
  · refine hsteps.imp fun hbefore a ha b hb => ?_
    obtain ⟨_, _, rfl⟩ := List.mem_map.mp ha
    obtain ⟨_, _, rfl⟩ := List.mem_map.mp hb
    exact List.Lex.rel hbefore

/-- Without the ways, what is found behind some steps is what is found behind each in turn. -/
@[simp] theorem map_snd_under (branches : List (Step × β)) (found : β → List (List Step × α)) :
    (under branches found).map Prod.snd =
      (branches.map Prod.snd).flatMap fun branch => (found branch).map Prod.snd := by
  simp only [under, List.map_flatMap, List.flatMap_map, List.map_map]
  rfl

end Ways

/-! ## References inside a value -/

namespace Json.Value

/-- The marker of a token stands in a text inside a value, at the end of a way. -/
inductive Holds : Value → List Step → String → Prop where
  | str {text : String} {place : Nat} {token : String} (h : Template.MarkerAt text place token) :
      Holds (str text) [.marker place] token
  | arr {items : List Value} {place : Nat} {item : Value} {way : List Step} {token : String}
      (hitem : items[place]? = some item) (h : Holds item way token) :
      Holds (arr items) (.item place :: way) token
  | obj {members : List (String × Value)} {name : String} {value : Value} {way : List Step}
      {token : String} (hmember : (name, value) ∈ members) (h : Holds value way token) :
      Holds (obj members) (.member name :: way) token

/-- The references in a text, with the ways to them. -/
def occurrencesOfText (text : String) : List (List Step × String) :=
  (Template.places text).map fun (place, token) => ([.marker place], token)

mutual

/-- The references inside a value, with the ways to them. -/
def occurrences : Value → List (List Step × String)
  | str text => occurrencesOfText text
  | arr items => occurrencesOfItems 0 items
  | obj members => occurrencesOfMembers members
  | _ => []

/-- The references inside the elements of an array, the first of which is at `place`. -/
def occurrencesOfItems (place : Nat) : List Value → List (List Step × String)
  | [] => []
  | item :: items =>
      (item.occurrences.map fun (way, token) => (.item place :: way, token)) ++
        occurrencesOfItems (place + 1) items

def occurrencesOfMembers : List (String × Value) → List (List Step × String)
  | [] => []
  | (name, value) :: members =>
      (value.occurrences.map fun (way, token) => (.member name :: way, token)) ++
        occurrencesOfMembers members

end

@[simp] theorem occurrences_arr (items : List Value) :
    (arr items).occurrences = under (stepsTo .item items) occurrences := by
  suffices h : ∀ place, occurrencesOfItems place items =
      under ((items.zipIdx place).map fun entry => (.item entry.2, entry.1)) occurrences from
    h 0
  induction items with
  | nil => exact fun _ => rfl
  | cons item rest ih =>
      intro place
      rw [occurrencesOfItems, ih (place + 1)]
      rfl

@[simp] theorem occurrences_obj (members : List (String × Value)) :
    (obj members).occurrences =
      under (members.map fun (name, value) => (.member name, value)) occurrences := by
  show occurrencesOfMembers members = _
  induction members with
  | nil => rfl
  | cons entry rest ih =>
      rw [occurrencesOfMembers, ih]
      rfl

@[simp] theorem map_snd_occurrences (value : Value) :
    value.occurrences.map Prod.snd = value.texts.flatMap Template.tokens := by
  induction value with
  | null => rfl
  | bool b => rfl
  | int i => rfl
  | real x => rfl
  | str s =>
      rw [occurrences, occurrencesOfText, List.map_map, texts, List.flatMap_singleton]
      exact Template.map_places s
  | arr items ih =>
      have hitems : (items.flatMap fun item => item.occurrences.map Prod.snd) =
          items.flatMap fun item => item.texts.flatMap Template.tokens := by
        rw [List.flatMap_def, List.flatMap_def, List.map_congr_left ih]
      simpa [List.flatMap_assoc] using hitems
  | obj members ih =>
      have hvalues : ∀ member ∈ members, member.2.occurrences.map Prod.snd =
          member.2.texts.flatMap Template.tokens :=
        fun member hmember => ih member.1 member.2 hmember
      have hmembers : (members.flatMap fun member => member.2.occurrences.map Prod.snd) =
          members.flatMap fun member => member.2.texts.flatMap Template.tokens := by
        rw [List.flatMap_def, List.flatMap_def, List.map_congr_left hvalues]
      simpa [List.flatMap_assoc, List.flatMap_map] using hmembers

/-- The references that are listed for a value are those inside it. -/
theorem mem_occurrences_iff {value : Value} {way : List Step} {token : String} :
    (way, token) ∈ value.occurrences ↔ value.Holds way token := by
  induction value generalizing way with
  | null => exact ⟨fun h => absurd h List.not_mem_nil, fun h => nomatch h⟩
  | bool b => exact ⟨fun h => absurd h List.not_mem_nil, fun h => nomatch h⟩
  | int i => exact ⟨fun h => absurd h List.not_mem_nil, fun h => nomatch h⟩
  | real x => exact ⟨fun h => absurd h List.not_mem_nil, fun h => nomatch h⟩
  | str s =>
      rw [occurrences, occurrencesOfText, List.mem_map]
      constructor
      · rintro ⟨⟨place, token⟩, hplace, heq⟩
        obtain ⟨rfl, rfl⟩ := Prod.mk.inj heq
        exact .str (Template.mem_places_iff.mp hplace)
      · rintro (⟨hplace⟩)
        exact ⟨_, Template.mem_places_iff.mpr hplace, rfl⟩
  | arr items ih =>
      simp only [occurrences_arr, mem_under_iff]
      constructor
      · rintro ⟨step, item, rest, rfl, hstep, hrest⟩
        obtain ⟨place, rfl, hitem⟩ := mem_stepsTo_iff.mp hstep
        exact .arr hitem ((ih item (List.mem_of_getElem? hitem)).mp hrest)
      · rintro (_ | ⟨hitem, h⟩)
        exact ⟨_, _, _, rfl, mem_stepsTo_iff.mpr ⟨_, rfl, hitem⟩,
          (ih _ (List.mem_of_getElem? hitem)).mpr h⟩
  | obj members ih =>
      simp only [occurrences_obj, mem_under_iff]
      constructor
      · rintro ⟨step, value, rest, rfl, hstep, hrest⟩
        obtain ⟨⟨name, member⟩, hmember, heq⟩ := List.mem_map.mp hstep
        obtain ⟨rfl, rfl⟩ := Prod.mk.inj heq
        exact .obj hmember ((ih name member hmember).mp hrest)
      · rintro (_ | _ | ⟨hmember, h⟩)
        exact ⟨_, _, _, rfl, List.mem_map.mpr ⟨_, hmember, rfl⟩, (ih _ _ hmember).mpr h⟩

/-- The references inside an ordered value are in order. -/
theorem pairwise_occurrences {value : Value} (h : value.IsOrdered) :
    value.occurrences.Pairwise fun a b => Way.Before a.1 b.1 := by
  induction h with
  | null => exact List.Pairwise.nil
  | bool b => exact List.Pairwise.nil
  | int i => exact List.Pairwise.nil
  | real x => exact List.Pairwise.nil
  | str s =>
      rw [occurrences, occurrencesOfText, List.pairwise_map]
      refine (Template.pairwise_places s).imp fun hlt => ?_
      exact List.Lex.rel hlt
  | arr _ ih =>
      rw [occurrences_arr]
      refine pairwise_under (pairwise_stepsTo .item (fun _ _ hlt => hlt) _) fun branch hbranch => ?_
      obtain ⟨_, _, hitem⟩ := mem_stepsTo_iff.mp hbranch
      exact ih _ (List.mem_of_getElem? hitem)
  | obj hmembers _ ih =>
      rw [occurrences_obj]
      refine pairwise_under ?_ fun branch hbranch => ?_
      · rw [List.pairwise_map]
        exact hmembers.imp fun hlt => hlt
      · obtain ⟨⟨name, member⟩, hmember, rfl⟩ := List.mem_map.mp hbranch
        exact ih name member hmember

end Json.Value

/-! ## References of a flow -/

/-- A reference in a text of a parameter. -/
structure Occurrence where
  node : Node
  param : Param
  token : String

/-- A reference stands in a flow, at the end of a way. -/
def Flow.Holds (flow : Flow) (way : List Step) (found : Occurrence) : Prop :=
  ∃ i j k group inner, way = .node i :: .group j :: .param k :: inner ∧
    flow.nodes[i]? = some found.node ∧ found.node.groups[j]? = some group ∧
    group.params[k]? = some found.param ∧ found.param.value.Holds inner found.token

def Param.occurrences (node : Node) (param : Param) : List (List Step × Occurrence) :=
  param.value.occurrences.map fun (way, token) => (way, ⟨node, param, token⟩)

def Node.occurrences (node : Node) : List (List Step × Occurrence) :=
  under (stepsTo .group node.groups) fun group =>
    under (stepsTo .param group.params) (Param.occurrences node)

/-- The references of a flow, with the ways to them. -/
def Flow.occurrences (flow : Flow) : List (List Step × Occurrence) :=
  under (stepsTo .node flow.nodes) Node.occurrences

@[simp] theorem Param.map_snd_occurrences (node : Node) (param : Param) :
    (Param.occurrences node param).map Prod.snd = param.tokens.map (Occurrence.mk node param) := by
  rw [Param.tokens, ← Json.Value.map_snd_occurrences, Param.occurrences, List.map_map,
    List.map_map]
  rfl

@[simp] theorem Node.map_snd_occurrences (node : Node) :
    node.occurrences.map Prod.snd =
      node.params.flatMap fun param => param.tokens.map (Occurrence.mk node param) := by
  simp [Node.occurrences, Node.params, List.flatMap_assoc]

@[simp] theorem Flow.map_snd_occurrences (flow : Flow) :
    flow.occurrences.map Prod.snd =
      flow.nodes.flatMap fun node => node.occurrences.map Prod.snd := by
  simp [Flow.occurrences]

/-- The references that are listed for a flow are those that stand in it. -/
theorem Flow.mem_occurrences_iff {flow : Flow} {way : List Step} {found : Occurrence} :
    (way, found) ∈ flow.occurrences ↔ flow.Holds way found := by
  simp only [Flow.occurrences, Node.occurrences, mem_under_iff, mem_stepsTo_iff]
  constructor
  · rintro ⟨_, node, _, rfl, ⟨i, rfl, hnode⟩, _, group, _, rfl, ⟨j, rfl, hgroup⟩, _, param, inner,
      rfl, ⟨k, rfl, hparam⟩, hinner⟩
    obtain ⟨⟨way, token⟩, htoken, heq⟩ := List.mem_map.mp hinner
    obtain ⟨rfl, rfl⟩ := Prod.mk.inj heq
    exact ⟨i, j, k, group, way, rfl, hnode, hgroup, hparam,
      Json.Value.mem_occurrences_iff.mp htoken⟩
  · rintro ⟨i, j, k, group, inner, rfl, hnode, hgroup, hparam, hinner⟩
    refine ⟨_, found.node, _, rfl, ⟨i, rfl, hnode⟩, _, group, _, rfl, ⟨j, rfl, hgroup⟩, _,
      found.param, inner, rfl, ⟨k, rfl, hparam⟩, ?_⟩
    exact List.mem_map.mpr ⟨(inner, found.token), Json.Value.mem_occurrences_iff.mpr hinner, rfl⟩

/-- The references of an ordered flow are in order. -/
theorem Flow.pairwise_occurrences {flow : Flow} (h : flow.IsOrdered) :
    flow.occurrences.Pairwise fun a b => Way.Before a.1 b.1 := by
  refine pairwise_under (pairwise_stepsTo .node (fun _ _ hlt => hlt) _) fun branch hbranch => ?_
  obtain ⟨_, _, hnode⟩ := mem_stepsTo_iff.mp hbranch
  refine pairwise_under (pairwise_stepsTo .group (fun _ _ hlt => hlt) _) fun groups hgroups => ?_
  obtain ⟨_, _, hgroup⟩ := mem_stepsTo_iff.mp hgroups
  refine pairwise_under (pairwise_stepsTo .param (fun _ _ hlt => hlt) _) fun params hparams => ?_
  obtain ⟨_, _, hparam⟩ := mem_stepsTo_iff.mp hparams
  have hmem : params.2 ∈ branch.2.params :=
    List.mem_flatMap_of_mem (List.mem_of_getElem? hgroup) (List.mem_of_getElem? hparam)
  rw [Param.occurrences, List.pairwise_map]
  exact Json.Value.pairwise_occurrences (h _ (List.mem_of_getElem? hnode) _ hmem)

end Workflow
