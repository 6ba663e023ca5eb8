import Mathlib
import Workflow.Proofs.Flow.Faults
import Workflow.Proofs.Flow.Saved
import Workflow.Proofs.Json.Compact
import Workflow.Proofs.Json.Records

/-!
# Loading what was saved

Whatever text a flow is saved as, it is loaded again (`Flow.load_of_isRenderedAs`).  For each part
of a flow a canvas part is read that is made the part.
-/

namespace Workflow

open Json

namespace Json

variable {α β : Type} {members : List (String × List Char)} {names : List String}

theorem Has.imp {P Q : List Char → Prop} (h : Has members names P) (hPQ : ∀ text, P text → Q text) :
    Has members names Q := by
  obtain ⟨text, htext, hP⟩ := h
  exact ⟨text, htext, hPQ text hP⟩

theorem MayHave.imp {P Q : List Char → Prop} {d e : Prop} (h : MayHave members names P d)
    (hPQ : ∀ text, P text → Q text) (hde : d → e) : MayHave members names Q e := by
  rcases h with h | ⟨hnone, hd⟩
  · exact Or.inl (h.imp hPQ)
  · exact Or.inr ⟨hnone, hde hd⟩

/-- A list is written as a list of what its items are made of. -/
theorem IsList.exists_map {P : β → List Char → Prop} {R : α → List Char → Prop} {make : α → β}
    (hP : ∀ b text, P b text → ∃ a, R a text ∧ make a = b) {items : List β} {text : List Char}
    (h : IsList P items text) : ∃ made, IsList R made text ∧ made.map make = items := by
  obtain ⟨parts, hparts, htext⟩ := h
  suffices hmade : ∃ made, List.Forall₂ R made parts ∧ made.map make = items by
    obtain ⟨made, hmade, hmap⟩ := hmade
    exact ⟨made, ⟨parts, hmade, htext⟩, hmap⟩
  clear htext
  induction hparts with
  | nil => exact ⟨[], .nil, rfl⟩
  | cons hpart _ ih =>
      obtain ⟨made, hmade, hmap⟩ := ih
      obtain ⟨a, ha, hmake⟩ := hP _ _ hpart
      exact ⟨a :: made, .cons ha hmade, by rw [List.map_cons, hmap, hmake]⟩

/-- The same for a list that may be left out. -/
theorem MayHave.exists_map {P : β → List Char → Prop} {R : α → List Char → Prop} {make : α → β}
    (hP : ∀ b text, P b text → ∃ a, R a text ∧ make a = b) {items : List β}
    (h : MayHave members names (IsList P items) (items = [])) :
    ∃ made, MayHave members names (IsList R made) (made = []) ∧ made.map make = items := by
  rcases h with ⟨text, htext, hlist⟩ | ⟨hnone, rfl⟩
  · obtain ⟨made, hmade, hmap⟩ := hlist.exists_map hP
    exact ⟨made, Or.inl ⟨text, htext, hmade⟩, hmap⟩
  · exact ⟨[], Or.inr ⟨hnone, rfl⟩, rfl⟩

theorem reads_optionalString {s? : Option String} {text : List Char}
    (h : IsOptional IsQuoted s? text) (depth : Nat) :
    Reads (Reader.optional Reader.string depth) text s? := by
  refine reads_optional ?_
  cases h with
  | none => exact .none
  | some h =>
      obtain ⟨tail, htail, _⟩ := h.stringBody
      exact .some ⟨reads_string h depth, by simp [htail]⟩

end Json

theorem ParamKind.ofTag_of_isKnown {kind : ParamKind} (h : kind.isKnown = true) :
    ofTag kind.tag = kind := by
  cases kind with
  | other tag => cases h
  | _ => rfl

theorem ParamKind.IsNamed.ofTag_eq {kind : ParamKind} {tag : String} (h : kind.IsNamed tag) :
    ofTag tag = kind := by
  obtain ⟨rfl, hknown⟩ := h
  cases hfound : (ofTag kind.tag).isKnown with
  | true => exact hknown _ hfound (tag_ofTag kind.tag)
  | false =>
      cases hkind : kind.isKnown with
      | true => exact ofTag_of_isKnown hkind
      | false =>
          -- Both are kinds without a meaning of their own, and these have just their tags.
          have hback := tag_ofTag kind.tag
          generalize ofTag kind.tag = found at hfound hback
          cases found <;> cases hfound
          cases kind <;> cases hkind
          exact congrArg other hback

section Parts

variable {depth : Nat} {text : List Char}

theorem Param.IsSaved.exists_tag {param : Param} {members : List (String × List Char)}
    (h : param.IsSaved depth (IsMark depth) members) :
    ∃ tag, ParamKind.ofTag tag = param.kind ∧
      MayHave members ["type"] (IsQuoted tag) (ParamKind.ofTag tag = .other "") := by
  rcases h.kind with ⟨text, htext, tag, hnamed, hquoted⟩ | ⟨hnone, hkind⟩
  · exact ⟨tag, hnamed.ofTag_eq, Or.inl ⟨text, htext, hquoted⟩⟩
  · exact ⟨"", hkind ▸ rfl, Or.inr ⟨hnone, rfl⟩⟩

theorem Param.IsSaved.exists_mark {param : Param} {members : List (String × List Char)}
    (h : param.IsSaved depth (IsMark depth) members) :
    ∃ mark : Json.Value, Canvas.isExposing mark = param.exposed ∧
      MayHave members ["global"] (mark.IsWritten depth) (mark = .null) := by
  rcases h.exposed with ⟨text, htext, mark, hwritten, hexposed⟩ | ⟨hnone, hexposed⟩
  · refine ⟨mark, ?_, Or.inl ⟨text, htext, hwritten⟩⟩
    rw [Bool.eq_iff_iff]
    simp [hexposed]
  · exact ⟨.null, hexposed ▸ rfl, Or.inr ⟨hnone, rfl⟩⟩

theorem Param.IsWritten.reads {param : Param} (h : param.IsWritten depth (IsMark depth) text) :
    ∃ saved, Reads (Canvas.Param.reader (depth + 1)) text saved ∧ saved.toParam = param := by
  obtain ⟨members, hrecord, hsaved⟩ := h
  obtain ⟨tag, htag, hkind⟩ := hsaved.exists_tag
  obtain ⟨mark, hmark, hexposed⟩ := hsaved.exists_mark
  let saved : Canvas.Param :=
    { key := param.key, label? := param.label?, kind := .ofTag tag, value := param.value, mark }
  have hread : Reads (Canvas.Param.reader (depth + 1)) text saved := by
    refine reads_record hrecord (.cons (Member.makes_needed (a := param.key) ?_) <| .cons
      (Member.makes_defaulted (a := param.label?) ?_) <| .cons
      (Member.makes_defaulted (a := tag) ?_) <| .cons
      (Member.makes_defaulted (a := param.value) ?_) <| .cons
      (Member.makes_defaulted (a := mark) ?_) .nil) rfl (by decide) ?_
    · exact hsaved.key.imp fun _ h => reads_string h depth
    · exact hsaved.label.imp (fun _ h => reads_optionalString h depth) fun h => by rw [h]
    · exact hkind.imp (fun _ h => reads_string h depth) fun h => by rw [h]
    · exact hsaved.value.imp (fun _ h => h.reads) fun h => by rw [h]
    · exact hexposed.imp (fun _ h => h.reads) fun h => by rw [h]
    · simp only [List.mem_cons, List.not_mem_nil, or_false]
      rintro _ (rfl | rfl | rfl | rfl | rfl) _ (rfl | rfl | rfl | rfl | rfl) record <;> rfl
  refine ⟨saved, hread, ?_⟩
  simp only [saved, Canvas.Param.toParam, htag, hmark]

theorem ParamGroup.IsWritten.reads {group : ParamGroup}
    (h : group.IsWritten depth (IsMark depth) text) :
    ∃ saved, Reads (Canvas.ParamGroup.reader (depth + 3)) text saved ∧ saved.toGroup = group := by
  obtain ⟨members, hrecord, hsaved⟩ := h
  obtain ⟨params, hparams, hmade⟩ := hsaved.params.exists_map fun param text h => h.reads
  let saved : Canvas.ParamGroup := { name? := group.name?, params }
  have hread : Reads (Canvas.ParamGroup.reader (depth + 3)) text saved := by
    refine reads_record hrecord (.cons (Member.makes_defaulted (a := group.name?) ?_) <| .cons
      (Member.makes_defaulted (a := params) ?_) .nil) rfl (by decide) ?_
    · exact hsaved.name.imp (fun _ h => reads_optionalString h _) fun h => by rw [h]
    · exact hparams.imp (fun _ h => reads_list h) fun h => by rw [h]
    · simp only [List.mem_cons, List.not_mem_nil, or_false]
      rintro _ (rfl | rfl) _ (rfl | rfl) record <;> rfl
  refine ⟨saved, hread, ?_⟩
  simp only [saved, Canvas.ParamGroup.toGroup, hmade]

theorem LabelTable.IsWritten.reads {table : LabelTable} (h : table.IsWritten text) :
    Reads (LabelTable.reader (depth + 1)) text table ∧ text.head? = some '{' := by
  obtain ⟨labels, hlabels, hobject, hsame⟩ := h
  have hread := reads_table (fun token label (table : LabelTable) => table.insert token label)
    hobject (fun label hlabel => reads_string (hlabels label hlabel) depth) .empty
  have htable : (labels.map fun label => (label.1, label.2.1)).foldl
      (fun table label => table.insert label.1 label.2) LabelTable.empty = table := by
    refine LabelTable.ext ((LabelTable.ascending _).eq_of_find? table.ascending fun token => ?_)
    simp [← hsame, LabelTable.get?, LabelTable.empty]
  rw [htable] at hread
  refine ⟨hread, ?_⟩
  obtain ⟨parts, _, htext⟩ := hobject
  cases htext <;> rfl

theorem Node.IsSavedData.exists_labels {node : Node} {members : List (String × List Char)}
    (h : node.IsSavedData depth (IsMark depth) members) :
    ∃ labels? : Option LabelTable, labels?.getD .empty = node.labels ∧
      MayHave members ["var_zh", "varZh"]
        (fun text => Reads (Reader.optional LabelTable.reader (depth + 4)) text labels?)
        (labels? = none) := by
  rcases h.labels with ⟨text, htext, ⟨rfl, hempty⟩ | hlabels⟩ | ⟨hnone, hempty⟩
  · exact ⟨none, hempty.symm, Or.inl ⟨_, htext, reads_optional .none⟩⟩
  · obtain ⟨hread, hhead⟩ := @LabelTable.IsWritten.reads (depth + 3) _ _ hlabels
    have htable := reads_optional (.some ⟨hread, by simp [hhead]⟩)
    exact ⟨some node.labels, rfl, Or.inl ⟨text, htext, htable⟩⟩
  · exact ⟨none, hempty.symm, Or.inr ⟨hnone, rfl⟩⟩

theorem Node.IsWrittenData.reads {node : Node} (h : node.IsWrittenData depth (IsMark depth) text) :
    ∃ saved : Canvas.NodeData, Reads (Canvas.NodeData.reader (depth + 5)) text saved ∧
      (Canvas.Node.mk node.id saved).toNode = node := by
  obtain ⟨members, hrecord, hsaved⟩ := h
  obtain ⟨groups, hgroups, hmade⟩ := hsaved.groups.exists_map fun group text h => h.reads
  obtain ⟨labels?, hlabels, htable⟩ := hsaved.exists_labels
  let saved : Canvas.NodeData := { name := node.name, kind := node.kind, groups, labels? }
  have hread : Reads (Canvas.NodeData.reader (depth + 5)) text saved := by
    refine reads_record hrecord (.cons (Member.makes_defaulted (a := node.name) ?_) <| .cons
      (Member.makes_defaulted (a := node.kind) ?_) <| .cons
      (Member.makes_defaulted (a := groups) ?_) <| .cons
      (Member.makes_orSpelled (a := labels?) ?_) .nil) rfl (by decide) ?_
    · exact hsaved.name.imp (fun _ h => reads_string h _) fun h => by rw [h]
    · exact hsaved.kind.imp (fun _ h => reads_string h _) fun h => by rw [h]
    · exact hgroups.imp (fun _ h => reads_list h) fun h => by rw [h]
    · exact htable.imp (fun _ h => h) fun h => by rw [h]
    · simp only [List.mem_cons, List.not_mem_nil, or_false]
      rintro _ (rfl | rfl | rfl | rfl) _ (rfl | rfl | rfl | rfl) record <;> rfl
  refine ⟨saved, hread, ?_⟩
  simp only [saved, Canvas.Node.toNode, hmade, hlabels]

theorem Node.IsWritten.reads {node : Node} (h : node.IsWritten depth (IsMark depth) text) :
    ∃ saved, Reads (Canvas.Node.reader (depth + 6)) text saved ∧ saved.toNode = node := by
  obtain ⟨members, hrecord, hsaved⟩ := h
  obtain ⟨dataText, hdataText, hdata⟩ := hsaved.data
  obtain ⟨data, hdata, hmade⟩ := hdata.reads
  let saved : Canvas.Node := { id := node.id, data }
  have hread : Reads (Canvas.Node.reader (depth + 6)) text saved := by
    refine reads_record hrecord (.cons (Member.makes_needed (a := node.id) ?_) <| .cons
      (Member.makes_needed (a := data) ?_) .nil) rfl (by decide) ?_
    · exact hsaved.id.imp fun _ h => reads_string h _
    · exact ⟨dataText, hdataText, hdata⟩
    · simp only [List.mem_cons, List.not_mem_nil, or_false]
      rintro _ (rfl | rfl) _ (rfl | rfl) record <;> rfl
  exact ⟨saved, hread, hmade⟩

theorem Edge.IsWritten.reads {edge : Edge} (h : edge.IsWritten text) :
    Reads (Edge.reader (depth + 1)) text edge := by
  obtain ⟨members, hrecord, hsaved⟩ := h
  refine reads_record hrecord (.cons (Member.makes_needed (a := edge.source) ?_) <| .cons
    (Member.makes_needed (a := edge.target) ?_) <| .cons
    (Member.makes_orSpelled (a := edge.sourceHandle?) ?_) <| .cons
    (Member.makes_orSpelled (a := edge.targetHandle?) ?_) .nil) rfl (by decide) ?_
  · exact hsaved.source.imp fun _ h => reads_string h _
  · exact hsaved.target.imp fun _ h => reads_string h _
  · exact hsaved.sourceHandle.imp (fun _ h => reads_optionalString h _) fun h => by rw [h]
  · exact hsaved.targetHandle.imp (fun _ h => reads_optionalString h _) fun h => by rw [h]
  · simp only [List.mem_cons, List.not_mem_nil, or_false]
    rintro _ (rfl | rfl | rfl | rfl) _ (rfl | rfl | rfl | rfl) record <;> rfl

theorem Flow.IsWritten.reads {flow : Flow} (h : flow.IsWritten depth (IsMark depth) text) :
    ∃ canvas, Reads (Canvas.reader (depth + 8)) text canvas ∧ canvas.asFlow = flow := by
  obtain ⟨members, hrecord, hsaved⟩ := h
  obtain ⟨nodesText, hnodesText, hnodes⟩ := hsaved.nodes
  obtain ⟨nodes, hnodes, hmade⟩ := hnodes.exists_map fun node text h => h.reads
  let canvas : Canvas := { nodes, edges := flow.edges }
  have hread : Reads (Canvas.reader (depth + 8)) text canvas := by
    refine reads_record hrecord (.cons (Member.makes_needed (a := nodes) ?_) <| .cons
      (Member.makes_defaulted (a := flow.edges) ?_) .nil) rfl (by decide) ?_
    · exact ⟨nodesText, hnodesText, reads_list hnodes⟩
    · refine hsaved.edges.imp (fun _ h => reads_list ?_) fun h => by rw [h]
      obtain ⟨parts, hparts, htext⟩ := h
      exact ⟨parts, hparts.imp fun _ _ h => h.reads, htext⟩
    · simp only [List.mem_cons, List.not_mem_nil, or_false]
      rintro _ (rfl | rfl) _ (rfl | rfl) record <;> rfl
  refine ⟨canvas, hread, ?_⟩
  simp only [canvas, Canvas.asFlow, hmade]

end Parts

/-- Every text that a flow may be saved as is loaded as this flow. -/
theorem Flow.load_of_isRenderedAs {flow : Flow} {text : String} (hfaultless : flow.IsFaultless)
    (h : flow.IsRenderedAs valueDepth (IsMark valueDepth) text) : Flow.load text = .ok flow := by
  obtain ⟨before, body, after, htext, hbefore, hafter, hwritten⟩ := h
  obtain ⟨canvas, hread, hflow⟩ := hwritten.reads
  exact load_eq_ok_iff.mpr ⟨canvas, read_eq_ok htext hbefore hafter hread,
    Canvas.toFlow_eq_ok_iff.mpr ⟨hflow, hfaultless⟩⟩

/-! ## Texts for one flow -/

/-- A string that is nothing but a lone surrogate. -/
def looseString : List Char :=
  "\"\\ud800\"".toList

/-- A number beyond all doubles. -/
def hugeNumber : List Char :=
  "1e999".toList

/-- A list that a text may hold where it is passed over: a lone surrogate and a number beyond all
doubles. -/
def looseList : List Char :=
  enclose '[' ']' [looseString, hugeNumber]

/-- A text for the mark of a parameter, where it may be any text of the grammar. -/
def IsLooseMark (exposed : Bool) (text : List Char) : Prop :=
  IsGrammatical text ∧
    (exposed = true ↔ text = "true".toList ∨ IsLooselyQuoted text ∧ text ≠ "\"\"".toList)

/-- A parameter that is exposed or not. -/
def sampleParam (exposed : Bool) : Param :=
  { key := "k", label? := none, kind := .other "", exposed, value := .arr [.int (-7), .str "z"] }

def sampleNode (exposed : Bool) : Node :=
  { id := "a", name := "", kind := "", groups := [⟨none, [sampleParam exposed]⟩], labels := .empty }

/-- A flow of one node with one parameter. -/
def sampleFlow (exposed : Bool) : Flow :=
  { nodes := [sampleNode exposed], edges := [⟨"a", "a", some "out", none⟩] }

/-- The members of a parameter with some mark. -/
def paramMembers (mark : List Char) : List (String × List Char) :=
  [("global", mark), ("value", enclose '[' ']' ["-7".toList, "\"\\u007A\"".toList]),
    ("key", quote "k")]

def groupMembers (mark : List Char) : List (String × List Char) :=
  [("params", enclose '[' ']' [object (paramMembers mark)])]

def dataMembers (mark : List Char) : List (String × List Char) :=
  [("varZh", "null".toList), ("group_params", enclose '[' ']' [object (groupMembers mark)])]

def nodeMembers (mark : List Char) : List (String × List Char) :=
  [("data", object (dataMembers mark)), ("x", looseList), ("id", quote "a")]

def edgeMembers : List (String × List Char) :=
  [("target", quote "a"), ("sourceHandle", quote "out"), ("source", quote "a")]

def flowMembers (mark : List Char) : List (String × List Char) :=
  [("edges", enclose '[' ']' [object edgeMembers]),
    ("nodes", enclose '[' ']' [object (nodeMembers mark)])]

theorem isLooselyQuoted_looseString : IsLooselyQuoted looseString := by
  have hsurrogate : IsCodeUnit 0xD800 ['d', '8', '0', '0'] :=
    @IsCodeUnit.mk 13 8 0 0 'd' '8' '0' '0' (by decide) (by decide) (by decide) (by decide)
  exact ⟨[['\\', 'u', 'd', '8', '0', '0']], by simpa using IsPiece.unit hsurrogate, rfl⟩

theorem isGrammatical_hugeNumber : IsGrammatical hugeNumber := by
  have hdigits : IsDigits ['1'] ∧ IsDigits ['9', '9', '9'] :=
    ⟨⟨by simp, by simp⟩, ⟨by simp, by simp⟩⟩
  have hnumeral : Numeral.IsSpelled ⟨false, ['1'], [], false, ['9', '9', '9']⟩ hugeNumber :=
    @Numeral.IsSpelled.mk ⟨false, ['1'], [], false, ['9', '9', '9']⟩ [] _ hdigits.1 (by decide)
      .none (@IsExponent.unsigned 'e' _ (by decide) hdigits.2)
  exact .number hnumeral

theorem isGrammatical_looseList : IsGrammatical looseList := by
  refine .array ?_ (enclosed_enclose '[' ']' _)
  simp only [List.mem_cons, List.not_mem_nil, or_false]
  rintro _ (rfl | rfl)
  · exact .string isLooselyQuoted_looseString
  · exact isGrammatical_hugeNumber

/-- The names that the members have. -/
def sampleNames : List String :=
  ["global", "value", "key", "params", "varZh", "group_params", "data", "x", "id", "target",
    "sourceHandle", "source", "edges", "nodes"]

theorem isQuoted_sample : ∀ s ∈ ["a", "k", "out"], IsQuoted s (quote s) := fun s hs =>
  isQuoted_quote ((by decide : ∀ s ∈ ["a", "k", "out"], IsPlainText s) s hs)

theorem isWritten_sampleValue {depth : Nat} :
    Json.Value.IsWritten (depth + 1) (.arr [.int (-7), .str "z"])
      (enclose '[' ']' ["-7".toList, "\"\\u007A\"".toList]) := by
  have hunit : IsCodeUnit 'z'.toNat ['0', '0', '7', 'A'] :=
    @IsCodeUnit.mk 0 0 7 10 '0' '0' '7' 'A' (by decide) (by decide) (by decide) (by decide)
  have hletter : IsQuoted "z" "\"\\u007A\"".toList :=
    ⟨[['\\', 'u', '0', '0', '7', 'A']], .cons (.unit hunit) .nil, rfl⟩
  refine @Json.Value.IsWritten.arr _
    [(.int (-7), "-7".toList), (.str "z", "\"\\u007A\"".toList)] _ ?_ (enclosed_enclose _ _ _)
  simp only [List.mem_cons, List.not_mem_nil, or_false]
  rintro _ (rfl | rfl)
  · exact .int (by decide) (by decide)
  · exact .str hletter

theorem isList_single {α : Type} {writes : α → List Char → Prop} {a : α} {text : List Char}
    (h : writes a text) : IsList writes [a] (enclose '[' ']' [text]) :=
  ⟨_, .cons h .nil, enclosed_enclose '[' ']' _⟩

theorem isRecord_sample {names : List String} {members : List (String × List Char)}
    (hnames : ∀ member ∈ members, member.1 ∈ sampleNames)
    (hothers : ∀ member ∈ members, member.1 ∉ names → IsGrammatical member.2) :
    IsRecord names members (object members) := by
  have hplain : ∀ name ∈ sampleNames, IsPlainText name := by decide
  exact ⟨isObject_object fun member hmember => hplain _ (hnames member hmember), hothers⟩

/-- A text saves the flow with the parameter if its mark may be the mark of the parameter. -/
theorem isWritten_sampleFlow {depth : Nat} {marks : Bool → List Char → Prop} {exposed : Bool}
    {mark : List Char} (h : marks exposed mark) :
    (sampleFlow exposed).IsWritten (depth + 1) marks (object (flowMembers mark)) := by
  have hparam : (sampleParam exposed).IsWritten (depth + 1) marks (object (paramMembers mark)) :=
    ⟨_, isRecord_sample (by simp [paramMembers, sampleNames]) (by simp [paramMembers]),
      { key :=
          ⟨quote "k", by simp [valuesOf, paramMembers], isQuoted_sample _ (by simp [sampleParam])⟩
        label := Or.inr ⟨by simp [valuesOf, paramMembers], rfl⟩
        kind := Or.inr ⟨by simp [valuesOf, paramMembers], rfl⟩
        value := Or.inl ⟨_, by simp [valuesOf, paramMembers], isWritten_sampleValue⟩
        exposed := Or.inl ⟨mark, by simp [valuesOf, paramMembers], h⟩ }⟩
  have hgroup : ParamGroup.IsWritten (depth + 1) marks ⟨none, [sampleParam exposed]⟩
      (object (groupMembers mark)) :=
    ⟨_, isRecord_sample (by simp [groupMembers, sampleNames]) (by simp [groupMembers]),
      { name := Or.inr ⟨by simp [valuesOf, groupMembers], rfl⟩
        params := Or.inl ⟨_, by simp [valuesOf, groupMembers], isList_single hparam⟩ }⟩
  have hdata : (sampleNode exposed).IsWrittenData (depth + 1) marks (object (dataMembers mark)) :=
    ⟨_, isRecord_sample (by simp [dataMembers, sampleNames]) (by simp [dataMembers]),
      { name := Or.inr ⟨by simp [valuesOf, dataMembers], rfl⟩
        kind := Or.inr ⟨by simp [valuesOf, dataMembers], rfl⟩
        groups := Or.inl ⟨_, by simp [valuesOf, dataMembers], isList_single hgroup⟩
        labels := Or.inl ⟨_, by simp [valuesOf, dataMembers], Or.inl ⟨rfl, rfl⟩⟩ }⟩
  have hnode : (sampleNode exposed).IsWritten (depth + 1) marks (object (nodeMembers mark)) :=
    ⟨_, isRecord_sample (by simp [nodeMembers, sampleNames])
        (by simp [nodeMembers, isGrammatical_looseList]),
      { id := ⟨quote "a", by simp [valuesOf, nodeMembers], isQuoted_sample _ (by simp [sampleNode])⟩
        data := ⟨_, by simp [valuesOf, nodeMembers], hdata⟩ }⟩
  have hedge : Edge.IsWritten ⟨"a", "a", some "out", none⟩ (object edgeMembers) :=
    ⟨_, isRecord_sample (by simp [edgeMembers, sampleNames]) (by simp [edgeMembers]),
      { source := ⟨_, by simp [valuesOf, edgeMembers], isQuoted_sample _ (by simp)⟩
        target := ⟨_, by simp [valuesOf, edgeMembers], isQuoted_sample _ (by simp)⟩
        sourceHandle :=
          Or.inl ⟨_, by simp [valuesOf, edgeMembers], .some (isQuoted_sample _ (by simp))⟩
        targetHandle := Or.inr ⟨by simp [valuesOf, edgeMembers], rfl⟩ }⟩
  exact ⟨_, isRecord_sample (by simp [flowMembers, sampleNames]) (by simp [flowMembers]),
    { nodes := ⟨_, by simp [valuesOf, flowMembers], isList_single hnode⟩
      edges := Or.inl ⟨_, by simp [valuesOf, flowMembers], isList_single hedge⟩ }⟩

theorem isRenderedAs_sampleFlow {depth : Nat} {marks : Bool → List Char → Prop} {exposed : Bool}
    {mark : List Char} (h : marks exposed mark) :
    (sampleFlow exposed).IsRenderedAs (depth + 1) marks
      (String.ofList (object (flowMembers mark))) :=
  ⟨[], _, [], by simp, by simp [IsBlank], by simp [IsBlank], isWritten_sampleFlow h⟩

theorem isFaultless_sampleFlow (exposed : Bool) : (sampleFlow exposed).IsFaultless := by
  refine ⟨by simp [sampleFlow], fun edge hedge => ?_⟩
  cases List.mem_singleton.mp hedge
  simp [sampleFlow, sampleNode]

theorem isMark_yes : IsMark valueDepth true (quote "yes") :=
  ⟨.str "yes", .str (isQuoted_quote (by decide)), by simpa using IsExposing.text (by decide)⟩

theorem Flow.load_of_isRenderedAs_sampleFlow :
    (sampleFlow true).IsFaultless ∧
      (sampleFlow true).IsRenderedAs valueDepth (IsMark valueDepth)
        (String.ofList (object (flowMembers (quote "yes")))) ∧
      Flow.load (String.ofList (object (flowMembers (quote "yes")))) = .ok (sampleFlow true) :=
  ⟨isFaultless_sampleFlow true, isRenderedAs_sampleFlow isMark_yes,
    Flow.load_of_isRenderedAs (isFaultless_sampleFlow true) (isRenderedAs_sampleFlow isMark_yes)⟩

/-- A text that is neither `true` nor a string marks a parameter that is not exposed. -/
theorem isLooseMark_false {mark : List Char} (hmark : IsGrammatical mark)
    (htrue : mark ≠ "true".toList) (hstring : mark.head? ≠ some '"') : IsLooseMark false mark := by
  refine ⟨hmark, ?_⟩
  simp only [Bool.false_eq_true, false_iff, not_or, not_and]
  refine ⟨htrue, fun hquoted => ?_⟩
  obtain ⟨pieces, _, rfl⟩ := hquoted
  exact absurd rfl hstring

theorem isLooseMark_looseList : IsLooseMark false looseList :=
  isLooseMark_false isGrammatical_looseList (by decide) (by decide)

theorem isLooseMark_hugeNumber : IsLooseMark false hugeNumber :=
  isLooseMark_false isGrammatical_hugeNumber (by decide) (by decide)

/-- A text for an empty flow with an extra member that is named by a lone surrogate. -/
def looseNameText : List Char :=
  enclose '{' '}' [looseString ++ ':' :: "null".toList, quote "nodes" ++ ':' :: "[]".toList]

theorem isGrammatical_looseNameText : IsGrammatical looseNameText := by
  have hnodes : IsGrammatical "[]".toList :=
    @IsGrammatical.array [] _ (fun _ h => absurd h List.not_mem_nil) (enclosed_enclose '[' ']' [])
  have hblank : IsBlank [] := fun _ h => absurd h List.not_mem_nil
  refine @IsGrammatical.object
    [(looseString, "null".toList), (quote "nodes", "[]".toList)] _ ?_ ?_
    ⟨_, .cons (.mk rfl hblank hblank) (.cons (.mk rfl hblank hblank) .nil), enclosed_enclose _ _ _⟩
  · simp only [List.mem_cons, List.not_mem_nil, or_false]
    rintro _ (rfl | rfl)
    · exact isLooselyQuoted_looseString
    · exact isLooselyQuoted_quote (by decide)
  · simp only [List.mem_cons, List.not_mem_nil, or_false]
    rintro _ (rfl | rfl)
    · exact .null
    · exact hnodes

set_option maxRecDepth 100000 in
/-- A mark is read as a value and a name as a string, so a text with a lone surrogate in one of
them, or with a number beyond all doubles in a mark, is not loaded. -/
theorem Flow.load_loose :
    (sampleFlow false).IsFaultless ∧
      (sampleFlow false).IsRenderedAs valueDepth IsLooseMark
        (String.ofList (object (flowMembers looseList))) ∧
      Flow.load (String.ofList (object (flowMembers looseList))) =
        .error (.unreadable .malformed) ∧
      (sampleFlow false).IsRenderedAs valueDepth IsLooseMark
        (String.ofList (object (flowMembers hugeNumber))) ∧
      Flow.load (String.ofList (object (flowMembers hugeNumber))) =
        .error (.unreadable .malformed) ∧
      IsGrammatical looseNameText ∧
      Flow.load (String.ofList looseNameText) = .error (.unreadable .malformed) := by
  refine ⟨isFaultless_sampleFlow false, isRenderedAs_sampleFlow isLooseMark_looseList, ?_,
    isRenderedAs_sampleFlow isLooseMark_hugeNumber, ?_, isGrammatical_looseNameText, ?_⟩
  · cbv
  · cbv
  · cbv

end Workflow
