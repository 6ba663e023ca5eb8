import Mathlib
import Workflow.Flow.Edit
import Workflow.Proofs.Catalog.Agreement
import Workflow.Proofs.Codec.Context
import Workflow.Proofs.Codec.RoundTrip
import Workflow.Proofs.Flow.Ancestry
import Workflow.Proofs.Flow.Unlabeled

/-!
# Putting a variable into a text

A variable that a node may use is put into a text of the node as a marker, and its label goes into
the label table of the node.  The variable belongs to another node, so its token resolves before and
after; the marker is shown as a badge with the label, and the badge is stored as the marker of the
least token with that label (`isInserted_insertReference`).
-/

namespace Workflow

theorem Node.of_mem_exposedVariables {node : Node} {offered : Variable}
    (h : offered ∈ node.exposedVariables) :
    offered.nodeId = node.id ∧ ∃ field, offered.token = Token.path node.id field := by
  obtain ⟨param, _, hoffered⟩ := List.mem_flatMap.mp h
  exact Param.of_mem_offers hoffered

/-- A variable that a node may use is one of another node. -/
theorem Flow.exists_of_mem_availableTo {flow : Flow} {id : String} {offered : Variable}
    (h : offered ∈ flow.availableTo id) :
    ∃ producer, flow.node? producer.id = some producer ∧ producer.id ≠ id ∧
      offered ∈ producer.exposedVariables := by
  obtain ⟨producer, hproducer, hoffered⟩ := List.mem_flatMap.mp h
  obtain ⟨ancestor, hancestor, hfirst⟩ := List.mem_filterMap.mp hproducer
  have hid := List.find?_some hfirst
  rw [← of_decide_eq_true hid] at hancestor hfirst
  exact ⟨producer, hfirst, fun heq => flow.notMem_ancestorIds id (heq ▸ hancestor), hoffered⟩

/-- A variable that a node may use resolves. -/
theorem Flow.validate?_of_mem_availableTo {flow : Flow}
    (hlength : ∀ node ∈ flow.nodes, ∀ param ∈ node.params, param.items.length < Token.indexBound)
    {id : String} {offered : Variable} (h : offered ∈ flow.availableTo id)
    (hid : '.' ∉ offered.nodeId.toList) (origin : String) (label? : Option String) :
    validate? flow.nodes origin offered.token label? = none := by
  obtain ⟨producer, hproducer, _, hexposed⟩ := Flow.exists_of_mem_availableTo h
  rw [(Node.of_mem_exposedVariables hexposed).1] at hid
  exact validate?_of_mem_exposedVariables hproducer hid
    (hlength producer (List.mem_of_find?_eq_some hproducer)) hexposed origin label?

namespace Codec

/-- The marker of a token that resolves is shown as a badge with the reference class. -/
theorem decode_wrap (settings : Settings) {nodes : List Node} {node : Node} {token : String}
    (h : Template.IsToken token.toList)
    (hvalid : validate? nodes node.id token (some (labelOf node.labels token)) = none) :
    decode settings nodes node true (Template.wrap token) =
      { text := String.ofList (badge settings.referenceClass (labelOf node.labels token))
        error? := none
        broken := 0 } := by
  have hnone : errorOf? (.ofNodes nodes) node true token = none := hvalid
  have herrors : errors (.ofNodes nodes) node true (Template.wrap token) = [] := by
    simp [errors, Template.tokens_wrap h, hnone]
  have hclass : classOf settings (.ofNodes nodes) node true token = settings.referenceClass := by
    simp [classOf, hnone]
  rw [decode_eq, herrors, render_wrap _ _ h, hclass]
  cases settings.errorPolicy <;> rfl

/-- A badge is stored as the marker of the least token with its label. -/
theorem encode_badge (settings : Settings) {labels : LabelTable} {label least : String}
    (hquote : '"' ∉ settings.referenceClass.toList) (hleast : labels.IsLeastFor label least) :
    encode settings labels (String.ofList (badge settings.referenceClass label)) =
      Template.wrap least := by
  have hbadge : settings.isBadge settings.referenceClass.toList = true := by
    simp [Settings.isBadge]
  have hstore := store_badge settings labels hquote hbadge label []
  have hnil : store settings labels [] = [] := by simp [store, Markup.scan]
  rw [List.append_nil, hnil, List.append_nil, storedLabel,
    labels.tokenFor?_eq_some_iff.mpr hleast] at hstore
  rw [encode, String.toList_ofList, hstore, Template.wrap]

/-- A variable has been put into a text of a node: the node has been changed to `changed`, and the
flow to `after`, and the marker stands for the variable in the text. -/
structure IsInserted (settings : Settings) (flow : Flow) (node : Node) (offered : Variable)
    (after : Flow) (changed : Node) (marker : String) : Prop where
  /-- The variable is one of another node. -/
  foreign : offered.nodeId ≠ node.id
  marker_eq : marker = "\x7b\x7b#" ++ offered.token ++ "#\x7d\x7d"
  label : changed.labels.get? offered.token = some offered.label
  otherLabels : ∀ token, token ≠ offered.token → changed.labels.get? token = node.labels.get? token
  /-- Nothing but labels of the node has changed. -/
  unlabeled : changed.unlabeled = node.unlabeled
  /-- No other node has changed. -/
  nodes : ∃ before behind, flow.nodes = before ++ node :: behind ∧
    (∀ other ∈ before, other.id ≠ node.id) ∧ after.nodes = before ++ changed :: behind
  edges : after.edges = flow.edges
  /-- The marker is shown as a badge with the label of the variable. -/
  shown : decode settings after.nodes changed true marker =
    { text := String.ofList (badge settings.referenceClass offered.label)
      error? := none
      broken := 0 }
  /-- The badge is stored as the marker of the least token with the label. -/
  stored : ∃ least, changed.labels.IsLeastFor offered.label least ∧
    encode settings changed.labels (decode settings after.nodes changed true marker).text =
      Template.wrap least
  /-- The marker is stored unchanged just if no lesser token has the label. -/
  unchanged :
    encode settings changed.labels (decode settings after.nodes changed true marker).text =
        marker ↔
      ∀ token, token < offered.token → changed.labels.get? token ≠ some offered.label
  /-- Each node may use the variables that it might use before. -/
  available : ∀ id, after.availableTo id = flow.availableTo id
  /-- Each token resolves that resolved before, and no other does. -/
  resolved : ∀ origin token label?,
    validate? after.nodes origin token label? = validate? flow.nodes origin token label?

/-- **Putting a variable into a text.**  A variable that a node may use is put into a text of the
node, unless there is a point in the id of its own node or a brace in its token. -/
theorem isInserted_insertReference (settings : Settings) {flow : Flow} {node : Node}
    {offered : Variable}
    (hlength : ∀ other ∈ flow.nodes, ∀ param ∈ other.params,
      param.items.length < Token.indexBound)
    (hnode : flow.node? node.id = some node) (hoffered : offered ∈ flow.availableTo node.id)
    (hid : '.' ∉ offered.nodeId.toList)
    (hplain : ∀ c ∈ offered.token.toList, Template.isPlain c = true)
    (hquote : '"' ∉ settings.referenceClass.toList) :
    IsInserted settings flow node offered
      (flow.modifyNode node.id fun node => (node.insertReference offered).1)
      (node.insertReference offered).1 (node.insertReference offered).2 := by
  let changed := (node.insertReference offered).1
  let marker := (node.insertReference offered).2
  let after := flow.modifyNode node.id fun node => (node.insertReference offered).1
  obtain ⟨producer, _, hother, hexposed⟩ := Flow.exists_of_mem_availableTo hoffered
  obtain ⟨hnodeId, field, hpath⟩ := Node.of_mem_exposedVariables hexposed
  have hsame : SameButLabels after.nodes flow.nodes := Flow.sameButLabels_modifyNode hnode rfl
  have hget : ∀ token, changed.labels.get? token =
      if offered.token = token then some offered.label else node.labels.get? token := by
    simp [changed, Node.insertReference]
  have hlabel : changed.labels.get? offered.token = some offered.label := by
    simp [hget]
  have htoken : Template.IsToken offered.token.toList := ⟨by simp [hpath, Token.path], hplain⟩
  -- The token resolved before, and labels have no say in that.
  have hvalid : ∀ label?, validate? after.nodes changed.id offered.token label? = none := by
    intro label?
    rw [hsame.validate?_eq]
    exact Flow.validate?_of_mem_availableTo hlength hoffered hid changed.id label?
  have hshown : decode settings after.nodes changed true marker =
      { text := String.ofList (badge settings.referenceClass offered.label)
        error? := none
        broken := 0 } := by
    rw [← labelOf_eq hlabel]
    exact decode_wrap settings htoken (hvalid _)
  obtain ⟨least, hleast⟩ := changed.labels.exists_isLeastFor hlabel
  have hstored : encode settings changed.labels
      (decode settings after.nodes changed true marker).text = Template.wrap least := by
    rw [hshown]
    exact encode_badge settings hquote hleast
  constructor
  case foreign => exact hnodeId ▸ hother
  case marker_eq => exact Template.wrap_eq offered.token
  case label => exact hlabel
  case otherLabels => exact fun token hne => (hget token).trans (if_neg hne.symm)
  case unlabeled => rfl
  case nodes => exact Flow.nodes_modifyNode hnode _
  case edges => rfl
  case shown => exact hshown
  case stored => exact ⟨least, hleast, hstored⟩
  case unchanged =>
    have hmarker : Template.wrap least = marker ↔ least = offered.token := Template.wrap_inj
    rw [hstored, hmarker]
    exact hleast.eq_iff hlabel
  case available => exact fun id => Flow.availableTo_congr hsame rfl id
  case resolved => exact hsame.validate?_eq

/-- A lesser token has the label of the variable, so the badge is stored as the marker of that. -/
theorem isInserted_insertReference_shared_label :
    let field : Param :=
      { key := "b", label? := some "<b>", kind := .var, value := .null, exposed := true }
    let start : Node :=
      { id := "s", name := "S", kind := "", groups := [⟨none, [field]⟩], labels := .empty }
    let llm : Node :=
      { id := "llm", name := "", kind := "", groups := [],
        labels := .ofList [("s.a", "S/<b>")] }
    let flow : Flow :=
      { nodes := [start, llm], edges := [⟨"s", "llm", none, none⟩, ⟨"llm", "s", none, none⟩] }
    let offered : Variable := { nodeId := "s", token := "s.b", label := "S/<b>" }
    let changed := (llm.insertReference offered).1
    let after := flow.modifyNode llm.id fun node => (node.insertReference offered).1
    let shown := decode .standard after.nodes changed true (llm.insertReference offered).2
    (∀ other ∈ flow.nodes, ∀ param ∈ other.params, param.items.length < Token.indexBound) ∧
      flow.node? llm.id = some llm ∧ offered ∈ flow.availableTo llm.id ∧
      '.' ∉ offered.nodeId.toList ∧ (∀ c ∈ offered.token.toList, Template.isPlain c = true) ∧
      '"' ∉ Settings.standard.referenceClass.toList ∧ shown.broken = 0 ∧
      encode .standard changed.labels shown.text = Template.wrap "s.a" := by
  intro field start llm flow offered changed after shown
  have hlength : ∀ other ∈ flow.nodes, ∀ param ∈ other.params,
      param.items.length < Token.indexBound := by decide
  have hnode : flow.node? llm.id = some llm := rfl
  have havailable : flow.availableTo llm.id = [offered] := by cbv
  have hoffered : offered ∈ flow.availableTo llm.id := havailable ▸ List.mem_singleton_self offered
  have hid : '.' ∉ offered.nodeId.toList := by decide
  have hplain : ∀ c ∈ offered.token.toList, Template.isPlain c = true :=
    List.all_eq_true.mp (by decide)
  have hquote : '"' ∉ Settings.standard.referenceClass.toList := by decide
  have h := isInserted_insertReference .standard hlength hnode hoffered hid hplain hquote
  obtain ⟨least, hleast, hstored⟩ := h.stored
  have hfound : changed.labels.tokenFor? offered.label = some "s.a" := by decide
  rw [changed.labels.tokenFor?_eq_some_iff.mpr hleast] at hfound
  refine ⟨hlength, hnode, hoffered, hid, hplain, hquote, congrArg Decoded.broken h.shown, ?_⟩
  rw [hstored, Option.some.inj hfound]

end Codec
end Workflow
