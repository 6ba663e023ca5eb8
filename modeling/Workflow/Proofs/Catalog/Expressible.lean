import Mathlib
import Workflow.Flow.Load
import Workflow.Proofs.Catalog.Agreement
import Workflow.Proofs.Flow.Faults
import Workflow.Proofs.Reference.Parsing

/-!
# Variables that can be referred to

A text refers to a variable by the marker of its token.  Ids and keys may be any texts, so not every
variable can be referred to (`Flow.Expresses`): a brace ends a marker, a point in the id of a node
makes another producer, and an empty id or key leaves nothing to name.  Nothing else is in the way
(`Flow.expresses_iff`).
-/

namespace Workflow

/-- What a text needs to refer to a value of a node: the marker is found in it, the token names the
node, and it resolves. -/
structure Flow.Expresses (flow : Flow) (node : Node) (token : String) : Prop where
  read : Template.tokens (Template.wrap token) = [token]
  parsed : ∃ r, Reference.parse token = .ok r ∧ r.producer = node.id
  resolved : ∀ origin label?, validate? flow.nodes origin token label? = none

namespace Flow

variable {flow : Flow} {node : Node} {text : String}

/-- Where lists are not beyond all bounds, the variables of a loaded flow are tokens of fields of
their nodes.  A text can hold the marker of one if it has no brace.  The token can be taken apart
into the node and a field if moreover the id has no point and neither name is empty.  A point in
the id is all that may keep it from being resolved. -/
theorem expresses_iff (hload : Flow.load text = .ok flow) (hnode : node ∈ flow.nodes)
    (hlength : ∀ param ∈ node.params, param.items.length < Token.indexBound)
    {offered : Variable} (hoffered : offered ∈ node.exposedVariables) :
    ∃ field, offered.token = Token.path node.id field ∧
      (Template.tokens (Template.wrap offered.token) = [offered.token] ↔
        ∀ c ∈ offered.token.toList, Template.isPlain c = true) ∧
      ('.' ∉ node.id.toList →
        ∀ origin label?, validate? flow.nodes origin offered.token label? = none) ∧
      (flow.Expresses node offered.token ↔
        (∀ c ∈ offered.token.toList, Template.isPlain c = true) ∧ '.' ∉ node.id.toList ∧
          node.id ≠ "" ∧ (Token.splitIndex field).1 ≠ "") := by
  obtain ⟨param, _, hmem⟩ := List.mem_flatMap.mp hoffered
  obtain ⟨_, field, htoken⟩ := Param.of_mem_offers hmem
  have hread : Template.tokens (Template.wrap offered.token) = [offered.token] ↔
      ∀ c ∈ offered.token.toList, Template.isPlain c = true := by
    simp [Template.IsToken, htoken, Token.path]
  have hresolved : '.' ∉ node.id.toList →
      ∀ origin label?, validate? flow.nodes origin offered.token label? = none :=
    fun hid => validate?_of_mem_exposedVariables
      ((isFaultless_load hload).node?_of_mem hnode) hid hlength hoffered
  have hparsed : (∃ r, Reference.parse offered.token = .ok r ∧ r.producer = node.id) ↔
      (∀ c ∈ offered.token.toList, Template.isPlain c = true) ∧ '.' ∉ node.id.toList ∧
        node.id ≠ "" ∧ (Token.splitIndex field).1 ≠ "" := by
    rw [htoken, Reference.parse_path_iff]
  refine ⟨field, htoken, hread, hresolved, fun h => hparsed.mp h.parsed, fun h => ?_⟩
  exact ⟨hread.mpr h.1, hparsed.mpr h, hresolved h.2.1⟩

set_option maxRecDepth 100000 in
/-- A record whose key ends in an index can be referred to. -/
theorem expresses_iff_indexed_key :
    let saved := "\x7b\"nodes\":[\x7b\"id\":\"a\",\"data\":" ++
      "\x7b\"group_params\":[\x7b\"params\":[\x7b\"key\":\"k\",\"type\":\"form\"," ++
      "\"value\":[\x7b\"key\":\"f#0\"\x7d],\"global\":true\x7d]\x7d]\x7d\x7d]\x7d"
    let param : Param :=
      { key := "k", label? := none, kind := .form, exposed := true
        value := .arr [.obj [("key", .str "f#0")]] }
    let node : Node :=
      { id := "a", name := "", kind := "", groups := [⟨none, [param]⟩], labels := .empty }
    let flow : Flow := { nodes := [node], edges := [] }
    let offered : Variable := { nodeId := "a", token := "a.f#0", label := "a/f#0" }
    Flow.load saved = .ok flow ∧ node ∈ flow.nodes ∧
      (∀ param ∈ node.params, param.items.length < Token.indexBound) ∧
      offered ∈ node.exposedVariables ∧ flow.Expresses node offered.token := by
  intro saved param node flow offered
  have hload : Flow.load saved = .ok flow := by cbv
  have hnode : node ∈ flow.nodes := List.mem_singleton_self node
  have hlength : ∀ param ∈ node.params, param.items.length < Token.indexBound := by decide
  have hvariables : node.exposedVariables = [offered] := by cbv
  have hoffered : offered ∈ node.exposedVariables :=
    hvariables ▸ List.mem_singleton_self offered
  obtain ⟨field, htoken, _, _, hexpresses⟩ := expresses_iff hload hnode hlength hoffered
  have hplain : ∀ c ∈ offered.token.toList, Template.isPlain c = true :=
    List.all_eq_true.mp (by decide)
  have hfield : field = "f#0" := by
    have hlist : Token.path "a" field = "a.f#0" := htoken.symm
    apply String.toList_inj.mp
    simpa [Token.path] using congrArg String.toList hlist
  subst hfield
  exact ⟨hload, hnode, hlength, hoffered, hexpresses.mpr ⟨hplain, by decide, by decide, by decide⟩⟩

set_option maxRecDepth 100000 in
/-- A point in the id of a node makes its variables tokens of a missing node. -/
theorem not_expresses_point_in_id :
    let saved := "\x7b\"nodes\":[\x7b\"id\":\"a.b\",\"data\":" ++
      "\x7b\"group_params\":[\x7b\"params\":[\x7b\"key\":\"x\",\"global\":true\x7d]\x7d]\x7d\x7d]\x7d"
    let param : Param :=
      { key := "x", label? := none, kind := .other "", exposed := true, value := .null }
    let node : Node :=
      { id := "a.b", name := "", kind := "", groups := [⟨none, [param]⟩], labels := .empty }
    let flow : Flow := { nodes := [node], edges := [] }
    let offered : Variable := { nodeId := "a.b", token := "a.b.x", label := "a.b/x" }
    Flow.load saved = .ok flow ∧ node ∈ flow.nodes ∧ offered ∈ node.exposedVariables ∧
      (validate? flow.nodes node.id offered.token none).map ReferenceError.failure =
        some .nodeNotFound ∧
      ¬flow.Expresses node offered.token := by
  intro saved param node flow offered
  have hload : Flow.load saved = .ok flow := by cbv
  have hvariables : node.exposedVariables = [offered] := by cbv
  have hmissing : (validate? flow.nodes node.id offered.token none).map ReferenceError.failure =
      some .nodeNotFound := by cbv
  refine ⟨hload, List.mem_singleton_self node, hvariables ▸ List.mem_singleton_self offered,
    hmissing, fun h => ?_⟩
  rw [h.resolved node.id none] at hmissing
  cases hmissing

end Flow
end Workflow
