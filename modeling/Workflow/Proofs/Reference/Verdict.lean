import Workflow.Proofs.Flow.Unlabeled
import Workflow.Proofs.Token.Split

/-!
# Verdicts found by search

What a token refers to can be said without an index of nodes and without taking the token apart.  The
first node with the id before the first point has to supply the token (`Param.Supplies`), and the
first node with the id of the origin gives the error its name (`IsShownAs`).  The index gives exactly
the verdicts that are found by search (`NodeIndex.validate?_eq_iff`).
-/

namespace Workflow

/-! ## Producers -/

namespace Token

/-- The id is what stands before the first point of the token, or all of a token without a point. -/
def IsProducer (token id : String) : Prop :=
  '.' ∉ id.toList ∧ (token = id ∨ ∃ field, token = path id field)

theorem producer_of_notMem {token : String} (h : '.' ∉ token.toList) : producer token = token := by
  have hplain : ∀ c ∈ token.toList, decide (c ≠ '.') = true := by
    intro c hc
    exact decide_eq_true fun heq => h (heq ▸ hc)
  have hall : token.toList.takeWhile (· ≠ '.') = token.toList := by
    simpa using @List.takeWhile_append_of_pos Char (· ≠ '.') token.toList [] hplain
  rw [producer, hall, String.ofList_toList]

theorem producer_eq_iff {token id : String} : producer token = id ↔ IsProducer token id := by
  constructor
  · rintro rfl
    by_cases hpoint : '.' ∈ token.toList
    · obtain ⟨before, after, hsplit, hbefore⟩ := List.eq_append_cons_of_mem hpoint
      have htoken : token = path (String.ofList before) (String.ofList after) := by
        apply String.toList_inj.mp
        simp [path, hsplit]
      have hid : '.' ∉ (String.ofList before).toList := by simpa using hbefore
      rw [htoken, producer_path hid]
      exact ⟨hid, Or.inr ⟨_, rfl⟩⟩
    · rw [producer_of_notMem hpoint]
      exact ⟨hpoint, Or.inl rfl⟩
  · rintro ⟨hid, rfl | ⟨field, rfl⟩⟩
    · exact producer_of_notMem hid
    · exact producer_path hid field

end Token

/-! ## Nodes -/

/-- The node has the id, and no node before it has. -/
def IsFirstWithId (nodes : List Node) (id : String) (node : Node) : Prop :=
  node.id = id ∧ ∃ before behind, nodes = before ++ node :: behind ∧
    ∀ other ∈ before, other.id ≠ id

theorem nodeWithId?_eq_some_iff {nodes : List Node} {id : String} {node : Node} :
    nodeWithId? nodes id = some node ↔ IsFirstWithId nodes id node := by
  simp only [nodeWithId?, List.find?_eq_some_iff_append, IsFirstWithId, decide_eq_true_eq,
    Bool.not_eq_true', decide_eq_false_iff_not, ne_eq]

theorem nodeWithId?_eq_none_iff {nodes : List Node} {id : String} :
    nodeWithId? nodes id = none ↔ ∀ node ∈ nodes, node.id ≠ id := by
  simp only [nodeWithId?, List.find?_eq_none, decide_eq_true_eq, ne_eq]

/-- What an id is shown as: the name of the first node with the id, and the id itself if that node
has no name or no node has the id. -/
inductive IsShownAs (nodes : List Node) (id : String) : String → Prop
  | named {node : Node} (hnode : IsFirstWithId nodes id node) (hname : node.name ≠ "") :
      IsShownAs nodes id node.name
  | unnamed {node : Node} (hnode : IsFirstWithId nodes id node) (hname : node.name = "") :
      IsShownAs nodes id id
  | missing (hnodes : ∀ node ∈ nodes, node.id ≠ id) : IsShownAs nodes id id

theorem NodeIndex.originName_eq_iff {nodes : List Node} {id name : String} :
    (ofNodes nodes).originName id = name ↔ IsShownAs nodes id name := by
  rw [originName_ofNodes]
  constructor
  · rintro rfl
    cases hfound : nodeWithId? nodes id with
    | none => exact .missing (nodeWithId?_eq_none_iff.mp hfound)
    | some node =>
        have hnode := nodeWithId?_eq_some_iff.mp hfound
        by_cases hname : node.name = ""
        · simpa [Node.displayName, hname, hnode.1] using IsShownAs.unnamed hnode hname
        · simpa [Node.displayName, hname] using IsShownAs.named hnode hname
  · intro h
    cases h with
    | named hnode hname => simp [nodeWithId?_eq_some_iff.mpr hnode, Node.displayName, hname]
    | unnamed hnode hname =>
        simp [nodeWithId?_eq_some_iff.mpr hnode, Node.displayName, hname, hnode.1]
    | missing hnodes => simp [nodeWithId?_eq_none_iff.mpr hnodes]

/-! ## Parameters -/

namespace Param

/-- The parameter does not stand for itself, but for the records in its value. -/
def IsRecordList (param : Param) : Prop :=
  param.kind = .form ∨ param.kind = .codeOutput ∨
    (param.kind = .var ∧ ∃ record others, param.value = .arr (record :: others))

/-- A parameter of the node `producer` supplies the value that a token names. -/
inductive Supplies (producer : String) (param : Param) (token : String) : Prop
  /-- An element of a list of texts, its index written in any digits. -/
  | element {digits : String} {index : Nat} {items : List Json.Value} {text : String}
      (hkind : param.kind = .inputList)
      (htoken : token = Token.path producer param.key ++ "#" ++ digits)
      (hindex : Token.IsIndex digits index) (hvalue : param.value = .arr items)
      (hitem : items[index]? = some (.str text)) (htext : text ≠ "")
  /-- A record with a key. -/
  | record {items : List Json.Value} {record : Json.Value} {key : String}
      (hshape : param.IsRecordList) (hvalue : param.value = .arr items) (hrecord : record ∈ items)
      (hkey : record.member? "key" = some (.str key)) (htoken : token = Token.path producer key)
  /-- The parameter as a whole.  A list of texts is not meant if an index follows. -/
  | whole (hindex : param.kind = .inputList → ¬Token.HasIndex token)
      (hshape : ¬param.IsRecordList) (htoken : token = Token.path producer param.key)

theorem records?_eq_some_iff {param : Param} {records : List Json.Value} :
    param.records? = some records ↔ param.IsRecordList ∧ param.items = records := by
  unfold records? IsRecordList items
  cases param.kind with
  | form => simp
  | codeOutput => simp
  | var =>
      cases param.value with
      | arr items => cases items <;> simp [Json.Value.arr?]
      | _ => simp [Json.Value.arr?]
  | _ => simp

theorem records?_eq_none_iff {param : Param} : param.records? = none ↔ ¬param.IsRecordList := by
  constructor
  · intro hnone hshape
    rw [records?_eq_some_iff.mpr ⟨hshape, rfl⟩] at hnone
    cases hnone
  · intro hshape
    cases hrecords : param.records? with
    | none => rfl
    | some records => exact absurd (records?_eq_some_iff.mp hrecords).1 hshape

/-- A list of texts is asked for an element if an index follows. -/
theorem resolves_element_iff {producer list : String} {param : Param} {token : String} {index : Nat}
    (hkind : param.kind = .inputList) (hsplit : Token.splitIndex token = (list, some index)) :
    param.resolves producer token = true ↔
      Token.path producer param.key = list ∧ ∃ items text,
        param.value = .arr items ∧ items[index]? = some (.str text) ∧ text ≠ "" := by
  rw [resolves, hkind, hsplit]
  simp only [Bool.and_eq_true, decide_eq_true_eq, Option.any_eq_true, isListed_iff]
  refine and_congr_right fun _ => ⟨?_, ?_⟩
  · rintro ⟨item, hitem, text, rfl, htext⟩
    exact ⟨param.items, text, value_of_mem_items (List.mem_of_getElem? hitem), hitem, htext⟩
  · rintro ⟨items, text, hvalue, hitem, htext⟩
    exact ⟨.str text, items_of_value hvalue ▸ hitem, text, rfl, htext⟩

/-- Anything else is asked for the key of a record, or for its own key if it has no records. -/
theorem resolves_key_iff {producer : String} {param : Param} {token : String}
    (h : param.kind = .inputList → ¬Token.HasIndex token) :
    param.resolves producer token = true ↔
      (∃ records, param.records? = some records ∧ ∃ record ∈ records, ∃ key,
        recordKey? record = some key ∧ Token.path producer key = token) ∨
      (param.records? = none ∧ Token.path producer param.key = token) := by
  unfold resolves
  split
  · rename_i list index hkind hsplit
    obtain ⟨digits, htoken, hindex⟩ := Token.splitIndex_eq_some_iff.mp hsplit
    exact absurd ⟨list, digits, index, htoken, hindex⟩ (h hkind)
  · cases param.records? with
    | none => simp
    | some records =>
        simp only [List.any_eq_true, List.mem_filterMap, decide_eq_true_eq, Option.some.injEq,
          reduceCtorEq, false_and, or_false]
        constructor
        · rintro ⟨key, ⟨record, hrecord, hkey⟩, htoken⟩
          exact ⟨records, rfl, record, hrecord, key, hkey, htoken⟩
        · rintro ⟨_, rfl, record, hrecord, key, hkey, htoken⟩
          exact ⟨key, ⟨record, hrecord, hkey⟩, htoken⟩

/-- A parameter resolves the tokens that it supplies. -/
theorem resolves_iff_supplies {producer : String} {param : Param} {token : String} :
    param.resolves producer token = true ↔ param.Supplies producer token := by
  by_cases hindexed : param.kind = .inputList ∧ Token.HasIndex token
  · obtain ⟨hkind, list, digits, index, htoken, hindex⟩ := hindexed
    have hsplit := Token.splitIndex_eq_some_iff.mpr ⟨digits, htoken, hindex⟩
    rw [resolves_element_iff hkind hsplit]
    constructor
    · rintro ⟨rfl, items, text, hvalue, hitem, htext⟩
      exact .element hkind htoken hindex hvalue hitem htext
    · intro h
      cases h with
      | element _ htoken' hindex' hvalue hitem htext =>
          -- The digits behind the last number sign are the same in both readings of the token.
          have hsame := Token.splitIndex_eq_some_iff.mpr ⟨_, htoken', hindex'⟩
          rw [hsplit] at hsame
          cases hsame
          exact ⟨rfl, _, _, hvalue, hitem, htext⟩
      | record hshape => simp [IsRecordList, hkind] at hshape
      | whole hno => exact absurd ⟨list, digits, index, htoken, hindex⟩ (hno hkind)
  · have hno : param.kind = .inputList → ¬Token.HasIndex token :=
      fun hkind hindex => hindexed ⟨hkind, hindex⟩
    rw [resolves_key_iff hno]
    constructor
    · rintro (⟨records, hrecords, record, hmem, key, hkey, htoken⟩ | ⟨hnone, htoken⟩)
      · obtain ⟨hshape, rfl⟩ := records?_eq_some_iff.mp hrecords
        exact .record hshape (value_of_mem_items hmem) hmem (recordKey?_eq_some_iff.mp hkey)
          htoken.symm
      · exact .whole hno (records?_eq_none_iff.mp hnone) htoken.symm
    · intro h
      cases h with
      | element hkind htoken hindex =>
          exact absurd ⟨_, _, _, htoken, hindex⟩ (hno hkind)
      | record hshape hvalue hmem hkey htoken =>
          exact Or.inl ⟨_, records?_eq_some_iff.mpr ⟨hshape, items_of_value hvalue⟩, _, hmem, _,
            recordKey?_eq_some_iff.mpr hkey, htoken.symm⟩
      | whole _ hshape htoken => exact Or.inr ⟨records?_eq_none_iff.mpr hshape, htoken.symm⟩

end Param

/-! ## Verdicts -/

/-- The first node with the id of a token's producer supplies the value that the token names. -/
def IsSupplied (nodes : List Node) (token : String) : Prop :=
  ∃ id node, Token.IsProducer token id ∧ IsFirstWithId nodes id node ∧
    ∃ param ∈ node.params, param.Supplies id token

/-- What is missing if a token does not resolve. -/
inductive IsMissing (nodes : List Node) (token : String) : Failure → Prop
  | node {id : String} (hid : Token.IsProducer token id) (hnodes : ∀ node ∈ nodes, node.id ≠ id) :
      IsMissing nodes token .nodeNotFound
  | field {id : String} {node : Node} (hid : Token.IsProducer token id)
      (hnode : IsFirstWithId nodes id node)
      (hparams : ∀ param ∈ node.params, ¬param.Supplies id token) :
      IsMissing nodes token .fieldNotFound

/-- The verdict on a token in a text of the node `origin`: none if the token is supplied, and else the
error that says what is missing, what the origin and the token are shown as, and the producer. -/
inductive IsVerdict (nodes : List Node) (origin token : String) (label? : Option String) :
    Option ReferenceError → Prop
  | supplied (h : IsSupplied nodes token) : IsVerdict nodes origin token label? none
  | missing {error : ReferenceError} (hfailure : IsMissing nodes token error.failure)
      (horigin : IsShownAs nodes origin error.origin) (hlabel : error.label = label?.getD token)
      (hproducer : Token.IsProducer token error.producer) :
      IsVerdict nodes origin token label? (some error)

theorem Node.any_resolves_iff {node : Node} {id token : String} :
    (node.params.any fun param => param.resolves id token) = true ↔
      ∃ param ∈ node.params, param.Supplies id token := by
  simp only [List.any_eq_true, Param.resolves_iff_supplies]

section Failures

variable {nodes : List Node} {token id : String} (hid : Token.IsProducer token id)

include hid

theorem NodeIndex.failure?_of_forall_ne (hnodes : ∀ node ∈ nodes, node.id ≠ id) :
    (ofNodes nodes).failure? token = some .nodeNotFound := by
  rw [failure?_ofNodes, Token.producer_eq_iff.mpr hid, nodeWithId?_eq_none_iff.mpr hnodes]
  rfl

/-- Of the nodes with the id of the producer only the first is asked. -/
theorem NodeIndex.failure?_of_isFirstWithId {node : Node} (hnode : IsFirstWithId nodes id node) :
    (ofNodes nodes).failure? token =
      if node.params.any fun param => param.resolves id token then none
      else some .fieldNotFound := by
  rw [failure?_ofNodes, Token.producer_eq_iff.mpr hid, nodeWithId?_eq_some_iff.mpr hnode]
  rfl

end Failures

theorem NodeIndex.failure?_eq_none_iff {nodes : List Node} {token : String} :
    (ofNodes nodes).failure? token = none ↔ IsSupplied nodes token := by
  constructor
  · intro h
    have hid : Token.IsProducer token (Token.producer token) := Token.producer_eq_iff.mp rfl
    cases hfound : nodeWithId? nodes (Token.producer token) with
    | none =>
        rw [failure?_of_forall_ne hid (nodeWithId?_eq_none_iff.mp hfound)] at h
        cases h
    | some node =>
        have hnode := nodeWithId?_eq_some_iff.mp hfound
        rw [failure?_of_isFirstWithId hid hnode] at h
        split at h
        · rename_i hany
          exact ⟨_, node, hid, hnode, Node.any_resolves_iff.mp hany⟩
        · cases h
  · rintro ⟨id, node, hid, hnode, hparams⟩
    rw [failure?_of_isFirstWithId hid hnode, if_pos (Node.any_resolves_iff.mpr hparams)]

theorem NodeIndex.failure?_eq_some_iff {nodes : List Node} {token : String} {failure : Failure} :
    (ofNodes nodes).failure? token = some failure ↔ IsMissing nodes token failure := by
  constructor
  · intro h
    have hid : Token.IsProducer token (Token.producer token) := Token.producer_eq_iff.mp rfl
    cases hfound : nodeWithId? nodes (Token.producer token) with
    | none =>
        have hnodes := nodeWithId?_eq_none_iff.mp hfound
        rw [failure?_of_forall_ne hid hnodes] at h
        obtain rfl := Option.some.inj h
        exact .node hid hnodes
    | some node =>
        have hnode := nodeWithId?_eq_some_iff.mp hfound
        rw [failure?_of_isFirstWithId hid hnode] at h
        split at h
        · cases h
        · rename_i hany
          obtain rfl := Option.some.inj h
          exact .field hid hnode fun param hparam hsupplies =>
            hany (Node.any_resolves_iff.mpr ⟨param, hparam, hsupplies⟩)
  · intro h
    cases h with
    | node hid hnodes => exact failure?_of_forall_ne hid hnodes
    | field hid hnode hparams =>
        have hany := mt Node.any_resolves_iff.mp fun ⟨param, hparam, hsupplies⟩ =>
          hparams param hparam hsupplies
        rw [failure?_of_isFirstWithId hid hnode, if_neg hany]

/-- **The index finds what a search finds.**  For any nodes, with ids used more than once or not, the
verdict on a token that is found through the index of the nodes is the one that is found by search. -/
theorem NodeIndex.validate?_eq_iff (nodes : List Node) (origin token : String)
    (label? : Option String) (verdict : Option ReferenceError) :
    (ofNodes nodes).validate? origin token label? = verdict ↔
      IsVerdict nodes origin token label? verdict := by
  rw [validate?]
  constructor
  · rintro rfl
    cases hfailure : (ofNodes nodes).failure? token with
    | none => exact .supplied (failure?_eq_none_iff.mp hfailure)
    | some failure =>
        exact .missing (failure?_eq_some_iff.mp hfailure) (originName_eq_iff.mp rfl) rfl
          (Token.producer_eq_iff.mp rfl)
  · intro h
    cases h with
    | supplied h => rw [failure?_eq_none_iff.mpr h, Option.map_none]
    | missing hfailure horigin hlabel hproducer =>
        rename_i error
        rw [failure?_eq_some_iff.mpr hfailure, Option.map_some, errorOf,
          originName_eq_iff.mpr horigin, Token.producer_eq_iff.mpr hproducer, ← hlabel]

end Workflow
