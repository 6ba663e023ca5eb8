import Workflow.Catalog
import Workflow.Proofs.Token.Split
import Workflow.Reference.Resolution

/-!
# Variables and resolution

The catalog lists tokens, and the resolution tests them; each follows the shapes of parameters in
its own way.  A token whose producer is a node resolves just if the node offers it
(`Node.Offers`): the token is that of a variable that the node has if all its parameters are
exposed, or it names a list of texts as a whole, or an element of such a list with the index written
in some way.
-/

namespace Workflow

/-- The node with all its parameters exposed. -/
def Node.exposeAll (node : Node) : Node :=
  let exposeGroup (group : ParamGroup) : ParamGroup :=
    { group with params := group.params.map fun param => { param with exposed := true } }
  { node with groups := node.groups.map exposeGroup }

@[simp] theorem Node.params_exposeAll (node : Node) :
    node.exposeAll.params = node.params.map fun param => { param with exposed := true } := by
  simp [Node.exposeAll, Node.params, List.map_flatMap, List.flatMap_map]

@[simp] theorem Node.exposedVariables_exposeAll (node : Node) :
    node.exposeAll.exposedVariables = node.params.flatMap (Param.offers node) := by
  have hall : (node.params.filter (Param.exposed ∘ fun param => { param with exposed := true })) =
      node.params := List.filter_eq_self.mpr fun _ _ => rfl
  simp only [Node.exposedVariables, Node.params_exposeAll, List.filter_map, List.flatMap_map, hall]
  rfl

namespace Param

variable {node : Node} {param : Param} {token : String}

/-- A list of texts offers its elements that can be referred to. -/
theorem mem_offers_inputList (hkind : param.kind = .inputList) :
    (∃ offered ∈ param.offers node, offered.token = token) ↔
      ∃ index, (param.items[index]?).any isListed = true ∧
        token = Token.element (Token.path node.id param.key) index := by
  rw [offers, if_pos hkind]
  simp only [List.mem_filterMap, Prod.exists, List.mem_zipIdx_iff_getElem?]
  constructor
  · rintro ⟨offered, ⟨item, index, hitem, hoffered⟩, rfl⟩
    unfold elementVariable? at hoffered
    split at hoffered
    · rename_i hlisted
      cases hoffered
      exact ⟨index, by rw [hitem]; exact hlisted, rfl⟩
    · cases hoffered
  · rintro ⟨index, hlisted, rfl⟩
    cases hitem : param.items[index]? with
    | none => simp [hitem] at hlisted
    | some item =>
        rw [hitem] at hlisted
        exact ⟨_, ⟨item, index, hitem, if_pos hlisted⟩, rfl⟩

theorem lt_length_of_any {items : List Json.Value} {index : Nat}
    (h : (items[index]?).any isListed = true) : index < items.length := by
  cases hitem : items[index]? with
  | none => simp [hitem] at h
  | some item => exact (List.getElem?_eq_some_iff.mp hitem).1

/-- A list of texts resolves an element that can be referred to, however its index is written, and
itself if no index follows. -/
theorem resolves_inputList_iff (hkind : param.kind = .inputList)
    (hlength : param.items.length < Token.indexBound) :
    param.resolves node.id token = true ↔
      (token = Token.path node.id param.key ∧ ¬Token.HasIndex token) ∨
      ∃ base digits index, token = base ++ "#" ++ digits ∧ Token.IsIndex digits index ∧
        ∃ offered ∈ param.offers node, offered.token = Token.element base index := by
  simp only [mem_offers_inputList hkind]
  cases hsplit : Token.splitIndex token with
  | mk list index? =>
      cases index? with
      | none =>
          have hno := Token.not_hasIndex_of_splitIndex hsplit
          have hrecords : param.records? = none := by simp [records?, hkind]
          rw [resolves, hkind, hsplit]
          simp only [hrecords, decide_eq_true_eq]
          constructor
          · exact fun h => Or.inl ⟨h.symm, hno⟩
          · rintro (⟨h, _⟩ | ⟨base, digits, index, htoken, hindex, _⟩)
            · exact h.symm
            · exact absurd ⟨base, digits, index, htoken, hindex⟩ hno
      | some index =>
          obtain ⟨digits, htoken, hindex⟩ := Token.splitIndex_eq_some_iff.mp hsplit
          rw [resolves, hkind, hsplit]
          simp only [Bool.and_eq_true, decide_eq_true_eq]
          constructor
          · rintro ⟨hlist, hlisted⟩
            exact Or.inr ⟨list, digits, index, htoken, hindex, index, hlisted, by rw [hlist]⟩
          · rintro (⟨_, hno⟩ | ⟨base, digits', index', htoken', hindex', place, hlisted, helement⟩)
            · exact absurd ⟨list, digits, index, htoken, hindex⟩ hno
            · -- Both spellings of the element are split into the same list and index.
              have hbase := Token.splitIndex_eq_some_iff.mpr ⟨digits', htoken', hindex'⟩
              have hplace := Nat.lt_trans (lt_length_of_any hlisted) hlength
              have helement' := Token.splitIndex_element base hindex'.2.2.2
              rw [helement, Token.splitIndex_element _ hplace] at helement'
              rw [hsplit] at hbase
              cases hbase
              cases helement'
              exact ⟨rfl, hlisted⟩

/-- A parameter that is no list of texts resolves the tokens that it offers. -/
theorem resolves_iff_of_ne_inputList (hkind : param.kind ≠ .inputList) :
    param.resolves node.id token = true ↔
      ∃ offered ∈ param.offers node, offered.token = token := by
  unfold resolves offers
  rw [if_neg hkind]
  split
  · rename_i hlist _
    exact absurd hlist hkind
  · cases param.records? with
    | none => simp
    | some records =>
        simp only [List.any_eq_true, List.mem_filterMap, decide_eq_true_eq, recordVariable?,
          Option.map_eq_some_iff]
        constructor
        · rintro ⟨key, ⟨record, hrecord, hkey⟩, rfl⟩
          exact ⟨_, ⟨record, hrecord, key, hkey, rfl⟩, rfl⟩
        · rintro ⟨_, ⟨record, hrecord, key, hkey, rfl⟩, rfl⟩
          exact ⟨key, ⟨record, hrecord, hkey⟩, rfl⟩

end Param

/-- A token of a node resolves if a parameter of the node offers it. -/
theorem validate?_eq_none_iff {nodes : List Node} {node : Node}
    (hfirst : nodeWithId? nodes node.id = some node) {token : String}
    (htoken : Token.producer token = node.id) (origin : String) (label? : Option String) :
    validate? nodes origin token label? = none ↔
      ∃ param ∈ node.params, param.resolves node.id token = true := by
  rw [validate?, NodeIndex.validate?, Option.map_eq_none_iff, NodeIndex.failure?,
    NodeIndex.node?_ofNodes, htoken, hfirst]
  simp only [ite_eq_left_iff, reduceCtorEq, imp_false, Classical.not_not, List.any_eq_true]

/-- A node offers an element of a list of texts under the index in decimal form. -/
def Node.OffersElement (node : Node) (list : String) (index : Nat) : Prop :=
  ∃ param ∈ node.params, param.kind = .inputList ∧
    ∃ offered ∈ param.offers node, offered.token = Token.element list index

/-- A token refers to something that the node offers: a variable that the node has if all its
parameters are exposed, a list of texts as a whole, or an element of one, its index in any digits. -/
def Node.Offers (node : Node) (token : String) : Prop :=
  (∃ offered ∈ node.exposeAll.exposedVariables, offered.token = token) ∨
  (∃ param ∈ node.params, param.kind = .inputList ∧ token = Token.path node.id param.key ∧
    ¬Token.HasIndex token) ∨
  ∃ list digits index, token = list ++ "#" ++ digits ∧ Token.IsIndex digits index ∧
    node.exposeAll.OffersElement list index

@[simp] theorem Node.offersElement_exposeAll {node : Node} {list : String} {index : Nat} :
    node.exposeAll.OffersElement list index ↔ node.OffersElement list index := by
  simp only [Node.OffersElement, Node.params_exposeAll]
  constructor
  · rintro ⟨_, hmem, hkind, hoffered⟩
    obtain ⟨param, hparam, rfl⟩ := List.mem_map.mp hmem
    exact ⟨param, hparam, hkind, hoffered⟩
  · rintro ⟨param, hparam, hkind, hoffered⟩
    exact ⟨_, List.mem_map_of_mem hparam, hkind, hoffered⟩

/-- The parameters of a node resolve the tokens that the node offers. -/
theorem Node.exists_resolves_iff_offers {node : Node}
    (hlength : ∀ param ∈ node.params, param.items.length < Token.indexBound) (token : String) :
    (∃ param ∈ node.params, param.resolves node.id token = true) ↔ node.Offers token := by
  unfold Node.Offers
  simp only [Node.exposedVariables_exposeAll, List.mem_flatMap, Node.offersElement_exposeAll]
  constructor
  · rintro ⟨param, hparam, hresolves⟩
    by_cases hkind : param.kind = .inputList
    · rcases (Param.resolves_inputList_iff hkind (hlength param hparam)).mp hresolves with
        ⟨htoken, hno⟩ | ⟨list, digits, index, htoken, hindex, hoffered⟩
      · exact Or.inr (Or.inl ⟨param, hparam, hkind, htoken, hno⟩)
      · exact Or.inr (Or.inr
          ⟨list, digits, index, htoken, hindex, param, hparam, hkind, hoffered⟩)
    · obtain ⟨offered, hoffered, htoken⟩ :=
        (Param.resolves_iff_of_ne_inputList hkind).mp hresolves
      exact Or.inl ⟨offered, ⟨param, hparam, hoffered⟩, htoken⟩
  · rintro (⟨offered, ⟨param, hparam, hoffered⟩, htoken⟩ | ⟨param, hparam, hkind, hwhole⟩ |
      ⟨list, digits, index, htoken, hindex, param, hparam, hkind, hoffered⟩)
    · refine ⟨param, hparam, ?_⟩
      by_cases hkind : param.kind = .inputList
      · -- A variable of a list is an element with its index in decimal form.
        obtain ⟨index, hlisted, helement⟩ :=
          (Param.mem_offers_inputList hkind).mp ⟨offered, hoffered, htoken⟩
        have hbound := Nat.lt_trans (Param.lt_length_of_any hlisted) (hlength param hparam)
        exact (Param.resolves_inputList_iff hkind (hlength param hparam)).mpr
          (Or.inr ⟨_, _, index, helement, Token.isIndex_repr hbound, offered, hoffered,
            htoken.trans helement⟩)
      · exact (Param.resolves_iff_of_ne_inputList hkind).mpr ⟨offered, hoffered, htoken⟩
    · exact ⟨param, hparam,
        (Param.resolves_inputList_iff hkind (hlength param hparam)).mpr (Or.inl hwhole)⟩
    · exact ⟨param, hparam, (Param.resolves_inputList_iff hkind (hlength param hparam)).mpr
        (Or.inr ⟨list, digits, index, htoken, hindex, hoffered⟩)⟩

/-- What a parameter of a node offers is a field of the node or an element of one. -/
theorem Param.of_mem_offers {node : Node} {param : Param} {offered : Variable}
    (h : offered ∈ param.offers node) :
    offered.nodeId = node.id ∧ ∃ field, offered.token = Token.path node.id field := by
  unfold offers at h
  split at h
  · simp only [List.mem_filterMap, Prod.exists] at h
    obtain ⟨item, index, _, hoffered⟩ := h
    unfold elementVariable? at hoffered
    split at hoffered
    · cases hoffered
      exact ⟨rfl, _, Token.element_path node.id param.key index⟩
    · cases hoffered
  · split at h
    · simp only [List.mem_filterMap, recordVariable?, Option.map_eq_some_iff] at h
      obtain ⟨record, _, key, _, rfl⟩ := h
      exact ⟨rfl, key, rfl⟩
    · rw [List.mem_singleton.mp h]
      exact ⟨rfl, param.key, rfl⟩

/-- The producer of a token that a node offers is the node. -/
theorem Param.producer_of_mem_offers {node : Node} (hid : '.' ∉ node.id.toList) {param : Param}
    {offered : Variable} (h : offered ∈ param.offers node) :
    Token.producer offered.token = node.id := by
  obtain ⟨_, field, htoken⟩ := Param.of_mem_offers h
  rw [htoken, Token.producer_path hid]

theorem Node.offers_of_mem_exposedVariables {node : Node} {offered : Variable}
    (h : offered ∈ node.exposedVariables) : node.Offers offered.token := by
  obtain ⟨param, hparam, hoffered⟩ := List.mem_flatMap.mp h
  refine Or.inl ⟨offered, ?_, rfl⟩
  simpa using List.mem_flatMap_of_mem (List.mem_filter.mp hparam).1 hoffered

/-- A variable of a node resolves. -/
theorem validate?_of_mem_exposedVariables {nodes : List Node} {node : Node}
    (hfirst : nodeWithId? nodes node.id = some node) (hid : '.' ∉ node.id.toList)
    (hlength : ∀ param ∈ node.params, param.items.length < Token.indexBound) {offered : Variable}
    (h : offered ∈ node.exposedVariables) (origin : String) (label? : Option String) :
    validate? nodes origin offered.token label? = none := by
  obtain ⟨param, _, hmem⟩ := List.mem_flatMap.mp h
  rw [validate?_eq_none_iff hfirst (Param.producer_of_mem_offers hid hmem),
    Node.exists_resolves_iff_offers hlength]
  exact Node.offers_of_mem_exposedVariables h

/-- A token of a node resolves just if the node offers it, and so does every variable of the node. -/
theorem validate?_eq_none_iff_offers {nodes : List Node} {node : Node}
    (hfirst : nodeWithId? nodes node.id = some node) (hid : '.' ∉ node.id.toList)
    (hlength : ∀ param ∈ node.params, param.items.length < Token.indexBound)
    (origin : String) (label? : Option String) :
    (∀ token, Token.producer token = node.id →
      (validate? nodes origin token label? = none ↔ node.Offers token)) ∧
    ∀ offered ∈ node.exposedVariables, validate? nodes origin offered.token label? = none := by
  refine ⟨fun token htoken => ?_, fun offered hoffered =>
    validate?_of_mem_exposedVariables hfirst hid hlength hoffered origin label?⟩
  rw [validate?_eq_none_iff hfirst htoken, Node.exists_resolves_iff_offers hlength]

/-- An element of a list resolves under its index in other digits, and so does its variable. -/
theorem validate?_eq_none_iff_offers_leading_zero :
    let files : Param :=
      { key := "files", label? := none, kind := .inputList, value := .arr [.str "a", .str ""],
        exposed := true }
    let start : Node :=
      { id := "start", name := "", kind := "", groups := [⟨none, [files]⟩], labels := .empty }
    nodeWithId? [start] start.id = some start ∧ '.' ∉ start.id.toList ∧
      (∀ param ∈ start.params, param.items.length < Token.indexBound) ∧
      Token.producer "start.files#00" = start.id ∧
      validate? [start] "start" "start.files#00" none = none ∧
      ∀ offered ∈ start.exposedVariables,
        validate? [start] "start" offered.token none = none := by
  intro files start
  have hfirst : nodeWithId? [start] start.id = some start := rfl
  have hid : '.' ∉ start.id.toList := by decide
  have hlength : ∀ param ∈ start.params, param.items.length < Token.indexBound := by decide
  have hproducer : Token.producer "start.files#00" = start.id := by cbv
  have hindex : Token.IsIndex "00" 0 := Token.index?_eq_some_iff.mp (by decide)
  have h := validate?_eq_none_iff_offers hfirst hid hlength "start" none
  refine ⟨hfirst, hid, hlength, hproducer, (h.1 _ hproducer).mpr ?_, h.2⟩
  refine Or.inr (Or.inr ⟨"start.files", "00", 0, by decide, hindex, ?_⟩)
  exact Node.offersElement_exposeAll.mpr ⟨files, List.mem_singleton_self files, rfl,
    (Param.mem_offers_inputList rfl).mpr ⟨0, by decide, by decide⟩⟩

end Workflow
