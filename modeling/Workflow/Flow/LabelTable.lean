import Workflow.Keyed

/-!
# Label tables

A label table gives some tokens a label to be shown by.  Its entries stand in ascending order of
token, so that tables with the same entries are equal, and of several tokens with one label the
least is found (`tokenFor?_eq_some_iff`).
-/

namespace Workflow

/-- The labels of some tokens. -/
structure LabelTable where
  entries : List (String × String)
  ascending : Keyed.Ascending entries

namespace LabelTable

def empty : LabelTable :=
  ⟨[], List.Pairwise.nil⟩

instance : Inhabited LabelTable := ⟨empty⟩

/-- The table of some pairs, the last of several with one token in force. -/
def ofList (pairs : List (String × String)) : LabelTable :=
  ⟨Keyed.ofList pairs, Keyed.ascending_ofList pairs⟩

def get? (table : LabelTable) (token : String) : Option String :=
  Keyed.find? token table.entries

/-- Labels a token, in place of an earlier label if it has one. -/
def insert (table : LabelTable) (token label : String) : LabelTable :=
  ⟨Keyed.insert token label table.entries, Keyed.ascending_insert token label table.ascending⟩

/-- Drops the label of a token. -/
def erase (table : LabelTable) (token : String) : LabelTable :=
  ⟨Keyed.erase token table.entries, Keyed.ascending_erase token table.ascending⟩

/-- Keeps the entries whose token passes a test. -/
def keep (table : LabelTable) (test : String → Bool) : LabelTable :=
  ⟨table.entries.filter fun entry => test entry.1, List.Pairwise.filter _ table.ascending⟩

/-- The least token with a given label. -/
def tokenFor? (table : LabelTable) (label : String) : Option String :=
  (table.entries.find? fun entry => entry.2 = label).map fun entry => entry.1

def tokens (table : LabelTable) : List String :=
  table.entries.map fun entry => entry.1

def size (table : LabelTable) : Nat :=
  table.entries.length

def isEmpty (table : LabelTable) : Bool :=
  table.entries.isEmpty

@[simp] theorem get?_empty (token : String) : empty.get? token = none :=
  rfl

@[simp] theorem get?_insert (table : LabelTable) (token label other : String) :
    (table.insert token label).get? other =
      if token = other then some label else table.get? other := by
  simp [get?, insert]

@[simp] theorem entries_foldl_insert (labels : List (String × String)) (table : LabelTable) :
    (labels.foldl (fun table label => table.insert label.1 label.2) table).entries =
      labels.foldl (fun entries label => Keyed.insert label.1 label.2 entries) table.entries := by
  induction labels generalizing table with
  | nil => rfl
  | cons label labels ih => exact ih (table.insert label.1 label.2)

@[simp] theorem get?_erase (table : LabelTable) (token other : String) :
    (table.erase token).get? other = if token = other then none else table.get? other := by
  simp [get?, erase]

theorem mem_entries_iff (table : LabelTable) {token label : String} :
    (token, label) ∈ table.entries ↔ table.get? token = some label :=
  (Keyed.find?_eq_some_iff table.ascending).symm

@[ext]
theorem ext {table other : LabelTable} (h : table.entries = other.entries) : table = other := by
  cases table
  cases other
  cases h
  rfl

/-- What is kept has its label from before. -/
@[simp] theorem get?_keep_eq_some_iff (table : LabelTable) (test : String → Bool)
    {token label : String} :
    (table.keep test).get? token = some label ↔
      table.get? token = some label ∧ test token = true := by
  rw [← mem_entries_iff, ← mem_entries_iff]
  exact List.mem_filter

@[simp] theorem mem_tokens_keep_iff (table : LabelTable) (test : String → Bool) {token : String} :
    token ∈ (table.keep test).tokens ↔ token ∈ table.tokens ∧ test token = true := by
  simp only [tokens, keep, List.mem_map, List.mem_filter, and_assoc]
  constructor
  · rintro ⟨entry, hentry, htest, rfl⟩
    exact ⟨⟨entry, hentry, rfl⟩, htest⟩
  · rintro ⟨⟨entry, hentry, rfl⟩, htest⟩
    exact ⟨entry, hentry, htest, rfl⟩

/-- Only the tokens of the table have to pass the same tests. -/
theorem keep_congr {table : LabelTable} {test other : String → Bool}
    (h : ∀ token ∈ table.tokens, test token = other token) : table.keep test = table.keep other :=
  LabelTable.ext (List.filter_congr fun _ hentry => h _ (List.mem_map_of_mem hentry))

theorem keep_eq_self {table : LabelTable} {test : String → Bool}
    (h : ∀ token ∈ table.tokens, test token = true) : table.keep test = table :=
  LabelTable.ext (List.filter_eq_self.mpr fun _ hentry => h _ (List.mem_map_of_mem hentry))

/-- Dropping tokens one by one keeps the others. -/
@[simp] theorem foldl_erase (tokens : List String) (table : LabelTable) :
    tokens.foldl erase table = table.keep fun token => token ∉ tokens := by
  induction tokens generalizing table with
  | nil => exact (keep_eq_self fun _ _ => by simp).symm
  | cons token rest ih =>
      rw [List.foldl_cons, ih]
      apply LabelTable.ext
      show ((table.entries.filter fun entry => entry.1 ≠ token).filter fun entry =>
          entry.1 ∉ rest) = table.entries.filter fun entry => entry.1 ∉ token :: rest
      rw [List.filter_filter]
      refine List.filter_congr fun entry _ => ?_
      rw [Bool.eq_iff_iff]
      simp [and_comm]

/-- A table holds what is kept of it and what is not. -/
theorem size_keep_add (table : LabelTable) (test : String → Bool) :
    (table.keep test).size + (table.tokens.filter fun token => !test token).length =
      table.size := by
  have hsplit := List.length_eq_countP_add_countP (fun entry => test entry.1) (l := table.entries)
  rw [size, size, keep, tokens, ← List.countP_eq_length_filter, ← List.countP_eq_length_filter,
    List.countP_map, hsplit]
  simp [Function.comp_def]

/-- A token is the least of those with a given label. -/
def IsLeastFor (table : LabelTable) (label token : String) : Prop :=
  table.get? token = some label ∧ ∀ other, table.get? other = some label → token ≤ other

/-- The token found for a label is the least one that has it. -/
theorem tokenFor?_eq_some_iff (table : LabelTable) {label token : String} :
    table.tokenFor? label = some token ↔ table.IsLeastFor label token := by
  have hleast : ∀ found, table.tokenFor? label = some found → table.IsLeastFor label found := by
    intro found h
    simp only [tokenFor?, Option.map_eq_some_iff] at h
    obtain ⟨⟨t, l⟩, hfind, rfl⟩ := h
    obtain ⟨hl, before, after, hsplit, hbefore⟩ := List.find?_eq_some_iff_append.mp hfind
    have hl : l = label := of_decide_eq_true hl
    subst hl
    refine ⟨table.mem_entries_iff.mp (List.mem_of_find?_eq_some hfind), fun other hother => ?_⟩
    have hasc := table.ascending
    rw [hsplit] at hasc
    have hmem := table.mem_entries_iff.mpr hother
    rw [hsplit, List.mem_append, List.mem_cons] at hmem
    rcases hmem with hmem | heq | hmem
    · simpa using hbefore _ hmem
    · exact (Prod.mk.inj heq).1 ▸ String.le_refl other
    · exact String.lt_asymm ((List.pairwise_cons.mp (List.pairwise_append.mp hasc).2.1).1 _ hmem)
  refine ⟨hleast token, fun h => ?_⟩
  cases hfound : table.tokenFor? label with
  | none =>
      simp only [tokenFor?, Option.map_eq_none_iff, List.find?_eq_none] at hfound
      simpa using hfound _ (table.mem_entries_iff.mpr h.1)
  | some found =>
      have hother := hleast found hfound
      exact congrArg some (String.le_antisymm (hother.2 token h.1) (h.2 found hother.1))

/-- No token is found for a label that no token has. -/
theorem tokenFor?_eq_none_iff (table : LabelTable) {label : String} :
    table.tokenFor? label = none ↔ ∀ token, table.get? token ≠ some label := by
  simp only [tokenFor?, Option.map_eq_none_iff, List.find?_eq_none, decide_eq_true_eq]
  constructor
  · exact fun h token hget => h _ (table.mem_entries_iff.mpr hget) rfl
  · rintro h ⟨token, l⟩ hmem rfl
    exact h token (table.mem_entries_iff.mp hmem)

/-- A label that some token has is the label of a least one. -/
theorem exists_isLeastFor (table : LabelTable) {token label : String}
    (h : table.get? token = some label) : ∃ least, table.IsLeastFor label least := by
  cases hfound : table.tokenFor? label with
  | none => exact absurd h (table.tokenFor?_eq_none_iff.mp hfound token)
  | some least => exact ⟨least, table.tokenFor?_eq_some_iff.mp hfound⟩

/-- A token is the least one with its label just if no lesser one has it. -/
theorem IsLeastFor.eq_iff {table : LabelTable} {label least token : String}
    (h : table.IsLeastFor label least) (htoken : table.get? token = some label) :
    least = token ↔ ∀ other, other < token → table.get? other ≠ some label := by
  constructor
  · rintro rfl other hlt hother
    exact h.2 other hother hlt
  · intro hnone
    exact String.le_antisymm (h.2 token htoken) fun hlt => hnone least hlt h.1

end LabelTable
end Workflow
