import Mathlib
import Workflow.Flow.LabelTable
import Workflow.Proofs.Text.ByteOrder

/-!
# What is left of labels that were given and dropped

A label table is made of some pairs and then changed call by call.  Of the changes to one token only
the last counts (`LabelTable.get?_run_ofList`), and each call answers with the label that the calls
before it have left (`LabelTable.getElem?_run`).  So a table does not tell in which order it came to
hold what it holds (`LabelTable.reflects_run`).
-/

namespace Workflow

/-- A change to a label table. -/
inductive LabelChange where
  | insert (token label : String)
  | erase (token : String)
  deriving DecidableEq

namespace LabelChange

/-- The token whose label is changed. -/
def token : LabelChange → String
  | insert token _ => token
  | erase token => token

/-- The label that the token has afterwards. -/
def label? : LabelChange → Option String
  | insert _ label => some label
  | erase _ => none

/-- A pair that a table is made of, as a change. -/
def ofPair (pair : String × String) : LabelChange :=
  insert pair.1 pair.2

/-- The last of some changes to a token gave it a label. -/
def IsLatest (history : List LabelChange) (token label : String) : Prop :=
  ∃ earlier later, history = earlier ++ insert token label :: later ∧
    ∀ change ∈ later, change.token ≠ token

theorem not_isLatest_nil (token label : String) : ¬IsLatest [] token label := by
  rintro ⟨earlier, later, heq, _⟩
  simp at heq

theorem eq_insert_iff {change : LabelChange} {token label : String} :
    change = insert token label ↔ change.token = token ∧ change.label? = some label := by
  cases change with
  | insert t l => simp [LabelChange.token, label?]
  | erase t => simp [label?]

/-- A further change counts for its own token and for no other. -/
@[simp] theorem isLatest_append_singleton {history : List LabelChange} {change : LabelChange}
    {token label : String} :
    IsLatest (history ++ [change]) token label ↔
      if change.token = token then change.label? = some label
      else IsLatest history token label := by
  constructor
  · rintro ⟨earlier, later, heq, hlater⟩
    rcases List.eq_nil_or_concat later with rfl | ⟨rest, last, rfl⟩
    · obtain ⟨_, hchange⟩ := List.append_singleton_inj.mp heq
      obtain ⟨htoken, hlabel⟩ := eq_insert_iff.mp hchange
      rw [if_pos htoken, hlabel]
    · have hsplit : history ++ [change] = (earlier ++ insert token label :: rest) ++ [last] := by
        simpa using heq
      obtain ⟨rfl, rfl⟩ := List.append_singleton_inj.mp hsplit
      rw [if_neg (hlater change (by simp))]
      exact ⟨earlier, rest, rfl, fun other hother => hlater other (by simp [hother])⟩
  · split
    · rename_i htoken
      intro hlabel
      refine ⟨history, [], ?_, fun _ h => absurd h List.not_mem_nil⟩
      rw [eq_insert_iff.mpr ⟨htoken, hlabel⟩]
    · rename_i htoken
      rintro ⟨earlier, later, rfl, hlater⟩
      refine ⟨earlier, later ++ [change], by simp, fun other hother => ?_⟩
      rcases List.mem_append.mp hother with hother | hother
      · exact hlater other hother
      · exact List.mem_singleton.mp hother ▸ htoken

end LabelChange

namespace LabelTable

open LabelChange (IsLatest ofPair)

/-- Makes a change, and answers with the label that the token had before. -/
def call (table : LabelTable) : LabelChange → LabelTable × Option String
  | .insert token label => (table.insert token label, table.get? token)
  | .erase token => (table.erase token, table.get? token)

/-- Makes changes one after the other, and gives the answers in the same order. -/
def run (table : LabelTable) : List LabelChange → LabelTable × List (Option String)
  | [] => (table, [])
  | change :: rest =>
      let called := table.call change
      let left := called.1.run rest
      (left.1, called.2 :: left.2)

section Run

variable (table : LabelTable)

@[simp] theorem get?_call (change : LabelChange) (token : String) :
    (table.call change).1.get? token =
      if change.token = token then change.label? else table.get? token := by
  cases change with
  | insert t label => exact table.get?_insert t label token
  | erase t => exact table.get?_erase t token

@[simp] theorem call_snd (change : LabelChange) :
    (table.call change).2 = table.get? change.token := by
  cases change with
  | insert t label => rfl
  | erase t => rfl

@[simp] theorem run_append (earlier later : List LabelChange) :
    table.run (earlier ++ later) =
      (((table.run earlier).1.run later).1,
        (table.run earlier).2 ++ ((table.run earlier).1.run later).2) := by
  induction earlier generalizing table with
  | nil => rfl
  | cons change rest ih => simp only [List.cons_append, run, ih]

@[simp] theorem length_run (changes : List LabelChange) :
    (table.run changes).2.length = changes.length := by
  induction changes generalizing table with
  | nil => rfl
  | cons change rest ih => simp only [run, List.length_cons, ih]

/-- A call answers with the label that the calls before it have left. -/
theorem getElem?_run (earlier : List LabelChange) (change : LabelChange)
    (later : List LabelChange) :
    (table.run (earlier ++ change :: later)).2[earlier.length]? =
      some ((table.run earlier).1.get? change.token) := by
  rw [← length_run table earlier]
  simp [run]

/-- Making a table of pairs is labelling their tokens one after the other. -/
@[simp] theorem run_ofPair (pairs : List (String × String)) :
    (empty.run (pairs.map ofPair)).1 = ofList pairs := by
  have hfold : ∀ table : LabelTable, (table.run (pairs.map ofPair)).1 =
      pairs.foldl (fun table pair => table.insert pair.1 pair.2) table := by
    induction pairs with
    | nil => exact fun _ => rfl
    | cons pair rest ih => exact fun table => ih (table.insert pair.1 pair.2)
  exact LabelTable.ext ((congrArg entries (hfold empty)).trans (entries_foldl_insert pairs empty))

theorem get?_run_empty (history : List LabelChange) {token label : String} :
    (empty.run history).1.get? token = some label ↔ IsLatest history token label := by
  induction history using List.reverseRecOn with
  | nil =>
      have hnone := LabelChange.not_isLatest_nil token label
      simp [run, hnone]
  | append_singleton earlier change ih =>
      by_cases htoken : change.token = token
      · simp [run, htoken]
      · simp [run, htoken, ih]

/-- A token has the label that the last change to it has given. -/
theorem get?_run_ofList (pairs : List (String × String)) (changes : List LabelChange)
    {token label : String} :
    ((ofList pairs).run changes).1.get? token = some label ↔
      IsLatest (pairs.map ofPair ++ changes) token label := by
  simp [← get?_run_empty]

end Run

/-! ## Queries -/

section Queries

variable (table : LabelTable)

theorem nodup_tokens : table.tokens.Nodup :=
  table.ascending.nodup_keys

theorem mem_tokens_iff {token : String} :
    token ∈ table.tokens ↔ ∃ label, table.get? token = some label := by
  simp only [tokens, List.mem_map, ← mem_entries_iff]
  constructor
  · rintro ⟨⟨token, label⟩, hentry, rfl⟩
    exact ⟨label, hentry⟩
  · rintro ⟨label, hentry⟩
    exact ⟨(token, label), hentry, rfl⟩

/-- The least token with a label is found in whatever order the entries are gone through. -/
theorem min?_tokens_of_perm {entries : List (String × String)} (h : entries.Perm table.entries)
    (label : String) :
    ((entries.filter fun entry => entry.2 = label).map Prod.fst).min? = table.tokenFor? label := by
  have hmem : ∀ token, token ∈ (entries.filter fun entry => entry.2 = label).map Prod.fst ↔
      table.get? token = some label := by
    intro token
    rw [← table.mem_entries_iff, List.mem_map]
    constructor
    · rintro ⟨⟨t, l⟩, hentry, rfl⟩
      obtain ⟨hentry, hlabel⟩ := List.mem_filter.mp hentry
      have hlabel : l = label := of_decide_eq_true hlabel
      exact hlabel ▸ h.mem_iff.mp hentry
    · intro hentry
      exact ⟨(token, label), List.mem_filter.mpr ⟨h.mem_iff.mpr hentry, by simp⟩, rfl⟩
  cases hfound : table.tokenFor? label with
  | none =>
      have hnone := table.tokenFor?_eq_none_iff.mp hfound
      rw [List.min?_eq_none_iff, List.eq_nil_iff_forall_not_mem]
      exact fun token htoken => hnone token ((hmem token).mp htoken)
  | some token =>
      obtain ⟨hlabel, hleast⟩ := table.tokenFor?_eq_some_iff.mp hfound
      rw [List.min?_eq_some_iff]
      exact ⟨(hmem token).mpr hlabel, fun other hother => hleast other ((hmem other).mp hother)⟩

/-- Tables that label each token alike are equal. -/
theorem eq_of_get? {table other : LabelTable} (h : ∀ token, table.get? token = other.get? token) :
    table = other :=
  LabelTable.ext (table.ascending.eq_of_find? other.ascending h)

end Queries

/-- A table answers every query as a history of changes tells. -/
structure Reflects (table : LabelTable) (history : List LabelChange) : Prop where
  /-- A token has a label just if the last change to it gave it this label. -/
  get : ∀ token label, table.get? token = some label ↔ IsLatest history token label
  /-- The tokens with a label are listed, each of them once, and counted. -/
  mem : ∀ token, token ∈ table.tokens ↔ ∃ label, IsLatest history token label
  nodup : table.tokens.Nodup
  size : table.size = table.tokens.length
  isEmpty : table.isEmpty = true ↔ table.size = 0
  /-- Of the tokens with a label the one is found whose bytes come first. -/
  least : ∀ label token, table.tokenFor? label = some token ↔
    IsLatest history token label ∧
      ∀ other, IsLatest history other label → Text.utf8 token ≤ Text.utf8 other
  none : ∀ label, table.tokenFor? label = none ↔ ∀ token, ¬IsLatest history token label
  /-- That does not depend on the order in which the entries are gone through. -/
  anyOrder : ∀ entries : List (String × String), entries.Perm table.entries → ∀ label,
    ((entries.filter fun entry => entry.2 = label).map Prod.fst).min? = table.tokenFor? label

theorem reflects_of_get? {table : LabelTable} {history : List LabelChange}
    (h : ∀ token label, table.get? token = some label ↔ IsLatest history token label) :
    table.Reflects history where
  get := h
  mem token := by simp only [mem_tokens_iff, h]
  nodup := table.nodup_tokens
  size := (List.length_map _).symm
  isEmpty := List.isEmpty_iff_length_eq_zero
  least label token := by
    simp only [tokenFor?_eq_some_iff, IsLeastFor, h, Text.utf8_le_iff]
  none label := by simp only [tokenFor?_eq_none_iff, ne_eq, h]
  anyOrder _ hperm := table.min?_tokens_of_perm hperm

/-- **What is left of labels.**  After any calls a table answers every query as the changes tell
that were made to each token last, and each call has answered so as well.  Tables with the same
labels for the same tokens are the same, whatever calls have led to them. -/
theorem reflects_run (pairs : List (String × String)) (changes : List LabelChange) :
    let outcome := (ofList pairs).run changes
    outcome.1.Reflects (pairs.map ofPair ++ changes) ∧
    (outcome.2.length = changes.length ∧
      ∀ earlier change later, changes = earlier ++ change :: later →
        ∃ answer?, outcome.2[earlier.length]? = some answer? ∧
          ∀ label, answer? = some label ↔
            IsLatest (pairs.map ofPair ++ earlier) change.token label) ∧
    ∀ others otherChanges, let other := (ofList others).run otherChanges
      (∀ token, other.1.get? token = outcome.1.get? token) → other.1 = outcome.1 := by
  intro outcome
  refine ⟨reflects_of_get? fun token label => get?_run_ofList pairs changes,
    ⟨length_run _ changes, ?_⟩, fun _ _ => eq_of_get?⟩
  rintro earlier change later rfl
  exact ⟨_, getElem?_run _ earlier change later, fun label => get?_run_ofList pairs earlier⟩

/-- The token of the first plane has the lesser bytes, though a pair of surrogates would come before
it.  Labels that were replaced or dropped leave no trace. -/
theorem reflects_run_two_planes :
    let pairs := [("b", "L"), ("\uffff", "M"), ("b", "K")]
    let changes : List LabelChange := [.insert "😀" "L", .erase "b", .insert "\uffff" "L"]
    let outcome := (ofList pairs).run changes
    outcome.2[1]? = some (some "K") ∧
      outcome.1.tokenFor? "L" = some "\uffff" ∧
      (∀ other, IsLatest (pairs.map ofPair ++ changes) other "L" →
        Text.utf8 "\uffff" ≤ Text.utf8 other) ∧
      ((ofList [("\uffff", "L"), ("😀", "L")]).run []).1 = outcome.1 := by
  intro pairs changes outcome
  obtain ⟨hreflects, ⟨_, hanswers⟩, hsame⟩ := reflects_run pairs changes
  obtain ⟨answer?, hanswer, hlabel⟩ :=
    hanswers [.insert "😀" "L"] (.erase "b") [.insert "\uffff" "L"] rfl
  have hlatest : IsLatest (pairs.map ofPair ++ [.insert "😀" "L"]) "b" "K" :=
    ⟨[.insert "b" "L", .insert "\uffff" "M"], [.insert "😀" "L"], rfl, by decide⟩
  have hfound : outcome.1.tokenFor? "L" = some "\uffff" := by decide
  have hentries :
      ((ofList [("\uffff", "L"), ("😀", "L")]).run []).1.entries = outcome.1.entries := by
    decide
  refine ⟨?_, hfound, ((hreflects.least _ _).mp hfound).2,
    hsame _ _ fun token => by rw [get?, hentries, get?]⟩
  rw [← (hlabel "K").mpr hlatest]
  exact hanswer

end LabelTable

end Workflow
