import Workflow.Json.Record

/-!
# Values as they are read

A scan gives only results of some kind if its parts do, and a loop does so if each round keeps an
invariant.  So the objects inside every value that is read have their members in ascending order
(`gives_value`), whatever the order in the text.
-/

namespace Workflow
namespace Json

/-- The members of the objects inside a value stand in ascending order of their names. -/
inductive Value.IsOrdered : Value → Prop where
  | null : IsOrdered null
  | bool (b : Bool) : IsOrdered (bool b)
  | int (i : Int) : IsOrdered (int i)
  | real (x : Float) : IsOrdered (real x)
  | str (s : String) : IsOrdered (str s)
  | arr {items : List Value} (h : ∀ item ∈ items, IsOrdered item) : IsOrdered (arr items)
  | obj {members : List (String × Value)} (hmembers : Keyed.Ascending members)
      (h : ∀ name value, (name, value) ∈ members → IsOrdered value) : IsOrdered (obj members)

/-- All that a scan reads has a property. -/
def Gives {α : Type} (P : α → Prop) (scan : Scan α) : Prop :=
  ∀ text a rest, scan text = .ok (a, rest) → P a

variable {α κ σ ρ : Type}

theorem bind_eq_ok {ε β : Type} {x : Except ε α} {f : α → Except ε β} {b : β} :
    (x >>= f) = .ok b ↔ ∃ a, x = .ok a ∧ f a = .ok b := by
  cases x with
  | error e =>
      constructor
      · exact fun h => nomatch h
      · rintro ⟨_, h, _⟩
        exact nomatch h
  | ok a =>
      constructor
      · exact fun h => ⟨a, rfl, h⟩
      · rintro ⟨_, h, hf⟩
        cases h
        exact hf

theorem gives_elementsFrom {P : α → Prop} {element : Scan α} (h : Gives P element)
    (rounds : Nat) : Gives (fun elements => ∀ a ∈ elements, P a) (elementsFrom element rounds) := by
  induction rounds with
  | zero => exact fun _ _ _ hread => nomatch hread
  | succ rounds ih =>
      intro text elements rest hread
      rw [elementsFrom] at hread
      obtain ⟨⟨first, text⟩, hfirst, hread⟩ := bind_eq_ok.mp hread
      have hP := h _ _ _ hfirst
      dsimp only at hread
      split at hread
      · cases hread
        exact fun a ha => List.mem_singleton.mp ha ▸ hP
      · obtain ⟨⟨others, text⟩, hothers, hread⟩ := bind_eq_ok.mp hread
        cases hread
        exact List.forall_mem_cons.mpr ⟨hP, ih _ _ _ hothers⟩
      · cases hread
      · cases hread

/-- The elements of a list have a property if all that is read for an element has it. -/
theorem gives_elements {P : α → Prop} {element : Scan α} (h : Gives P element) :
    Gives (fun elements => ∀ a ∈ elements, P a) (elements element) := by
  intro text read rest hread
  unfold elements at hread
  split at hread
  · cases hread
    exact fun a ha => absurd ha List.not_mem_nil
  · exact gives_elementsFrom h _ _ _ _ hread

theorem gives_membersFrom {P : σ → Prop} {name : Scan κ} {member : κ → σ → Scan σ}
    (h : ∀ key state, P state → Gives P (member key state)) (rounds : Nat) {state : σ}
    (hstate : P state) : Gives P (membersFrom name member rounds state) := by
  induction rounds generalizing state with
  | zero => exact fun _ _ _ hread => nomatch hread
  | succ rounds ih =>
      intro text read rest hread
      rw [membersFrom] at hread
      obtain ⟨⟨key, text⟩, _, hread⟩ := bind_eq_ok.mp hread
      obtain ⟨⟨next, text⟩, hmember, hread⟩ := bind_eq_ok.mp hread
      have hnext := h _ _ hstate _ _ _ hmember
      dsimp only at hread
      split at hread
      · cases hread
        exact hnext
      · exact ih hnext _ _ _ hread
      · cases hread
      · cases hread

/-- A property of the state is kept by all members of an object if it is kept by each. -/
theorem gives_members {P : σ → Prop} {name : Scan κ} {member : κ → σ → Scan σ}
    (h : ∀ key state, P state → Gives P (member key state)) (state : σ) (hstate : P state) :
    Gives P (members name member state) := by
  intro text read rest hread
  unfold members at hread
  split at hread
  · cases hread
    exact hstate
  · exact gives_membersFrom h _ hstate _ _ _ hread

theorem gives_entry {P : α → Prop} {Q : σ → Prop} {item : Scan α} (h : Gives P item)
    {add : String → α → σ → σ} (hadd : ∀ key a state, P a → Q state → Q (add key a state))
    (name : List Char) {state : σ} (hstate : Q state) : Gives Q (entry item add name state) := by
  intro text read rest hread
  obtain ⟨_, _, hread⟩ := bind_eq_ok.mp hread
  obtain ⟨⟨a, text⟩, hitem, hread⟩ := bind_eq_ok.mp hread
  cases hread
  exact hadd _ _ _ (h _ _ _ hitem) hstate

/-! ## Values -/

theorem gives_number : Gives Value.IsOrdered number := by
  intro text value rest hread
  obtain ⟨⟨n, text⟩, _, hread⟩ := bind_eq_ok.mp hread
  obtain ⟨read, hvalue, hread⟩ := bind_eq_ok.mp hread
  cases hread
  unfold Numeral.value at hvalue
  split at hvalue
  · cases hvalue
    exact .int _
  · split at hvalue
    · cases hvalue
      exact .real _
    · cases hvalue

theorem gives_word {P : α → Prop} {result : α} (h : P result) (letters : List Char) :
    Gives P (word result letters) := by
  induction letters with
  | nil =>
      intro text a rest hread
      cases hread
      exact h
  | cons w letters ih =>
      intro text a rest hread
      cases text with
      | nil => cases hread
      | cons c text =>
          unfold word at hread
          split at hread
          · exact ih _ _ _ hread
          · cases hread

theorem gives_scalar (first : Char) : Gives Value.IsOrdered (scalar first) := by
  intro text value rest hread
  unfold scalar at hread
  split at hread
  · exact gives_number _ _ _ hread
  · split at hread
    · exact gives_word .null _ _ _ _ hread
    · exact gives_word (.bool true) _ _ _ _ hread
    · exact gives_word (.bool false) _ _ _ _ hread
    · obtain ⟨⟨s, text⟩, _, hread⟩ := bind_eq_ok.mp hread
      cases hread
      exact .str s
    · cases hread

/-- A value is in order if the elements and members that are read are. -/
theorem gives_valueOver {inner : Option (Scan Value)}
    (h : ∀ scan ∈ inner, Gives Value.IsOrdered scan) : Gives Value.IsOrdered (valueOver inner) := by
  intro text value rest hread
  unfold valueOver at hread
  split at hread
  · cases hread
  · split at hread
    · cases hread
    · rename_i item
      obtain ⟨⟨items, text⟩, hitems, hread⟩ := bind_eq_ok.mp hread
      cases hread
      exact .arr (gives_elements (h item rfl) _ _ _ hitems)
  · split at hread
    · cases hread
    · rename_i item
      obtain ⟨⟨entries, text⟩, hentries, hread⟩ := bind_eq_ok.mp hread
      cases hread
      -- What has been read is in order at any time, and an insertion keeps it so.
      have hkept : Gives (fun entries => Keyed.Ascending entries ∧
          ∀ name value, (name, value) ∈ entries → Value.IsOrdered value)
          (members (memberName true) (entry item Keyed.insert) []) := by
        refine gives_members (fun key state hstate => gives_entry (h item rfl) ?_ key hstate) []
          ⟨List.Pairwise.nil, fun _ _ hmem => absurd hmem List.not_mem_nil⟩
        rintro name value entries hvalue ⟨hascending, hordered⟩
        refine ⟨Keyed.ascending_insert name value hascending, fun other read hmem => ?_⟩
        rcases Keyed.mem_insert hmem with heq | hmem
        · cases heq
          exact hvalue
        · exact hordered other read hmem
      obtain ⟨hascending, hordered⟩ := hkept _ _ _ hentries
      exact .obj hascending hordered
  · exact gives_scalar _ _ _ _ hread

/-- Every value that is read is in order. -/
theorem gives_value (depth : Nat) : Gives Value.IsOrdered (value depth) := by
  induction depth with
  | zero => exact gives_valueOver fun _ h => nomatch h
  | succ depth ih =>
      refine gives_valueOver fun scan h => ?_
      cases h
      exact ih

/-! ## Readers -/

theorem gives_mistyped {P : α → Prop} (first : Char) : Gives P (mistyped first) := by
  intro text a rest hread
  unfold mistyped at hread
  split at hread
  · cases hread
  · split at hread
    · cases hread
    · obtain ⟨_, _, hread⟩ := bind_eq_ok.mp hread
      cases hread

namespace Reader

/-- All that a reader reads has a property. -/
def Gives (P : α → Prop) (reader : Reader α) : Prop :=
  ∀ depth, Json.Gives P (reader depth)

@[simp] theorem gives_true (reader : Reader α) : reader.Gives fun _ => True :=
  fun _ _ _ _ _ => trivial

theorem gives_map {β : Type} {P : α → Prop} {Q : β → Prop} {item : Reader α} (h : item.Gives P)
    {f : α → β} (hf : ∀ a, P a → Q (f a)) : (item.map f).Gives Q := by
  intro depth text b rest hread
  obtain ⟨⟨a, text⟩, hitem, hread⟩ := bind_eq_ok.mp hread
  cases hread
  exact hf a (h _ _ _ _ hitem)

theorem gives_list {P : α → Prop} {item : Reader α} (h : item.Gives P) :
    (list item).Gives fun items => ∀ a ∈ items, P a := by
  intro depth text items rest hread
  unfold list at hread
  split at hread
  · cases hread
  · split at hread
    · cases hread
    · exact gives_elements (h _) _ _ _ hread
  · exact gives_mistyped (P := fun items => ∀ a ∈ items, P a) _ _ _ _ hread

end Reader

/-- A member changes a record only to one that has the property too. -/
def Member.Keeps (P : ρ → Prop) (member : Member ρ) : Prop :=
  member.reader.Gives fun change => ∀ record, P record → P (change record)

namespace Member

variable {P : ρ → Prop} {Q : α → Prop} {item : Reader α} {set : α → ρ → ρ}

theorem keeps_needed (h : item.Gives Q) (hset : ∀ a record, Q a → P record → P (set a record))
    (name : String) : (needed name item set).Keeps P :=
  Reader.gives_map h fun a ha record => hset a record ha

theorem keeps_defaulted (h : item.Gives Q) (hset : ∀ a record, Q a → P record → P (set a record))
    (name : String) : (defaulted name item set).Keeps P :=
  Reader.gives_map h fun a ha record => hset a record ha

theorem keeps_orSpelled {member : Member ρ} (h : member.Keeps P) (spelling : String) :
    (member.orSpelled spelling).Keeps P :=
  h

end Member

namespace Record

variable {P : ρ → Prop} {declared : List (Member ρ)}

theorem gives_ofObject (h : ∀ member ∈ declared, member.Keeps P) {start : ρ} (hstart : P start)
    (depth : Nat) : Gives P (ofObject start declared depth) := by
  intro text record rest hread
  obtain ⟨⟨draft, text⟩, hdraft, hread⟩ := bind_eq_ok.mp hread
  obtain ⟨finished, hfinish, hread⟩ := bind_eq_ok.mp hread
  cases hread
  have hstep : ∀ name draft, P draft.record →
      Gives (fun draft => P draft.record) (readMember declared depth name draft) := by
    intro name draft hdraft text next rest hread
    unfold readMember at hread
    split at hread
    · obtain ⟨_, _, hread⟩ := bind_eq_ok.mp hread
      obtain ⟨_, _, hread⟩ := bind_eq_ok.mp hread
      cases hread
      exact hdraft
    · rename_i member hmember
      split at hread
      · cases hread
      · obtain ⟨_, _, hread⟩ := bind_eq_ok.mp hread
        obtain ⟨⟨change, text⟩, hchange, hread⟩ := bind_eq_ok.mp hread
        cases hread
        exact h member (List.mem_of_find?_eq_some hmember) _ _ _ _ hchange _ hdraft
  have hP := gives_members (P := fun draft : Draft ρ => P draft.record) hstep ⟨start, []⟩ hstart
    _ _ _ hdraft
  unfold finish at hfinish
  split at hfinish
  · cases hfinish
  · cases hfinish
    exact hP

theorem gives_readElements (h : ∀ member ∈ declared, member.Keeps P) (depth count : Nat)
    {start : ρ} (hstart : P start) : Gives P (readElements depth count declared start) := by
  induction declared generalizing count start with
  | nil =>
      intro text record rest hread
      unfold readElements at hread
      split at hread
      · cases hread
        exact hstart
      · cases hread
      · cases hread
  | cons member left ih =>
      have hleft := fun other hmem => h other (List.mem_cons_of_mem member hmem)
      intro text record rest hread
      unfold readElements at hread
      obtain ⟨next?, _, hread⟩ := bind_eq_ok.mp hread
      split at hread
      · obtain ⟨⟨change, text⟩, hchange, hread⟩ := bind_eq_ok.mp hread
        have hnext := h member List.mem_cons_self _ _ _ _ hchange _ hstart
        exact ih hleft _ hnext _ _ _ hread
      · split at hread
        · cases hread
        · exact ih hleft _ hstart _ _ _ hread

end Record

/-- A record has a property if it starts with it and every member keeps it. -/
theorem Reader.gives_record {P : ρ → Prop} {declared : List (Member ρ)}
    (h : ∀ member ∈ declared, member.Keeps P) {start : ρ} (hstart : P start) :
    (Reader.record start declared).Gives P := by
  intro depth text record rest hread
  unfold Reader.record at hread
  split at hread
  · cases hread
  · split at hread
    · cases hread
    · exact Record.gives_ofObject h hstart _ _ _ _ hread
  · split at hread
    · cases hread
    · exact Record.gives_readElements h _ _ hstart _ _ _ hread
  · exact gives_mistyped _ _ _ _ hread

/-- What is read from a whole text has the property too. -/
theorem of_read {P : α → Prop} {reader : Reader α} (h : reader.Gives P) {text : String} {a : α}
    (hread : read reader text = .ok a) : P a := by
  obtain ⟨⟨found, rest⟩, hfound, hread⟩ := bind_eq_ok.mp hread
  dsimp only at hread
  split at hread
  · cases hread
    exact h _ _ _ _ hfound
  · cases hread

end Json
end Workflow
