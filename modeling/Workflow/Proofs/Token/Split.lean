import Workflow.Token

/-!
# Tokens taken apart

A token that is put together from a producer, a field and perhaps an index is taken apart into them
again: its producer is what stands before the first point (`producer_path`), and its index is what
the digits behind its last number sign write (`splitIndex_eq_some_iff`).
-/

namespace Workflow
namespace Token

/-- Some digits write an index. -/
def IsIndex (digits : String) (index : Nat) : Prop :=
  digits ≠ "" ∧ (∀ c ∈ digits.toList, c.isDigit = true) ∧
    Text.natOfDigits digits.toList = index ∧ index < indexBound

/-- A token ends in a number sign and an index. -/
def HasIndex (token : String) : Prop :=
  ∃ base digits index, token = base ++ "#" ++ digits ∧ IsIndex digits index

@[simp] theorem index?_eq_some_iff {digits : String} {index : Nat} :
    index? digits.toList = some index ↔ IsIndex digits index := by
  have hempty : digits.toList ≠ [] ↔ digits ≠ "" := by simp
  unfold index? IsIndex
  constructor
  · intro h
    split at h
    · rename_i hdigits
      obtain ⟨hne, hall, hbound⟩ := hdigits
      cases h
      exact ⟨hempty.mp hne, List.all_eq_true.mp hall, rfl, hbound⟩
    · cases h
  · rintro ⟨hne, hall, rfl, hbound⟩
    rw [if_pos ⟨hempty.mpr hne, List.all_eq_true.mpr hall, hbound⟩]

/-- The decimal form of an index writes it. -/
theorem isIndex_repr {index : Nat} (h : index < indexBound) : IsIndex (Nat.repr index) index := by
  refine ⟨?_, fun c hc => ?_, ?_, h⟩
  · intro hempty
    have hlist := congrArg String.toList hempty
    rw [Nat.toList_repr] at hlist
    exact Nat.toDigits_ne_nil hlist
  · rw [Nat.toList_repr] at hc
    exact Nat.isDigit_of_mem_toDigits (by decide) (by decide) hc
  · simp

theorem IsIndex.notMem {digits : String} {index : Nat} (h : IsIndex digits index) :
    '#' ∉ digits.toList :=
  fun hmem => absurd (h.2.1 '#' hmem) (by decide)

/-- A token is split at its last number sign just if an index follows. -/
theorem splitIndex_eq_some_iff {token base : String} {index : Nat} :
    splitIndex token = (base, some index) ↔
      ∃ digits, token = base ++ "#" ++ digits ∧ IsIndex digits index := by
  constructor
  · intro h
    unfold splitIndex at h
    split at h
    · rename_i list found hcut
      cases h
      unfold cutIndex? at hcut
      split at hcut
      · rename_i before digits hlast
        simp only [Option.map_eq_some_iff, Prod.mk.injEq] at hcut
        obtain ⟨_, hindex, rfl, rfl⟩ := hcut
        refine ⟨String.ofList digits, ?_, index?_eq_some_iff.mp (by simpa using hindex)⟩
        apply String.toList_inj.mp
        rw [Text.eq_of_cutLast hlast]
        simp
      · cases hcut
    · cases h
  · rintro ⟨digits, rfl, hindex⟩
    have hcut : cutIndex? (base ++ "#" ++ digits).toList = some (base.toList, index) := by
      have hlist : (base ++ "#" ++ digits).toList = base.toList ++ '#' :: digits.toList := by simp
      rw [cutIndex?, hlist, Text.cutLast_append base.toList hindex.notMem]
      simp only [index?_eq_some_iff.mpr hindex, Option.map_some]
    rw [splitIndex, hcut]
    simp

theorem not_hasIndex_of_splitIndex {token base : String} (h : splitIndex token = (base, none)) :
    ¬HasIndex token := by
  rintro ⟨other, digits, index, htoken, hindex⟩
  have hsome := splitIndex_eq_some_iff.mpr ⟨digits, htoken, hindex⟩
  rw [h] at hsome
  cases hsome

/-- The token of an element is split into the list and the index. -/
theorem splitIndex_element (list : String) {index : Nat} (h : index < indexBound) :
    splitIndex (element list index) = (list, some index) :=
  splitIndex_eq_some_iff.mpr ⟨Nat.repr index, rfl, isIndex_repr h⟩

/-- The producer is what stands before the first point. -/
theorem producer_path {id : String} (h : '.' ∉ id.toList) (field : String) :
    producer (path id field) = id := by
  have hlist : (path id field).toList = id.toList ++ '.' :: field.toList := by simp [path]
  have hplain : ∀ c ∈ id.toList, decide (c ≠ '.') = true := by
    intro c hc
    exact decide_eq_true fun heq => h (heq ▸ hc)
  rw [producer, hlist, List.takeWhile_append_of_pos hplain, List.takeWhile_cons_of_neg (by decide),
    List.append_nil, String.ofList_toList]

/-- The token of an element of a field starts as that of the field does. -/
@[simp] theorem element_path (producer field : String) (index : Nat) :
    element (path producer field) index = path producer (element field index) := by
  simp [element, path, String.append_assoc]

theorem splitIndex_eq_none_iff {token base : String} :
    splitIndex token = (base, none) ↔ base = token ∧ ¬HasIndex token := by
  constructor
  · intro h
    refine ⟨?_, not_hasIndex_of_splitIndex h⟩
    unfold splitIndex at h
    split at h <;> cases h
    rfl
  · rintro ⟨rfl, hno⟩
    cases hsplit : splitIndex base with
    | mk list index? =>
        cases index? with
        | none =>
            unfold splitIndex at hsplit
            split at hsplit <;> cases hsplit
            rfl
        | some index =>
            obtain ⟨digits, htoken, hindex⟩ := splitIndex_eq_some_iff.mp hsplit
            exact absurd ⟨list, digits, index, htoken, hindex⟩ hno

/-- An index at the end of the token of a field is one at the end of the field. -/
theorem hasIndex_of_path {id field : String} (h : HasIndex (path id field)) : HasIndex field := by
  obtain ⟨base, digits, index, htoken, hindex⟩ := h
  have hlists : id.toList ++ '.' :: field.toList = base.toList ++ '#' :: digits.toList := by
    simpa [path] using congrArg String.toList htoken
  rcases List.append_eq_append_iff.mp hlists with ⟨middle, _, hfield⟩ | ⟨middle, _, hdigits⟩
  · cases middle with
    | nil => simp at hfield
    | cons c middle =>
        rw [List.cons_append, List.cons.injEq] at hfield
        refine ⟨String.ofList middle, digits, index, String.toList_inj.mp ?_, hindex⟩
        simpa using hfield.2
  · have hpoint : '.' ∈ '#' :: digits.toList := hdigits ▸ by simp
    have hdigit := hindex.2.1 '.' (by simpa using hpoint)
    exact absurd hdigit (by decide)

theorem hasIndex_path {field : String} (id : String) (h : HasIndex field) :
    HasIndex (path id field) := by
  obtain ⟨base, digits, index, rfl, hindex⟩ := h
  exact ⟨path id base, digits, index, by simp [path, String.append_assoc], hindex⟩

/-- The index of a token is that of its field. -/
@[simp] theorem splitIndex_path (id field : String) :
    splitIndex (path id field) = (path id (splitIndex field).1, (splitIndex field).2) := by
  cases hfield : splitIndex field with
  | mk base index? =>
      cases index? with
      | some index =>
          obtain ⟨digits, rfl, hindex⟩ := splitIndex_eq_some_iff.mp hfield
          refine splitIndex_eq_some_iff.mpr ⟨digits, ?_, hindex⟩
          simp [path, String.append_assoc]
      | none =>
          obtain ⟨rfl, hno⟩ := splitIndex_eq_none_iff.mp hfield
          exact splitIndex_eq_none_iff.mpr ⟨rfl, fun h => hno (hasIndex_of_path h)⟩

/-- What a token is without its index, and the index. -/
def IsSplit (token base : String) (index? : Option Nat) : Prop :=
  (∃ digits index, index? = some index ∧ token = base ++ "#" ++ digits ∧ IsIndex digits index) ∨
    (index? = none ∧ base = token ∧ ¬HasIndex token)

theorem splitIndex_eq_iff {token base : String} {index? : Option Nat} :
    splitIndex token = (base, index?) ↔ IsSplit token base index? := by
  cases index? with
  | none => simp [IsSplit, splitIndex_eq_none_iff]
  | some index => simp [IsSplit, splitIndex_eq_some_iff]

/-- A zero that could be left out leads the digits. -/
def HasLeadingZero (digits : String) : Prop :=
  ∃ rest, rest ≠ "" ∧ digits = "0" ++ rest

/-- An index is written in decimal form just if no zero leads its digits. -/
theorem IsIndex.repr_eq_iff {digits : String} {index : Nat} (h : IsIndex digits index) :
    Nat.repr index = digits ↔ ¬HasLeadingZero digits := by
  obtain ⟨hne, hdigits, rfl, _⟩ := h
  have hlist : digits.toList ≠ [] := by simpa using hne
  rw [← String.toList_inj, Nat.toList_repr, Text.toDigits_natOfDigits_iff hlist hdigits]
  constructor
  · rintro hzero ⟨rest, hrest, rfl⟩
    have hsingle := hzero (by simp)
    simp [hrest] at hsingle
  · intro hno hhead
    obtain ⟨c, rest, hcons⟩ := List.exists_cons_of_ne_nil hlist
    obtain rfl : c = '0' := by simpa [hcons] using hhead
    by_cases hrest : rest = []
    · rw [hcons, hrest]
    · refine absurd ⟨String.ofList rest, by simpa using hrest, ?_⟩ hno
      apply String.toList_inj.mp
      simp [hcons]

end Token
end Workflow
