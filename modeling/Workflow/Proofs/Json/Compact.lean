import Workflow.Proofs.Json.Grammar

/-!
# Compact texts

Containers without white space and strings without escapes, and that they are texts of the grammar.
-/

namespace Workflow
namespace Json

/-- Some parts with commas between them and a character on either side. -/
def enclose (opening closing : Char) (parts : List (List Char)) : List Char :=
  opening :: ((parts.intersperse [',']).flatten ++ [closing])

/-- The text of a string whose characters need no escape. -/
def quote (s : String) : List Char :=
  '"' :: (s.toList ++ ['"'])

/-- The text of an object with some members. -/
def object (members : List (String × List Char)) : List Char :=
  enclose '{' '}' (members.map fun member => quote member.1 ++ ':' :: member.2)

instance : DecidablePred IsPlain :=
  fun _ => inferInstanceAs (Decidable (_ ∧ _ ∧ _))

instance (value : Nat) (digit : Char) : Decidable (IsHexDigit value digit) :=
  inferInstanceAs (Decidable (_ ∨ _))

theorem joined_intersperse (closing : Char) (part : List Char) (parts : List (List Char)) :
    Joined closing (part :: parts) (((part :: parts).intersperse [',']).flatten ++ [closing]) := by
  have hblank : IsBlank [] := fun _ h => absurd h List.not_mem_nil
  induction parts generalizing part with
  | nil => simpa using @Joined.last closing [] part [] hblank hblank
  | cons other parts ih =>
      have h := @Joined.more closing [] part [] _ _ hblank hblank (ih other)
      simpa using h

theorem enclosed_enclose (opening closing : Char) (parts : List (List Char)) :
    Enclosed opening closing parts (enclose opening closing parts) := by
  cases parts with
  | nil => exact @Enclosed.empty _ _ [] fun _ h => absurd h List.not_mem_nil
  | cons part parts => exact .parts (joined_intersperse closing part parts)

/-- A string needs no escape. -/
def IsPlainText (s : String) : Prop :=
  s.toList.all fun c => decide (IsPlain c)

instance : DecidablePred IsPlainText :=
  fun _ => inferInstanceAs (Decidable (_ = true))

theorem IsPlainText.isPlain {s : String} (h : IsPlainText s) : ∀ c ∈ s.toList, IsPlain c :=
  fun c hc => of_decide_eq_true (List.all_eq_true.mp h c hc)

theorem quote_eq_flatten (s : String) :
    quote s = '"' :: ((s.toList.map fun c => [c]).flatten ++ ['"']) := by
  simp [quote, List.flatten_eq_flatMap, List.flatMap_map]

theorem isQuoted_quote {s : String} (h : IsPlainText s) : IsQuoted s (quote s) := by
  refine ⟨s.toList.map fun c => [c], ?_, ?_⟩
  · rw [List.forall₂_map_right_iff, List.forall₂_same]
    exact fun c hc => .plain (h.isPlain c hc)
  · exact quote_eq_flatten s

theorem isLooselyQuoted_quote {s : String} (h : IsPlainText s) : IsLooselyQuoted (quote s) := by
  refine ⟨s.toList.map fun c => [c], fun piece hpiece => ?_, ?_⟩
  · obtain ⟨c, hc, rfl⟩ := List.mem_map.mp hpiece
    exact .plain (h.isPlain c hc)
  · exact quote_eq_flatten s

/-- An object without white space is one with its members. -/
theorem isObject_object {members : List (String × List Char)}
    (h : ∀ member ∈ members, IsPlainText member.1) :
    IsObject IsQuoted members (object members) := by
  have hblank : IsBlank [] := fun _ hmem => absurd hmem List.not_mem_nil
  refine ⟨_, ?_, enclosed_enclose '{' '}' _⟩
  rw [List.forall₂_map_right_iff, List.forall₂_same]
  exact fun member hmember => .mk (isQuoted_quote (h member hmember)) hblank hblank

end Json
end Workflow
