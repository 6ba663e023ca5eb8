import Mathlib.Tactic.SplitIfs

/-!
# The order of texts and of their bytes

Texts are compared by their characters.  As a lesser character has lesser bytes in UTF-8
(`utf8EncodeChar_append_lt`), they are ordered in the same way by their bytes (`utf8_lt_iff`,
`utf8_le_iff`).
-/

namespace Workflow
namespace Text

/-- The bytes of a text in UTF-8. -/
def utf8 (text : String) : List UInt8 :=
  text.toByteArray.data.toList

theorem utf8_eq (text : String) : utf8 text = text.toList.flatMap String.utf8EncodeChar := by
  rw [utf8, ← String.utf8Encode_toList, List.utf8Encode, List.toList_data_toByteArray]

/-- Numbers in base 64 are compared by all but their last digits, and then by these. -/
theorem div_lt_or {m n : Nat} (h : m < n) :
    m / 64 < n / 64 ∨ m / 64 = n / 64 ∧ m % 64 < n % 64 := by
  omega

/-- The bytes of a lesser character are less, whatever follows. -/
theorem utf8EncodeChar_append_lt {c d : Char} (h : c < d) (left right : List UInt8) :
    String.utf8EncodeChar c ++ left < String.utf8EncodeChar d ++ right := by
  have hlt : c.val.toNat < d.val.toNat := h
  have hbound : d.val.toNat < 0x110000 := by
    rcases d.valid with hlow | hhigh
    · exact Nat.lt_trans hlow (by decide)
    · exact hhigh.2
  unfold String.utf8EncodeChar
  generalize c.val.toNat = m at hlt
  generalize d.val.toNat = n at hlt hbound
  have hbyte : ∀ k, (k % 64 + 128) % 2 ^ 8 = k % 64 + 128 := by omega
  dsimp only
  by_cases hfour : m ≤ 65535
  · -- A number with more bytes has a greater first byte, so only three digits are to be compared.
    split_ifs <;> simp only [List.cons_append, List.nil_append, List.cons_lt_cons_iff,
      UInt8.lt_iff_toNat_lt, ← UInt8.toNat_inj, UInt8.toNat_ofNat', hbyte] <;> omega
  · have hsize : ¬m ≤ 127 ∧ ¬m ≤ 2047 ∧ ¬n ≤ 127 ∧ ¬n ≤ 2047 ∧ ¬n ≤ 65535 := by omega
    have htwo : ∀ k, k / 4096 = k / 64 / 64 := by omega
    have hthree : ∀ k, k / 262144 = k / 64 / 64 / 64 := by omega
    have hlast := div_lt_or hlt
    have hmiddle := @div_lt_or (m / 64) (n / 64)
    have hfirst := @div_lt_or (m / 64 / 64) (n / 64 / 64)
    simp only [hsize, hfour, if_false, List.cons_append, List.nil_append, List.cons_lt_cons_iff,
      UInt8.lt_iff_toNat_lt, ← UInt8.toNat_inj, UInt8.toNat_ofNat', hbyte, htwo, hthree]
    omega

theorem flatMap_utf8EncodeChar_lt {left right : List Char} (h : left < right) :
    left.flatMap String.utf8EncodeChar < right.flatMap String.utf8EncodeChar := by
  induction left generalizing right with
  | nil =>
      cases right with
      | nil => exact absurd h (List.not_lt_nil [])
      | cons d right =>
          obtain ⟨byte, bytes, hbytes⟩ :=
            List.exists_cons_of_ne_nil (@String.utf8EncodeChar_ne_nil d)
          rw [List.flatMap_nil, List.flatMap_cons, hbytes]
          exact List.nil_lt_cons byte _
  | cons c left ih =>
      cases right with
      | nil => exact absurd h (List.not_lt_nil (c :: left))
      | cons d right =>
          rw [List.flatMap_cons, List.flatMap_cons]
          rcases List.cons_lt_cons_iff.mp h with hlt | ⟨rfl, hrest⟩
          · exact utf8EncodeChar_append_lt hlt _ _
          · exact List.append_left_lt (ih hrest)

/-- Texts are ordered as their bytes are. -/
@[simp] theorem utf8_lt_iff {left right : String} : utf8 left < utf8 right ↔ left < right := by
  have hlt : ∀ {left right : String}, left < right → utf8 left < utf8 right := by
    intro left right h
    rw [utf8_eq, utf8_eq]
    exact flatMap_utf8EncodeChar_lt h
  refine ⟨fun h => Decidable.byContradiction fun hnot => ?_, hlt⟩
  by_cases hback : right < left
  · exact List.lt_asymm h (hlt hback)
  · have heq : left = right := String.le_antisymm hback hnot
    rw [heq] at h
    exact List.lt_irrefl _ h

@[simp] theorem utf8_le_iff {left right : String} : utf8 left ≤ utf8 right ↔ left ≤ right :=
  not_congr utf8_lt_iff

end Text
end Workflow
