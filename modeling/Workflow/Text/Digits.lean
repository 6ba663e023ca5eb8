/-!
# Decimal digits

The number that a list of decimal digits writes.  The digits of a number write that number
(`natOfDigits_toDigits`), and of all digits that write it they are those without a leading zero
(`toDigits_natOfDigits_iff`).
-/

namespace Workflow
namespace Text

def digitValue (c : Char) : Nat :=
  c.toNat - '0'.toNat

/-- The number that some digits write; no digits write zero. -/
def natOfDigits (digits : List Char) : Nat :=
  digits.foldl (fun n d => n * 10 + digitValue d) 0

@[simp] theorem natOfDigits_toDigits (n : Nat) : natOfDigits (Nat.toDigits 10 n) = n := by
  have hstep : (fun n d => n * 10 + digitValue d) =
      fun (n : Nat) (d : Char) => 10 * n + (d.toNat - '0'.toNat) := by
    funext n d
    rw [Nat.mul_comm, digitValue]
  rw [natOfDigits, hstep, ← Nat.ofDigitChars_eq_foldl, Nat.ofDigitChars_ten_toDigits]

/-- No zero leads the decimal form of a number. -/
theorem toDigits_eq_of_head {n : Nat} (h : (Nat.toDigits 10 n).head? = some '0') :
    Nat.toDigits 10 n = ['0'] := by
  suffices hzero : n = 0 by
    subst hzero
    rfl
  induction n using Nat.strongRecOn with
  | _ n ih =>
      by_cases hn : n < 10
      · rw [Nat.toDigits_of_lt_base hn] at h
        exact Nat.digitChar_eq_zero.mp (Option.some.inj h)
      · have hge : 10 ≤ n := Nat.le_of_not_lt hn
        have hhead : (Nat.toDigits 10 (n / 10)).head? = some '0' := by
          obtain ⟨c, rest, hdigits⟩ :=
            List.exists_cons_of_ne_nil (@Nat.toDigits_ne_nil (n / 10) 10)
          rw [Nat.toDigits_of_base_le (by decide) hge, hdigits] at h
          exact hdigits ▸ h
        have hdiv := ih (n / 10) (by omega) hhead
        omega

theorem digitValue_lt {c : Char} (h : c.isDigit = true) : digitValue c < 10 := by
  have hrange : 48 ≤ c.toNat ∧ c.toNat ≤ 57 := Char.isDigit_iff_toNat.mp h
  show c.toNat - 48 < 10
  omega

theorem digitChar_digitValue {c : Char} (h : c.isDigit = true) : (digitValue c).digitChar = c := by
  apply Char.toNat_inj.mp
  have hrange : 48 ≤ c.toNat ∧ c.toNat ≤ 57 := Char.isDigit_iff_toNat.mp h
  rw [Nat.toNat_digitChar_of_lt_ten (digitValue_lt h)]
  show 48 + (c.toNat - 48) = c.toNat
  omega

/-- Digits that are read on from a number are written behind its digits. -/
theorem toDigits_foldl {n : Nat} {digits : List Char} (hn : 0 < n)
    (h : ∀ c ∈ digits, c.isDigit = true) :
    Nat.toDigits 10 (digits.foldl (fun n d => n * 10 + digitValue d) n) =
      Nat.toDigits 10 n ++ digits := by
  induction digits generalizing n with
  | nil => simp
  | cons c rest ih =>
      have hc : c.isDigit = true := h c List.mem_cons_self
      have hrest : ∀ d ∈ rest, d.isDigit = true := fun d hd => h d (List.mem_cons_of_mem c hd)
      have hstep : Nat.toDigits 10 (n * 10 + digitValue c) = Nat.toDigits 10 n ++ [c] := by
        rw [Nat.mul_comm, ← Nat.toDigits_append_toDigits (by decide) hn (digitValue_lt hc),
          Nat.toDigits_of_lt_base (digitValue_lt hc), digitChar_digitValue hc]
      rw [List.foldl_cons, ih (by omega) hrest, hstep, List.append_assoc]
      rfl

/-- Some digits are the decimal form of the number that they write just if no zero leads them. -/
theorem toDigits_natOfDigits_iff {digits : List Char} (hne : digits ≠ [])
    (h : ∀ c ∈ digits, c.isDigit = true) :
    Nat.toDigits 10 (natOfDigits digits) = digits ↔
      (digits.head? = some '0' → digits = ['0']) := by
  constructor
  · intro hsame hhead
    rw [← hsame] at hhead ⊢
    exact toDigits_eq_of_head hhead
  · intro hzero
    obtain ⟨c, rest, rfl⟩ := List.exists_cons_of_ne_nil hne
    have hc : c.isDigit = true := h c List.mem_cons_self
    have hfirst : Nat.toDigits 10 (digitValue c) = [c] := by
      rw [Nat.toDigits_of_lt_base (digitValue_lt hc), digitChar_digitValue hc]
    by_cases hlead : c = '0'
    · subst hlead
      rw [hzero rfl]
      rfl
    · have hpos : 0 < digitValue c := by
        refine Nat.pos_of_ne_zero fun hvalue => hlead ?_
        rw [← digitChar_digitValue hc, hvalue]
        rfl
      rw [natOfDigits, List.foldl_cons, Nat.zero_mul, Nat.zero_add,
        toDigits_foldl hpos fun d hd => h d (List.mem_cons_of_mem c hd), hfirst]
      rfl

end Text
end Workflow
