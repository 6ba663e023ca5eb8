import Workflow.Json.Read
import Workflow.Proofs.Json.Grammar

/-!
# Reading words, strings and numbers

A scan reads a text of the grammar in any place: behind white space, and before anything that cannot
go on with a numeral (`Reads`).
-/

namespace Workflow
namespace Json

variable {α : Type}

/-- A text cannot go on with the digits before it. -/
def NoDigit (rest : List Char) : Prop :=
  ∀ c ∈ rest.head?, c.isDigit = false

/-- A text cannot go on with the numeral before it. -/
def Stops (rest : List Char) : Prop :=
  ∀ c ∈ rest.head?, c.isDigit = false ∧ c ≠ '.' ∧ c ≠ 'e' ∧ c ≠ 'E'

/-- A text starts neither with white space nor with the end of a container. -/
def Starts (text : List Char) : Prop :=
  ∃ c tail, text = c :: tail ∧ isSpace c = false ∧ c ≠ ']' ∧ c ≠ '}'

/-- A scan reads a text in any place. -/
structure Reads (scan : Scan α) (text : List Char) (a : α) : Prop where
  starts : Starts text
  read : ∀ before rest, IsBlank before → Stops rest →
    scan (before ++ (text ++ rest)) = .ok (a, rest)

theorem Stops.noDigit {rest : List Char} (h : Stops rest) : NoDigit rest :=
  fun c hc => (h c hc).1

theorem stops_cons {c : Char} (h : c ∈ [' ', '\t', '\n', '\r', ',', ']', '}', ':'])
    (rest : List Char) : Stops (c :: rest) := by
  intro d hd
  cases hd
  simp only [List.mem_cons, List.not_mem_nil, or_false] at h
  rcases h with rfl | rfl | rfl | rfl | rfl | rfl | rfl | rfl <;> decide

/-- White space and a mark behind it stop a numeral. -/
theorem IsBlank.stops {blank : List Char} (h : IsBlank blank) {c : Char}
    (hc : c ∈ [',', ']', '}', ':']) (rest : List Char) : Stops (blank ++ c :: rest) := by
  cases blank with
  | nil => exact stops_cons (List.mem_append_right [' ', '\t', '\n', '\r'] hc) rest
  | cons d blank =>
      have hd := h d List.mem_cons_self
      exact stops_cons (List.mem_append_left [',', ']', '}', ':'] hd) _

theorem isBlank_nil : IsBlank [] :=
  fun _ h => absurd h List.not_mem_nil

/-! ## White space and words -/

theorem isSpace_iff {c : Char} : isSpace c = true ↔ c ∈ [' ', '\t', '\n', '\r'] := by
  simp [isSpace, or_assoc]

/-- The space before a character that is none is skipped. -/
theorem skipSpace_append {blank : List Char} (h : IsBlank blank) {c : Char}
    (hc : isSpace c = false) (rest : List Char) : skipSpace (blank ++ c :: rest) = c :: rest := by
  have hblank : ∀ d ∈ blank, isSpace d = true := fun d hd => isSpace_iff.mpr (h d hd)
  rw [skipSpace, List.dropWhile_append_of_pos hblank, List.dropWhile_cons_of_neg (by simp [hc])]

@[simp] theorem word_append (result : α) (letters rest : List Char) :
    word result letters (letters ++ rest) = .ok (result, rest) := by
  induction letters with
  | nil => rfl
  | cons w letters ih => rw [List.cons_append, word, if_pos rfl, ih]

/-- The colon of a member is read with the space before it. -/
theorem colon_append {blank : List Char} (h : IsBlank blank) (rest : List Char) :
    colon (blank ++ ':' :: rest) = .ok ((), rest) := by
  rw [colon, skipSpace_append h (by decide)]
  rfl

/-! ## Strings -/

theorem hexValue?_eq_some {value : Nat} {digit : Char} (h : IsHexDigit value digit) :
    hexValue? digit = some value := by
  have hall : ∀ digits ∈ ["0123456789abcdef".toList, "0123456789ABCDEF".toList],
      ∀ value < 16, (digits[value]?).bind hexValue? = some value := by decide
  have hlength : ∀ digits ∈ ["0123456789abcdef".toList, "0123456789ABCDEF".toList],
      digits.length = 16 := by decide
  have hfound : ∀ digits ∈ ["0123456789abcdef".toList, "0123456789ABCDEF".toList],
      digits[value]? = some digit → hexValue? digit = some value := by
    intro digits hdigits hdigit
    have hlt := (List.getElem?_eq_some_iff.mp hdigit).1
    have hvalue := hall digits hdigits value (hlength digits hdigits ▸ hlt)
    rwa [hdigit] at hvalue
  rcases h with h | h
  · exact hfound _ (by simp) h
  · exact hfound _ (by simp) h

theorem codeUnit_append {n : Nat} {digits : List Char} (h : IsCodeUnit n digits)
    (rest : List Char) : codeUnit (digits ++ rest) = .ok (n, rest) := by
  cases h with
  | mk ha hb hc hd =>
      simp [codeUnit, codeUnit?, hexValue?_eq_some ha, hexValue?_eq_some hb, hexValue?_eq_some hc,
        hexValue?_eq_some hd]

theorem escapedChar?_eq_some {letter c : Char} (h : (letter, c) ∈ shortEscapes) :
    letter ≠ 'u' ∧ escapedChar? letter = some c := by
  revert h
  simp only [shortEscapes, List.mem_cons, Prod.mk.injEq, List.not_mem_nil, or_false]
  rintro (⟨rfl, rfl⟩ | ⟨rfl, rfl⟩ | ⟨rfl, rfl⟩ | ⟨rfl, rfl⟩ | ⟨rfl, rfl⟩ | ⟨rfl, rfl⟩ |
    ⟨rfl, rfl⟩ | ⟨rfl, rfl⟩) <;> decide

/-- A character is never a surrogate. -/
@[simp] theorem not_isSurrogate (c : Char) :
    isLowSurrogate c.toNat = false ∧ isHighSurrogate c.toNat = false := by
  have hvalid : c.toNat < 0xD800 ∨ 0xDFFF < c.toNat ∧ c.toNat < 0x110000 := c.valid
  simp only [isLowSurrogate, isHighSurrogate, Bool.and_eq_false_iff, decide_eq_false_iff_not]
  omega

/-- The halves of a large character are surrogates that make the character. -/
theorem pairedChar_eq {c : Char} (h : 0x10000 ≤ c.toNat) :
    let high := 0xD800 + (c.toNat - 0x10000) / 0x400
    let low := 0xDC00 + (c.toNat - 0x10000) % 0x400
    isLowSurrogate high = false ∧ isHighSurrogate high = true ∧ isLowSurrogate low = true ∧
      pairedChar high low = c := by
  intro high low
  have hvalid : c.toNat < 0xD800 ∨ 0xDFFF < c.toNat ∧ c.toNat < 0x110000 := c.valid
  have hnumber : (high - 0xD800) * 0x400 + (low - 0xDC00) + 0x10000 = c.toNat := by omega
  refine ⟨?_, ?_, ?_, ?_⟩
  · simp only [isLowSurrogate, Bool.and_eq_false_iff, decide_eq_false_iff_not]
    omega
  · simp only [isHighSurrogate, Bool.and_eq_true, decide_eq_true_eq]
    omega
  · simp only [isLowSurrogate, Bool.and_eq_true, decide_eq_true_eq]
    omega
  · rw [pairedChar, hnumber, Char.ofNat_toNat]

theorem numberedChar_unit {c : Char} {digits : List Char} (h : IsCodeUnit c.toNat digits)
    (rest : List Char) : numberedChar true (digits ++ rest) = .ok (c, rest) := by
  obtain ⟨hlow, hhigh⟩ := not_isSurrogate c
  simp [numberedChar, codeUnit_append h, hlow, hhigh]

theorem numberedChar_pair {c : Char} {first second : List Char} (hlarge : 0x10000 ≤ c.toNat)
    (hfirst : IsCodeUnit (0xD800 + (c.toNat - 0x10000) / 0x400) first)
    (hsecond : IsCodeUnit (0xDC00 + (c.toNat - 0x10000) % 0x400) second) (rest : List Char) :
    numberedChar true (first ++ '\\' :: 'u' :: (second ++ rest)) = .ok (c, rest) := by
  obtain ⟨hnotLow, hhigh, hlow, hpair⟩ := pairedChar_eq hlarge
  simp [numberedChar, codeUnit_append hfirst, hnotLow, hhigh, lowSurrogate, codeUnit_append hsecond,
    hlow, hpair]

theorem stringBody_plain {strict : Bool} {c : Char} (h : IsPlain c) {text body rest : List Char}
    (htext : stringBody strict text = .ok (body, rest)) :
    stringBody strict (c :: text) = .ok (c :: body, rest) := by
  obtain ⟨hquote, hbackslash, hcontrol⟩ := h
  rw [stringBody, if_neg hquote, if_neg hbackslash, if_neg (Nat.not_lt.mpr hcontrol), htext]

theorem stringBody_escape {strict : Bool} {c : Char} {piece text body rest : List Char}
    (hpiece : escape strict piece = .ok (c, text))
    (htext : stringBody strict text = .ok (body, rest)) :
    stringBody strict ('\\' :: piece) = .ok (c :: body, rest) := by
  rw [stringBody, if_neg (by decide), if_pos rfl]
  split
  · rename_i found after hfound
    rw [hpiece] at hfound
    cases hfound
    rw [htext]
  · rename_i error herror
    rw [hpiece] at herror
    cases herror

theorem escape_short {strict : Bool} {letter c : Char} (h : (letter, c) ∈ shortEscapes)
    (text : List Char) : escape strict (letter :: text) = .ok (c, text) := by
  obtain ⟨hletter, hescaped⟩ := escapedChar?_eq_some h
  rw [escape, if_neg hletter, hescaped]

/-- A character of a string is read, however it is written. -/
theorem stringBody_character {c : Char} {piece text body rest : List Char} (h : IsCharacter c piece)
    (htext : stringBody true text = .ok (body, rest)) :
    stringBody true (piece ++ text) = .ok (c :: body, rest) := by
  cases h with
  | plain h => exact stringBody_plain h htext
  | short h => exact stringBody_escape (escape_short h text) htext
  | @unit _ digits h =>
      have hescape : escape true ('u' :: (digits ++ text)) = .ok (c, text) := by
        rw [escape, if_pos rfl, numberedChar_unit h]
      exact stringBody_escape hescape htext
  | @pair _ first second hlarge hfirst hsecond =>
      have hescape : escape true ('u' :: ((first ++ '\\' :: 'u' :: second) ++ text)) =
          .ok (c, text) := by
        rw [escape, if_pos rfl, List.append_assoc]
        exact numberedChar_pair hlarge hfirst hsecond text
      exact stringBody_escape hescape htext

/-- A piece of a string is passed over, also a lone surrogate. -/
theorem stringBody_unit {piece text body rest : List Char} (h : IsPiece piece)
    (htext : stringBody false text = .ok (body, rest)) :
    ∃ c, stringBody false (piece ++ text) = .ok (c :: body, rest) := by
  cases h with
  | plain h => exact ⟨_, stringBody_plain h htext⟩
  | short h => exact ⟨_, stringBody_escape (escape_short h text) htext⟩
  | @unit n digits h =>
      have hescape : escape false ('u' :: (digits ++ text)) = .ok (Char.ofNat n, text) := by
        simp [escape, numberedChar, codeUnit_append h]
      exact ⟨_, stringBody_escape hescape htext⟩

/-- A string that is written between quotes is read. -/
theorem IsQuoted.stringBody {s : String} {text : List Char} (h : IsQuoted s text) :
    ∃ tail, text = '"' :: tail ∧
      ∀ rest, Json.stringBody true (tail ++ rest) = .ok (s.toList, rest) := by
  obtain ⟨pieces, hpieces, rfl⟩ := h
  refine ⟨_, rfl, fun rest => ?_⟩
  rw [List.append_assoc, List.singleton_append]
  generalize s.toList = chars at hpieces
  induction hpieces with
  | nil => rw [List.flatten_nil, List.nil_append, Json.stringBody, if_pos rfl]
  | cons hpiece _ ih =>
      rw [List.flatten_cons, List.append_assoc]
      exact stringBody_character hpiece ih

theorem IsLooselyQuoted.stringBody {text : List Char} (h : IsLooselyQuoted text) :
    ∃ tail, text = '"' :: tail ∧
      ∀ rest, ∃ body, Json.stringBody false (tail ++ rest) = .ok (body, rest) := by
  obtain ⟨pieces, hpieces, rfl⟩ := h
  refine ⟨_, rfl, fun rest => ?_⟩
  rw [List.append_assoc, List.singleton_append]
  induction pieces with
  | nil => exact ⟨[], by rw [List.flatten_nil, List.nil_append, Json.stringBody, if_pos rfl]⟩
  | cons piece pieces ih =>
      obtain ⟨body, hbody⟩ := ih fun other hother => hpieces other (List.mem_cons_of_mem _ hother)
      obtain ⟨c, hc⟩ := stringBody_unit (hpieces piece List.mem_cons_self) hbody
      rw [List.flatten_cons, List.append_assoc]
      exact ⟨c :: body, hc⟩

/-- The name of a member is read. -/
theorem IsQuoted.memberName {key : String} {name before : List Char} (h : IsQuoted key name)
    (hbefore : IsBlank before) (rest : List Char) :
    Json.memberName true (before ++ (name ++ rest)) = .ok (key.toList, rest) := by
  obtain ⟨tail, rfl, hbody⟩ := h.stringBody
  rw [Json.memberName, List.cons_append, skipSpace_append hbefore (by decide)]
  exact hbody rest

theorem IsLooselyQuoted.memberName {name before : List Char} (h : IsLooselyQuoted name)
    (hbefore : IsBlank before) (rest : List Char) :
    ∃ key, Json.memberName false (before ++ (name ++ rest)) = .ok (key, rest) := by
  obtain ⟨tail, rfl, hbody⟩ := h.stringBody
  rw [Json.memberName, List.cons_append, skipSpace_append hbefore (by decide)]
  exact hbody rest

/-! ## Numbers -/

theorem takeWhile_isDigit {ds rest : List Char} (hds : ∀ c ∈ ds, c.isDigit = true)
    (hrest : NoDigit rest) :
    (ds ++ rest).takeWhile Char.isDigit = ds ∧ (ds ++ rest).dropWhile Char.isDigit = rest := by
  rw [List.takeWhile_append_of_pos hds, List.dropWhile_append_of_pos hds]
  cases rest with
  | nil => simp
  | cons c rest => simp [hrest c rfl]

theorem digits_append (atEnd : ReadError) {ds rest : List Char} (hds : IsDigits ds)
    (hrest : NoDigit rest) : digits atEnd (ds ++ rest) = .ok (ds, rest) := by
  obtain ⟨hne, hall⟩ := hds
  cases ds with
  | nil => exact absurd rfl hne
  | cons d ds =>
      obtain ⟨htake, hdrop⟩ := takeWhile_isDigit
        (fun c hc => hall c (List.mem_cons_of_mem d hc)) hrest
      rw [List.cons_append, digits, if_pos (hall d List.mem_cons_self), htake, hdrop]

theorem wholePart_append (atEnd : ReadError) {whole rest : List Char} (hwhole : IsDigits whole)
    (hzero : whole.head? = some '0' → whole = ['0']) (hrest : NoDigit rest) :
    wholePart atEnd (whole ++ rest) = .ok (whole, rest) := by
  cases whole with
  | nil => exact absurd rfl hwhole.1
  | cons d ds =>
      by_cases hd : d = '0'
      · subst hd
        cases hzero rfl
        cases rest with
        | nil => rfl
        | cons c rest =>
            have hc : c.isDigit = false := hrest c rfl
            simp [wholePart, hc]
      · rw [← digits_append atEnd hwhole hrest, List.cons_append, wholePart]
        intro tail htail
        exact hd (List.cons.inj htail).1

theorem fractionPart_append (atEnd : ReadError) {ds fraction rest : List Char}
    (h : IsFraction ds fraction) (hrest : NoDigit rest) (hpoint : ∀ c ∈ rest.head?, c ≠ '.') :
    fractionPart atEnd (fraction ++ rest) = .ok (ds, rest) := by
  cases h with
  | some h => exact digits_append atEnd h hrest
  | none =>
      rw [List.nil_append, fractionPart]
      rintro tail rfl
      exact hpoint '.' rfl rfl

theorem exponentSign_append {ds : List Char} (h : IsDigits ds) (rest : List Char) :
    exponentSign (ds ++ rest) = (false, ds ++ rest) := by
  cases ds with
  | nil => exact absurd rfl h.1
  | cons d ds =>
      have hd := h.2 d List.mem_cons_self
      unfold exponentSign
      split
      · rename_i heq
        cases (List.cons.inj heq).1
        exact absurd hd (by decide)
      · rename_i heq
        cases (List.cons.inj heq).1
        exact absurd hd (by decide)
      · rfl

theorem exponentPart_append (atEnd : ReadError) {negative : Bool} {ds exponent rest : List Char}
    (h : IsExponent negative ds exponent) (hrest : Stops rest) :
    exponentPart atEnd (exponent ++ rest) = .ok ((negative, ds), rest) := by
  have hmark : ∀ {letter : Char}, letter ∈ ['e', 'E'] → letter = 'e' ∨ letter = 'E' := by
    simp
  cases h with
  | none =>
      cases rest with
      | nil => rfl
      | cons c rest =>
          obtain ⟨_, _, he, hE⟩ := hrest c rfl
          rw [List.nil_append, exponentPart, if_neg (not_or.mpr ⟨he, hE⟩)]
  | unsigned hletter h =>
      rw [List.cons_append, exponentPart, if_pos (hmark hletter), exponentSign_append h]
      simp [digits_append atEnd h hrest.noDigit, bind, Except.bind]
  | plus hletter h =>
      rw [List.cons_append, List.cons_append, exponentPart, if_pos (hmark hletter)]
      simp [exponentSign, digits_append atEnd h hrest.noDigit, bind, Except.bind]
  | minus hletter h =>
      rw [List.cons_append, List.cons_append, exponentPart, if_pos (hmark hletter)]
      simp [exponentSign, digits_append atEnd h hrest.noDigit, bind, Except.bind]

/-- An exponent or what stops a numeral is not taken for more digits or for a fraction. -/
theorem IsExponent.head {negative : Bool} {ds exponent rest : List Char}
    (h : IsExponent negative ds exponent) (hrest : Stops rest) :
    NoDigit (exponent ++ rest) ∧ ∀ c ∈ (exponent ++ rest).head?, c ≠ '.' := by
  have hmark : ∀ letter ∈ ['e', 'E'], letter.isDigit = false ∧ letter ≠ '.' := by simp
  have hletter : ∀ letter ∈ ['e', 'E'], ∀ tail : List Char,
      NoDigit (letter :: tail) ∧ ∀ c ∈ (letter :: tail).head?, c ≠ '.' := by
    intro letter hletter tail
    constructor
    · rintro _ ⟨⟩
      exact (hmark letter hletter).1
    · rintro _ ⟨⟩
      exact (hmark letter hletter).2
  cases h with
  | none => exact ⟨hrest.noDigit, fun c hc => (hrest c hc).2.1⟩
  | unsigned hmem h => exact hletter _ hmem _
  | plus hmem h => exact hletter _ hmem _
  | minus hmem h => exact hletter _ hmem _

theorem IsFraction.noDigit {ds fraction rest : List Char} (h : IsFraction ds fraction)
    (hrest : NoDigit rest) : NoDigit (fraction ++ rest) := by
  cases h with
  | none => exact hrest
  | some h =>
      rintro _ ⟨⟩
      decide

theorem IsDigits.head {ds : List Char} (h : IsDigits ds) :
    ∃ d tail, ds = d :: tail ∧ d.isDigit = true := by
  obtain ⟨d, tail, rfl⟩ := List.exists_cons_of_ne_nil h.1
  exact ⟨d, tail, rfl, h.2 d List.mem_cons_self⟩

namespace Numeral

variable {n : Numeral} {text rest : List Char}

theorem IsSpelled.numeral (h : n.IsSpelled text) (atEnd : ReadError) (hrest : Stops rest) :
    Json.numeral atEnd (text ++ rest) = .ok (n, rest) := by
  cases h with
  | @mk fraction exponent hwhole hzero hfraction hexponent =>
      obtain ⟨hdigit, hpoint⟩ := hexponent.head hrest
      have hunsigned : ∀ negative, unsignedNumeral negative atEnd
          (n.whole ++ (fraction ++ (exponent ++ rest))) =
            .ok ({ n with negative }, rest) := by
        intro negative
        rw [unsignedNumeral, wholePart_append atEnd hwhole hzero (hfraction.noDigit hdigit)]
        simp only [bind, Except.bind, fractionPart_append atEnd hfraction hdigit hpoint,
          exponentPart_append atEnd hexponent hrest]
      simp only [List.append_assoc]
      cases hnegative : n.negative with
      | true =>
          rw [if_pos rfl, List.singleton_append, Json.numeral, hunsigned, ← hnegative]
      | false =>
          obtain ⟨d, tail, hd, hdigit⟩ := hwhole.head
          rw [if_neg (by decide), List.nil_append, Json.numeral, hunsigned, ← hnegative]
          intro other hother
          rw [hd] at hother
          cases (List.cons.inj hother).1
          exact absurd hdigit (by decide)

/-- A numeral starts with a sign or a digit. -/
theorem IsSpelled.starts (h : n.IsSpelled text) :
    ∃ c tail, text = c :: tail ∧ startsNumeral c = true := by
  cases h with
  | mk hwhole _ _ _ =>
      obtain ⟨d, tail, hd, hdigit⟩ := hwhole.head
      cases n.negative with
      | true => exact ⟨'-', _, rfl, by decide⟩
      | false =>
          refine ⟨d, _, by rw [hd]; rfl, ?_⟩
          simp [startsNumeral, hdigit]

end Numeral

theorem number_append {n : Numeral} {text rest : List Char} {value : Value}
    (h : n.IsSpelled text) (hvalue : n.value = .ok value) (hrest : Stops rest) :
    number (text ++ rest) = .ok (value, rest) := by
  simp only [number, h.numeral .cutOff hrest, bind, Except.bind, hvalue]

/-- The numeral of an integer. -/
def Numeral.ofInt (i : Int) : Numeral :=
  { negative := decide (i < 0)
    whole := Nat.toDigits 10 i.natAbs
    fraction := []
    exponentNegative := false
    exponent := [] }

theorem Numeral.isSpelled_ofInt (i : Int) : (ofInt i).IsSpelled i.repr.toList := by
  have htext : i.repr.toList =
      (if (ofInt i).negative then ['-'] else []) ++ ((ofInt i).whole ++ ([] ++ [])) := by
    rw [Int.repr_eq_if]
    by_cases hi : 0 ≤ i
    · have hnot : ¬i < 0 := by omega
      have habs : i.toNat = i.natAbs := by omega
      simp [ofInt, hi, hnot, habs, Nat.toList_repr]
    · have hlt : i < 0 := by omega
      have habs : (-i).toNat = i.natAbs := by omega
      simp [ofInt, hi, hlt, habs, Nat.toList_repr]
  rw [htext]
  refine .mk ⟨Nat.toDigits_ne_nil, fun c hc => ?_⟩ Text.toDigits_eq_of_head .none .none
  exact Nat.isDigit_of_mem_toDigits (by decide) (by decide) hc

theorem Numeral.value_ofInt {i : Int} (hleast : -(Nat.pow 2 63 : Int) ≤ i)
    (hgreatest : i < (Nat.pow 2 64 : Int)) : (ofInt i).value = .ok (.int i) := by
  have hint : (ofInt i).toInt? = some i := by
    unfold toInt?
    simp only [ofInt, isWhole, Text.natOfDigits_toDigits]
    by_cases hi : i < 0
    · have hrange : 0 < i.natAbs ∧ i.natAbs ≤ Nat.pow 2 63 := by omega
      have hneg : -(i.natAbs : Int) = i := by omega
      rw [if_neg (by simp), if_pos (by simpa using hi), if_pos hrange, hneg]
    · have hrange : i.natAbs < Nat.pow 2 64 := by omega
      have habs : (i.natAbs : Int) = i := by omega
      rw [if_neg (by simp), if_neg (by simpa using hi), if_pos hrange, habs]
  rw [value, hint]

end Json
end Workflow
