import Workflow.Json.Scan

/-!
# JSON strings

A string runs to the next quote that no backslash precedes.  `stringBody` reads one behind its
opening quote.  A strict reading pairs surrogates and refuses a lone one; a reading that only
passes over a string looks at no more than the four digits of a code unit.
-/

namespace Workflow
namespace Json

/-- The value of a digit to base sixteen. -/
def hexValue? (c : Char) : Option Nat :=
  if c.isDigit then some (c.toNat - '0'.toNat)
  else if 'a' ≤ c ∧ c ≤ 'f' then some (c.toNat - 'a'.toNat + 10)
  else if 'A' ≤ c ∧ c ≤ 'F' then some (c.toNat - 'A'.toNat + 10)
  else none

def codeUnit? (a b c d : Char) : Option Nat := do
  let a ← hexValue? a
  let b ← hexValue? b
  let c ← hexValue? c
  let d ← hexValue? d
  return ((a * 16 + b) * 16 + c) * 16 + d

/-- The number of bytes a text takes in UTF-8. -/
def byteLength (text : List Char) : Nat :=
  text.foldl (fun count c => count + c.utf8Size) 0

/-- Reads a code unit of four digits.  With fewer than four bytes left the text is cut off. -/
def codeUnit : Scan Nat
  | a :: b :: c :: d :: text =>
      match codeUnit? a b c d with
      | some n => .ok (n, text)
      | none => .error .malformed
  | text => if byteLength text < 4 then .error .cutOff else .error .malformed

/-- Whether a code unit is the first half of a pair. -/
def isHighSurrogate (n : Nat) : Bool :=
  0xD800 ≤ n && n ≤ 0xDBFF

/-- Whether a code unit is the second half of a pair. -/
def isLowSurrogate (n : Nat) : Bool :=
  0xDC00 ≤ n && n ≤ 0xDFFF

/-- The character of a pair of surrogates. -/
def pairedChar (high low : Nat) : Char :=
  Char.ofNat ((high - 0xD800) * 0x400 + (low - 0xDC00) + 0x10000)

/-- Reads the second half of a pair, which is escaped too. -/
def lowSurrogate (high : Nat) : Scan Char
  | '\\' :: 'u' :: text =>
      match codeUnit text with
      | .ok (low, text) =>
          if isLowSurrogate low then .ok (pairedChar high low, text) else .error .malformed
      | .error e => .error e
  | [] => .error .cutOff
  | ['\\'] => .error .cutOff
  | _ => .error .malformed

/-- Reads a character given by its number, behind the letter `u`. -/
def numberedChar (strict : Bool) : Scan Char := fun text =>
  match codeUnit text with
  | .ok (n, text) =>
      if strict = false then .ok (Char.ofNat n, text)
      else if isLowSurrogate n then .error .malformed
      else if isHighSurrogate n then lowSurrogate n text
      else .ok (Char.ofNat n, text)
  | .error e => .error e

/-- The character that a letter behind a backslash stands for. -/
def escapedChar? : Char → Option Char
  | '"' => some '"'
  | '\\' => some '\\'
  | '/' => some '/'
  | 'b' => some '\x08'
  | 'f' => some '\x0c'
  | 'n' => some '\n'
  | 'r' => some '\r'
  | 't' => some '\t'
  | _ => none

/-- Reads an escaped character behind its backslash. -/
def escape (strict : Bool) : Scan Char
  | [] => .error .cutOff
  | c :: text =>
      if c = 'u' then
        numberedChar strict text
      else
        match escapedChar? c with
        | some d => .ok (d, text)
        | none => .error .malformed

theorem length_lt_of_codeUnit {text rest : List Char} {n : Nat}
    (h : codeUnit text = .ok (n, rest)) : rest.length < text.length := by
  unfold codeUnit at h
  split at h
  · split at h
    · cases h
      simp only [List.length_cons]
      omega
    · simp at h
  · split at h <;> simp at h

theorem length_lt_of_lowSurrogate {high : Nat} {text rest : List Char} {c : Char}
    (h : lowSurrogate high text = .ok (c, rest)) : rest.length < text.length := by
  unfold lowSurrogate at h
  split at h
  · rename_i tail
    split at h
    · rename_i low after hunit
      split at h
      · simp only [Except.ok.injEq, Prod.mk.injEq] at h
        obtain ⟨_, rfl⟩ := h
        have := length_lt_of_codeUnit hunit
        simp only [List.length_cons]
        omega
      · simp at h
    · simp at h
  · simp at h
  · simp at h
  · simp at h

theorem length_lt_of_numberedChar {strict : Bool} {text rest : List Char} {c : Char}
    (h : numberedChar strict text = .ok (c, rest)) : rest.length < text.length := by
  unfold numberedChar at h
  split at h
  · rename_i n after hunit
    have hlt := length_lt_of_codeUnit hunit
    split at h
    · cases h
      exact hlt
    · split at h
      · simp at h
      · split at h
        · exact Nat.lt_trans (length_lt_of_lowSurrogate h) hlt
        · cases h
          exact hlt
  · simp at h

theorem length_lt_of_escape {strict : Bool} {text rest : List Char} {c : Char}
    (h : escape strict text = .ok (c, rest)) : rest.length < text.length := by
  unfold escape at h
  split at h
  · simp at h
  · split at h
    · have := length_lt_of_numberedChar h
      simp only [List.length_cons]
      omega
    · split at h
      · cases h
        simp
      · simp at h

/-- Reads a string behind its opening quote, up to and with the closing one.  Control characters
have to be escaped. -/
def stringBody (strict : Bool) : Scan (List Char)
  | [] => .error .cutOff
  | c :: text =>
      if c = '"' then
        .ok ([], text)
      else if c = '\\' then
        match h : escape strict text with
        | .ok (d, after) =>
            have : after.length < text.length := length_lt_of_escape h
            match stringBody strict after with
            | .ok (body, rest) => .ok (d :: body, rest)
            | .error e => .error e
        | .error e => .error e
      else if c.toNat < 0x20 then
        .error .malformed
      else
        match stringBody strict text with
        | .ok (body, rest) => .ok (c :: body, rest)
        | .error e => .error e
termination_by text => text.length

/-- Reads the name of a member, behind any space. -/
def memberName (strict : Bool) : Scan (List Char) := fun text =>
  match skipSpace text with
  | '"' :: text => stringBody strict text
  | [] => .error .cutOff
  | _ => .error .malformed

end Json
end Workflow
