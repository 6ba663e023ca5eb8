import Mathlib.Data.List.Forall2
import Workflow.Json.Number
import Workflow.Json.Value

/-!
# The grammar of JSON texts

Which texts write a value.  Containers have white space around their parts, strings have escapes,
and of several members with one name the last counts (`Value.IsWritten`).  A wider grammar has the
texts of values that are of no interest, with lone surrogates and numbers of any size
(`IsGrammatical`).  The relations are those of the format; no scan takes part in them.
-/

namespace Workflow
namespace Json

/-- White space, perhaps none. -/
def IsBlank (text : List Char) : Prop :=
  ∀ c ∈ text, c ∈ [' ', '\t', '\n', '\r']

/-! ## Containers -/

/-- Some parts with commas between them and a closing character behind the last; white space may
stand around each part. -/
inductive Joined (closing : Char) : List (List Char) → List Char → Prop where
  | last {before part after : List Char} (hbefore : IsBlank before) (hafter : IsBlank after) :
      Joined closing [part] (before ++ (part ++ (after ++ [closing])))
  | more {before part after text : List Char} {parts : List (List Char)}
      (hbefore : IsBlank before) (hafter : IsBlank after) (h : Joined closing parts text) :
      Joined closing (part :: parts) (before ++ (part ++ (after ++ ',' :: text)))

/-- A container with some parts. -/
inductive Enclosed (opening closing : Char) : List (List Char) → List Char → Prop where
  | empty {blank : List Char} (h : IsBlank blank) :
      Enclosed opening closing [] (opening :: (blank ++ [closing]))
  | parts {parts : List (List Char)} {text : List Char} (h : Joined closing parts text) :
      Enclosed opening closing parts (opening :: text)

/-- A member of an object, given by its key and the text of its value.  Its name is a text for the
key. -/
inductive IsMember {κ : Type} (names : κ → List Char → Prop) :
    κ × List Char → List Char → Prop where
  | mk {key : κ} {name before after value : List Char} (hname : names key name)
      (hbefore : IsBlank before) (hafter : IsBlank after) :
      IsMember names (key, value) (name ++ (before ++ ':' :: (after ++ value)))

/-- An object with some members. -/
def IsObject {κ : Type} (names : κ → List Char → Prop) (members : List (κ × List Char))
    (text : List Char) : Prop :=
  ∃ parts, List.Forall₂ (IsMember names) members parts ∧ Enclosed '{' '}' parts text

/-- A list with some items. -/
def IsList {α : Type} (writes : α → List Char → Prop) (items : List α) (text : List Char) : Prop :=
  ∃ parts, List.Forall₂ writes items parts ∧ Enclosed '[' ']' parts text

/-! ## Strings -/

/-- A digit to base sixteen, small or capital. -/
def IsHexDigit (value : Nat) (digit : Char) : Prop :=
  "0123456789abcdef".toList[value]? = some digit ∨ "0123456789ABCDEF".toList[value]? = some digit

/-- The four digits of a code unit. -/
inductive IsCodeUnit : Nat → List Char → Prop where
  | mk {u v w x : Nat} {a b c d : Char} (ha : IsHexDigit u a) (hb : IsHexDigit v b)
      (hc : IsHexDigit w c) (hd : IsHexDigit x d) :
      IsCodeUnit (((u * 16 + v) * 16 + w) * 16 + x) [a, b, c, d]

/-- The letters that may follow a backslash, and what they stand for. -/
def shortEscapes : List (Char × Char) :=
  [('"', '"'), ('\\', '\\'), ('/', '/'), ('b', '\x08'), ('f', '\x0c'), ('n', '\n'), ('r', '\r'),
    ('t', '\t')]

/-- A character may stand in a string as it is. -/
def IsPlain (c : Char) : Prop :=
  c ≠ '"' ∧ c ≠ '\\' ∧ 0x20 ≤ c.toNat

/-- A character as it may be written in a string: as it is, by a letter behind a backslash, or by
its one or two code units. -/
inductive IsCharacter : Char → List Char → Prop where
  | plain {c : Char} (h : IsPlain c) : IsCharacter c [c]
  | short {letter c : Char} (h : (letter, c) ∈ shortEscapes) : IsCharacter c ['\\', letter]
  | unit {c : Char} {digits : List Char} (h : IsCodeUnit c.toNat digits) :
      IsCharacter c ('\\' :: 'u' :: digits)
  | pair {c : Char} {first second : List Char} (hlarge : 0x10000 ≤ c.toNat)
      (hfirst : IsCodeUnit (0xD800 + (c.toNat - 0x10000) / 0x400) first)
      (hsecond : IsCodeUnit (0xDC00 + (c.toNat - 0x10000) % 0x400) second) :
      IsCharacter c ('\\' :: 'u' :: (first ++ '\\' :: 'u' :: second))

/-- A string between its quotes. -/
def IsQuoted (s : String) (text : List Char) : Prop :=
  ∃ pieces, List.Forall₂ IsCharacter s.toList pieces ∧ text = '"' :: (pieces.flatten ++ ['"'])

/-- A piece of a string that may hold lone surrogates. -/
inductive IsPiece : List Char → Prop where
  | plain {c : Char} (h : IsPlain c) : IsPiece [c]
  | short {letter c : Char} (h : (letter, c) ∈ shortEscapes) : IsPiece ['\\', letter]
  | unit {n : Nat} {digits : List Char} (h : IsCodeUnit n digits) : IsPiece ('\\' :: 'u' :: digits)

/-- A string between its quotes, perhaps with lone surrogates. -/
def IsLooselyQuoted (text : List Char) : Prop :=
  ∃ pieces : List (List Char),
    (∀ piece ∈ pieces, IsPiece piece) ∧ text = '"' :: (pieces.flatten ++ ['"'])

/-! ## Numbers -/

def IsDigits (digits : List Char) : Prop :=
  digits ≠ [] ∧ ∀ c ∈ digits, c.isDigit = true

/-- A fraction with some digits; without digits there is none. -/
inductive IsFraction : List Char → List Char → Prop where
  | none : IsFraction [] []
  | some {digits : List Char} (h : IsDigits digits) : IsFraction digits ('.' :: digits)

/-- An exponent that is negative or not, with some digits; without digits there is none. -/
inductive IsExponent : Bool → List Char → List Char → Prop where
  | none : IsExponent false [] []
  | unsigned {letter : Char} {digits : List Char} (hletter : letter ∈ ['e', 'E'])
      (h : IsDigits digits) : IsExponent false digits (letter :: digits)
  | plus {letter : Char} {digits : List Char} (hletter : letter ∈ ['e', 'E'])
      (h : IsDigits digits) : IsExponent false digits (letter :: '+' :: digits)
  | minus {letter : Char} {digits : List Char} (hletter : letter ∈ ['e', 'E'])
      (h : IsDigits digits) : IsExponent true digits (letter :: '-' :: digits)

/-- A numeral with given parts; no zero leads other digits. -/
inductive Numeral.IsSpelled (n : Numeral) : List Char → Prop where
  | mk {fraction exponent : List Char} (hwhole : IsDigits n.whole)
      (hzero : n.whole.head? = some '0' → n.whole = ['0'])
      (hfraction : IsFraction n.fraction fraction)
      (hexponent : IsExponent n.exponentNegative n.exponent exponent) :
      IsSpelled n ((if n.negative then ['-'] else []) ++ (n.whole ++ (fraction ++ exponent)))

/-! ## Values -/

/-- A text for a value with at most `depth` containers inside one another.  An integer in the range
that is kept exactly is written plainly; any other numeral must be one that a double comes near. -/
inductive Value.IsWritten : (depth : Nat) → Value → List Char → Prop where
  | null {depth : Nat} : IsWritten depth null "null".toList
  | true {depth : Nat} : IsWritten depth (bool true) "true".toList
  | false {depth : Nat} : IsWritten depth (bool false) "false".toList
  | int {depth : Nat} {i : Int} (hleast : -(Nat.pow 2 63 : Int) ≤ i)
      (hgreatest : i < (Nat.pow 2 64 : Int)) :
      IsWritten depth (int i) i.repr.toList
  | real {depth : Nat} {n : Numeral} {x : Float} {text : List Char} (h : n.IsSpelled text)
      (hint : n.toInt? = none) (hfloat : n.toFloat? = some x) : IsWritten depth (real x) text
  | str {depth : Nat} {s : String} {text : List Char} (h : IsQuoted s text) :
      IsWritten depth (str s) text
  | arr {depth : Nat} {items : List (Value × List Char)} {text : List Char}
      (hitems : ∀ item ∈ items, IsWritten depth item.1 item.2)
      (htext : Enclosed '[' ']' (items.map Prod.snd) text) :
      IsWritten (depth + 1) (arr (items.map Prod.fst)) text
  | obj {depth : Nat} {members : List (String × Value × List Char)}
      {entries : List (String × Value)} {text : List Char}
      (hmembers : ∀ member ∈ members, IsWritten depth member.2.1 member.2.2)
      (htext : IsObject IsQuoted (members.map fun member => (member.1, member.2.2)) text)
      (hascending : Keyed.Ascending entries)
      (hentries : ∀ name, Keyed.find? name entries =
        Keyed.find? name (members.map fun member => (member.1, member.2.1)).reverse) :
      IsWritten (depth + 1) (obj entries) text

/-- A text for any value at all.  Its strings may hold lone surrogates, its numbers may be of any
size, and its containers stand inside one another at will. -/
inductive IsGrammatical : List Char → Prop where
  | null : IsGrammatical "null".toList
  | true : IsGrammatical "true".toList
  | false : IsGrammatical "false".toList
  | number {n : Numeral} {text : List Char} (h : n.IsSpelled text) : IsGrammatical text
  | string {text : List Char} (h : IsLooselyQuoted text) : IsGrammatical text
  | array {items : List (List Char)} {text : List Char}
      (hitems : ∀ item ∈ items, IsGrammatical item) (htext : Enclosed '[' ']' items text) :
      IsGrammatical text
  | object {members : List (List Char × List Char)} {text : List Char}
      (hnames : ∀ member ∈ members, IsLooselyQuoted member.1)
      (hvalues : ∀ member ∈ members, IsGrammatical member.2) (htext : IsObject Eq members text) :
      IsGrammatical text

/-! ## Records -/

/-- The texts of the values that some members have under one of some names. -/
def valuesOf (names : List String) (members : List (String × List Char)) : List (List Char) :=
  (members.filter fun member => member.1 ∈ names).map Prod.snd

/-- Some members have a value under one of some names, once. -/
def Has (members : List (String × List Char)) (names : List String) (P : List Char → Prop) : Prop :=
  ∃ text, valuesOf names members = [text] ∧ P text

/-- The same, or they have none and a default is meant. -/
def MayHave (members : List (String × List Char)) (names : List String) (P : List Char → Prop)
    (isDefault : Prop) : Prop :=
  Has members names P ∨ valuesOf names members = [] ∧ isDefault

/-- An object with some members of a record among others that are of no interest. -/
structure IsRecord (names : List String) (members : List (String × List Char)) (text : List Char) :
    Prop where
  written : IsObject IsQuoted members text
  others : ∀ member ∈ members, member.1 ∉ names → IsGrammatical member.2

/-- A text for a value that may be absent. -/
inductive IsOptional {α : Type} (writes : α → List Char → Prop) : Option α → List Char → Prop where
  | none : IsOptional writes none "null".toList
  | some {a : α} {text : List Char} (h : writes a text) : IsOptional writes (some a) text

end Json
end Workflow
