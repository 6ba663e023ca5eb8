import Workflow.Json.ReadError

/-!
# Scanning JSON texts

A scan reads something at the start of a text and hands on the rest, or says why it cannot.  This
module scans what all values share: white space, fixed words, and the elements and members of
containers.  The loops over elements and members are given as many rounds as the text has
characters, and each element takes at least one.
-/

namespace Workflow
namespace Json

/-- Reads something at the start of a text; the result holds the rest. -/
abbrev Scan (α : Type) :=
  List Char → Except ReadError (α × List Char)

def isSpace (c : Char) : Bool :=
  c = ' ' || c = '\t' || c = '\n' || c = '\r'

/-- A text without the space at its start. -/
def skipSpace (text : List Char) : List Char :=
  text.dropWhile isSpace

/-- Reads the rest of a fixed word and gives `result`. -/
def word (result : α) : List Char → Scan α
  | [], text => .ok (result, text)
  | _ :: _, [] => .error .cutOff
  | w :: rest, c :: text => if w = c then word result rest text else .error .malformed

/-- Reads the colon after the name of a member. -/
def colon : Scan Unit := fun text =>
  match skipSpace text with
  | ':' :: text => .ok ((), text)
  | [] => .error .cutOff
  | _ => .error .malformed

/-- Reads at most `rounds` elements, up to and with the closing bracket. -/
def elementsFrom (element : Scan α) : (rounds : Nat) → Scan (List α)
  | 0, _ => .error .cutOff
  | rounds + 1, text => do
      let (first, text) ← element text
      match skipSpace text with
      | ']' :: text => .ok ([first], text)
      | ',' :: text => do
          let (others, text) ← elementsFrom element rounds text
          .ok (first :: others, text)
      | [] => .error .cutOff
      | _ => .error .malformed

/-- Reads the elements of a list behind its opening bracket. -/
def elements (element : Scan α) : Scan (List α) := fun text =>
  match skipSpace text with
  | ']' :: text => .ok ([], text)
  | text => elementsFrom element (text.length + 1) text

/-- Reads at most `rounds` members, up to and with the closing brace.  A name is read by `name`,
and `member` reads what follows it and changes the state. -/
def membersFrom (name : Scan κ) (member : κ → σ → Scan σ) : (rounds : Nat) → σ → Scan σ
  | 0, _, _ => .error .cutOff
  | rounds + 1, state, text => do
      let (key, text) ← name text
      let (state, text) ← member key state text
      match skipSpace text with
      | '}' :: text => .ok (state, text)
      | ',' :: text => membersFrom name member rounds state text
      | [] => .error .cutOff
      | _ => .error .malformed

/-- Reads the members of an object behind its opening brace. -/
def members (name : Scan κ) (member : κ → σ → Scan σ) (state : σ) : Scan σ := fun text =>
  match skipSpace text with
  | '}' :: text => .ok (state, text)
  | text => membersFrom name member (text.length + 1) state text

end Json
end Workflow
