import Workflow.Json.Read

/-!
# Reading JSON texts as typed values

A reader turns a JSON text directly into a value of a Lean type and stops at the first thing in the
text that does not fit.  It is told how many containers may still open inside one another.

`Reader.list`, `Reader.optional`, `Reader.table`, `Reader.choice` and `Reader.record` build readers
from readers; `read` runs one on a whole text.
-/

namespace Workflow
namespace Json

/-- Reads a value of type `α` with at most the given number of containers inside one another. -/
abbrev Reader (α : Type) :=
  (depth : Nat) → Scan α

/-- What a value is, as an error names it. -/
def Found.ofValue : Value → Found
  | .null => .null
  | .bool b => .boolean b
  | .int i => .integer i
  | .real x => .real x
  | .str s => .string s
  | .arr _ => .sequence
  | .obj _ => .map

/-- Refuses a value of the wrong type, given its first character.  A scalar is read to its end, so
an error inside it comes first. -/
def mistyped (first : Char) : Scan α := fun text =>
  if first = '[' then
    .error (.invalidType .sequence)
  else if first = '{' then
    .error (.invalidType .map)
  else do
    let (v, _) ← scalar first text
    .error (.invalidType (.ofValue v))

namespace Reader

def string : Reader String := fun _ text =>
  match skipSpace text with
  | [] => .error .cutOff
  | '"' :: text => Json.string text
  | c :: text => mistyped c text

def value : Reader Value :=
  Json.value

def list (item : Reader α) : Reader (List α) := fun depth text =>
  match skipSpace text with
  | [] => .error .cutOff
  | '[' :: text =>
      match depth with
      | 0 => .error .malformed
      | depth + 1 => elements (item depth) text
  | c :: text => mistyped c text

/-- Reads an object with values of one type, and adds one member after the other to `start`. -/
def table (item : Reader α) (add : String → α → σ → σ) (start : σ) : Reader σ := fun depth text =>
  match skipSpace text with
  | [] => .error .cutOff
  | '{' :: text =>
      match depth with
      | 0 => .error .malformed
      | depth + 1 => members (memberName true) (entry (item depth) add) start text
  | c :: text => mistyped c text

def optional (item : Reader α) : Reader (Option α) := fun depth text =>
  match skipSpace text with
  | [] => .error .cutOff
  | 'n' :: text => word none ['u', 'l', 'l'] text
  | text => do
      let (a, text) ← item depth text
      .ok (some a, text)

def map (f : α → β) (item : Reader α) : Reader β := fun depth text => do
  let (a, text) ← item depth text
  .ok (f a, text)

/-- Looks a name up among the choices. -/
def chosen (choices : List (String × α)) (name : String) : Except ReadError α :=
  match choices.lookup name with
  | some a => .ok a
  | none => .error (.unknownVariant name)

def unit : Scan Unit := fun text =>
  match skipSpace text with
  | [] => .error .cutOff
  | 'n' :: text => word () ['u', 'l', 'l'] text
  | c :: text => mistyped c text

/-- Reads one of several choices: its name, or an object whose only member has that name and the
value `null`. -/
def choice (choices : List (String × α)) : Reader α := fun depth text =>
  match skipSpace text with
  | [] => .error .cutOff
  | '"' :: text => do
      let (name, text) ← Json.string text
      let a ← chosen choices name
      .ok (a, text)
  | '{' :: text =>
      match depth with
      | 0 => .error .malformed
      | depth + 1 => do
          let (name, text) ← string depth text
          let a ← chosen choices name
          let (_, text) ← colon text
          let (_, text) ← unit text
          match skipSpace text with
          | '}' :: text => .ok (a, text)
          | [] => .error .cutOff
          | _ => .error .malformed
  | _ => .error .malformed

end Reader

/-- How many containers a text may hold inside one another. -/
def maxDepth : Nat := 127

/-- Reads a whole text; nothing but space may follow the value. -/
def read (reader : Reader α) (text : String) : Except ReadError α := do
  let (a, rest) ← reader maxDepth text.toList
  if (skipSpace rest).isEmpty then .ok a else .error .malformed

end Json
end Workflow
