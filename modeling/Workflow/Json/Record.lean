import Workflow.Json.Reader

/-!
# Reading records

A record has members with fixed names.  It is written as an object, whose members may come in any
order among others that are passed over, or as a list of the members' values in the order in which
they are declared.  A member that is not required may be left out, at the end of a list too, and
the record then keeps the value that it starts with.
-/

namespace Workflow
namespace Json

/-- A member of a record of type `ρ`: its name, perhaps a second spelling of it, and a reader that
says how the record changes by the member's value. -/
structure Member (ρ : Type) where
  name : String
  spelling? : Option String
  required : Bool
  reader : Reader (ρ → ρ)

namespace Member

/-- A member that has to be there. -/
def needed (name : String) (item : Reader α) (set : α → ρ → ρ) : Member ρ :=
  { name, spelling? := none, required := true, reader := item.map set }

/-- A member that may be left out. -/
def defaulted (name : String) (item : Reader α) (set : α → ρ → ρ) : Member ρ :=
  { name, spelling? := none, required := false, reader := item.map set }

/-- The same member with a second spelling of its name. -/
def orSpelled (member : Member ρ) (spelling : String) : Member ρ :=
  { member with spelling? := some spelling }

def isNamed (name : String) (member : Member ρ) : Bool :=
  name = member.name || some name = member.spelling?

end Member

namespace Record

/-- A record that is being read, and the names of the members it already has. -/
structure Draft (ρ : Type) where
  record : ρ
  given : List String

def readMember (declared : List (Member ρ)) (depth : Nat) (name : List Char) (draft : Draft ρ) :
    Scan (Draft ρ) := fun text =>
  match declared.find? (Member.isNamed (String.ofList name)) with
  | none => do
      let (_, text) ← colon text
      let (_, text) ← skip text
      .ok (draft, text)
  | some member =>
      if member.name ∈ draft.given then
        .error (.duplicateField member.name)
      else do
        let (_, text) ← colon text
        let (change, text) ← member.reader depth text
        .ok (⟨change draft.record, member.name :: draft.given⟩, text)

/-- The record of a finished draft; the first required member that is missing is named. -/
def finish (declared : List (Member ρ)) (draft : Draft ρ) : Except ReadError ρ :=
  match declared.find? fun member => member.required && !draft.given.contains member.name with
  | some member => .error (.missingField member.name)
  | none => .ok draft.record

/-- Reads a record written as an object, behind its opening brace. -/
def ofObject (start : ρ) (declared : List (Member ρ)) (depth : Nat) : Scan ρ := fun text => do
  let (draft, text) ← members (memberName true) (readMember declared depth) ⟨start, []⟩ text
  let record ← finish declared draft
  .ok (record, text)

/-- Where the next element of a list starts, if there is one; the first needs no comma. -/
def nextElement (isFirst : Bool) (text : List Char) : Except ReadError (Option (List Char)) :=
  match skipSpace text with
  | [] => .error .cutOff
  | ']' :: _ => .ok none
  | c :: text =>
      if isFirst then .ok (some (c :: text))
      else if c = ',' then .ok (some text)
      else .error .malformed

/-- Reads the values of the members that are left, behind `count` elements. -/
def readElements (depth : Nat) : (count : Nat) → List (Member ρ) → ρ → Scan ρ
  | _, [], record, text =>
      match skipSpace text with
      | ']' :: text => .ok (record, text)
      | [] => .error .cutOff
      | _ => .error .malformed
  | count, member :: left, record, text => do
      match ← nextElement (count = 0) text with
      | some text => do
          let (change, text) ← member.reader depth text
          readElements depth (count + 1) left (change record) text
      | none =>
          match (member :: left).findIdx? Member.required with
          | some i => .error (.invalidLength (count + i))
          | none => readElements depth (count + 1) left record text

end Record

/-- Reads a record.  Its members are declared in order, and what is left out has the value that it
has in `start`. -/
def Reader.record (start : ρ) (declared : List (Member ρ)) : Reader ρ := fun depth text =>
  match skipSpace text with
  | [] => .error .cutOff
  | '{' :: text =>
      match depth with
      | 0 => .error .malformed
      | depth + 1 => Record.ofObject start declared depth text
  | '[' :: text =>
      match depth with
      | 0 => .error .malformed
      | depth + 1 => Record.readElements depth 0 declared start text
  | c :: text => mistyped c text

end Json
end Workflow
