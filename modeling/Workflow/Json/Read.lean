import Workflow.Json.Number
import Workflow.Json.Strings

/-!
# Reading and passing over values

`value depth` reads a value with at most `depth` containers inside one another; of several members
with one name the last is in force.  `skip` passes over a value that is of no interest: its grammar
is checked, but lone surrogates, numbers of any size and any nesting are let through.
-/

namespace Workflow
namespace Json

def string : Scan String := fun text => do
  let (body, text) ← stringBody true text
  .ok (String.ofList body, text)

/-- Reads a value that is no container, given its first character. -/
def scalar (first : Char) : Scan Value := fun text =>
  if startsNumeral first then
    number (first :: text)
  else
    match first with
    | 'n' => word .null ['u', 'l', 'l'] text
    | 't' => word (.bool true) ['r', 'u', 'e'] text
    | 'f' => word (.bool false) ['a', 'l', 's', 'e'] text
    | '"' => do
        let (s, text) ← string text
        .ok (.str s, text)
    | _ => .error .malformed

/-- Reads the value of a member and adds it to what has been read. -/
def entry (item : Scan α) (add : String → α → σ → σ) (name : List Char) (state : σ) : Scan σ :=
  fun text => do
    let (_, text) ← colon text
    let (a, text) ← item text
    .ok (add (String.ofList name) a state, text)

/-- Reads a value whose elements and members are read by `inner`; without it no container may
open. -/
def valueOver (inner : Option (Scan Value)) : Scan Value := fun text =>
  match skipSpace text with
  | [] => .error .cutOff
  | '[' :: text =>
      match inner with
      | none => .error .malformed
      | some item => do
          let (items, text) ← elements item text
          .ok (.arr items, text)
  | '{' :: text =>
      match inner with
      | none => .error .malformed
      | some item => do
          let (entries, text) ← members (memberName true) (entry item Keyed.insert) [] text
          .ok (.obj entries, text)
  | c :: text => scalar c text

/-- Reads a value with at most `depth` containers inside one another. -/
def value : (depth : Nat) → Scan Value
  | 0 => valueOver none
  | depth + 1 => valueOver (some (value depth))

/-- Passes over a value that is no container, given its first character. -/
def skipScalar (first : Char) : Scan Unit := fun text =>
  if startsNumeral first then do
    let (_, text) ← numeral .malformed (first :: text)
    .ok ((), text)
  else
    match first with
    | 'n' => word () ['u', 'l', 'l'] text
    | 't' => word () ['r', 'u', 'e'] text
    | 'f' => word () ['a', 'l', 's', 'e'] text
    | '"' => do
        let (_, text) ← stringBody false text
        .ok ((), text)
    | _ => .error .malformed

def skipEntry (item : Scan Unit) (_ : List Char) (_ : Unit) : Scan Unit := fun text => do
  let (_, text) ← colon text
  item text

/-- Passes over a value whose elements and members are passed over by `inner`. -/
def skipOver (inner : Scan Unit) : Scan Unit := fun text =>
  match skipSpace text with
  | [] => .error .cutOff
  | '[' :: text => do
      let (_, text) ← elements inner text
      .ok ((), text)
  | '{' :: text => members (memberName false) (skipEntry inner) () text
  | c :: text => skipScalar c text

/-- Passes over a value with at most `depth` containers inside one another. -/
def skipWithin : (depth : Nat) → Scan Unit
  | 0 => skipOver fun _ => .error .cutOff
  | depth + 1 => skipOver (skipWithin depth)

/-- Passes over a value.  A text opens no more containers than it has characters. -/
def skip : Scan Unit := fun text =>
  skipWithin text.length text

end Json
end Workflow
