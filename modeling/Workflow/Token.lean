import Workflow.Text.Digits
import Workflow.Text.Split

/-!
# Tokens

A token names a value that a node produces: the id of the node, a point, and the path of a field.
It may end in a number sign and the index of one element of a list.
-/

namespace Workflow
namespace Token

/-- Indices are below this bound. -/
def indexBound : Nat := Nat.pow 2 64

/-- The token of a field of a node. -/
def path (producer field : String) : String :=
  producer ++ "." ++ field

/-- The token of one element of a list. -/
def element (list : String) (index : Nat) : String :=
  list ++ "#" ++ Nat.repr index

/-- The id of the node that produces the value: all of the token up to its first point. -/
def producer (token : String) : String :=
  String.ofList (token.toList.takeWhile (· ≠ '.'))

/-- The index that some characters write, if they are digits and write one. -/
def index? (digits : List Char) : Option Nat :=
  if digits ≠ [] ∧ digits.all Char.isDigit ∧ Text.natOfDigits digits < indexBound then
    some (Text.natOfDigits digits)
  else
    none

/-- The parts of a token before and behind its last number sign, if an index follows the sign. -/
def cutIndex? (token : List Char) : Option (List Char × Nat) :=
  match Text.cutLast '#' token with
  | some (list, digits) => (index? digits).map fun index => (list, index)
  | none => none

/-- A token without its index, and the index. -/
def splitIndex (token : String) : String × Option Nat :=
  match cutIndex? token.toList with
  | some (list, index) => (String.ofList list, some index)
  | none => (token, none)

end Token
end Workflow
