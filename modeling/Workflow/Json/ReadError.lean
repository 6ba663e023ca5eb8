import Workflow.Decimal.Layout
import Workflow.Text.Quoted

/-!
# Reading errors

What can be wrong with a JSON text that is read as a value of a given shape, and how it is put.
-/

namespace Workflow
namespace Json

/-- What stands where something of another type is expected. -/
inductive Found where
  | null
  | boolean (b : Bool)
  | integer (i : Int)
  | real (x : Float)
  | string (s : String)
  | sequence
  | map

/-- Why a text cannot be read. -/
inductive ReadError where
  /-- The text ends too early. -/
  | cutOff
  /-- The text breaks the grammar. -/
  | malformed
  /-- A record lacks a required member. -/
  | missingField (name : String)
  /-- A record has a member twice. -/
  | duplicateField (name : String)
  /-- A name stands for none of the choices. -/
  | unknownVariant (name : String)
  /-- A value has the wrong type. -/
  | invalidType (found : Found)
  /-- A record written as a list has too few elements. -/
  | invalidLength (count : Nat)

/-- Doubles are written positionally from `0.00001` up to sixteen digits before the point. -/
def realLayout : Decimal.Layout :=
  { least := -5, greatest := 15, plus := true }

def integerText (i : Int) : String :=
  if i < 0 then "-" ++ Nat.repr i.natAbs else Nat.repr i.natAbs

def Found.text : Found → String
  | null => "null"
  | boolean true => "boolean `true`"
  | boolean false => "boolean `false`"
  | integer i => "integer `" ++ integerText i ++ "`"
  | real x => "floating point `" ++ realLayout.text x ++ "`"
  | string s => "string " ++ Text.quoted s
  | sequence => "sequence"
  | map => "map"

def ReadError.message : ReadError → String
  | cutOff => "eof"
  | malformed => "syntax"
  | missingField name => "missing field `" ++ name ++ "`"
  | duplicateField name => "duplicate field `" ++ name ++ "`"
  | unknownVariant name => "unknown variant `" ++ name ++ "`"
  | invalidType found => "invalid type: " ++ found.text
  | invalidLength count => "invalid length " ++ Nat.repr count

end Json
end Workflow
