import Workflow.Text.Visible

/-!
# Quoted texts

A text between double quotes on one line: quotes, backslashes and line controls are written with a
backslash, and a character that does not show as itself by its number in braces.
-/

namespace Workflow
namespace Text

/-- The digits of a number to base sixteen, without leading zeros. -/
def hexDigits (n : Nat) : List Char :=
  Nat.toDigits 16 n

/-- One character inside the quotes. -/
def quotedChar (c : Char) : List Char :=
  match c with
  | '\x00' => ['\\', '0']
  | '\t' => ['\\', 't']
  | '\n' => ['\\', 'n']
  | '\r' => ['\\', 'r']
  | '"' => ['\\', '"']
  | '\\' => ['\\', '\\']
  | c => if isVisible c then [c] else ['\\', 'u', '{'] ++ hexDigits c.toNat ++ ['}']

/-- A text between quotes. -/
def quoted (text : String) : String :=
  String.ofList (['"'] ++ text.toList.flatMap quotedChar ++ ['"'])

end Text
end Workflow
