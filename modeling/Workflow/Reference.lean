import Workflow.Template.Marker
import Workflow.Token

/-!
# References

A reference is a token taken apart.  `Reference.parse` takes a token apart or says what it lacks,
and `Reference.token` puts a reference together again.
-/

namespace Workflow

/-- A token taken apart. -/
structure Reference where
  producer : String
  /-- The path of the field, in which points may occur. -/
  field : String
  index? : Option Nat
  deriving DecidableEq

/-- Why a token is no reference. -/
inductive TokenError where
  | empty
  | missingProducer (token : String)
  | missingField (token : String)
  | nestedDelimiter (token : String)
  deriving DecidableEq

def TokenError.message : TokenError → String
  | empty => "Token is empty"
  | missingProducer token =>
      "Token '" ++ token ++ "' has no producer node id before the first '.'"
  | missingField token => "Token '" ++ token ++ "' has no field after the producer node id"
  | nestedDelimiter token => "Token '" ++ token ++ "' contains a nested marker delimiter"

namespace Reference

/-- Takes a token apart.  An empty token is reported before a brace, a brace before a missing
producer, and that before a missing field. -/
def parse (token : String) : Except TokenError Reference :=
  if token.isEmpty then
    .error .empty
  else if token.toList.any fun c => !Template.isPlain c then
    .error (.nestedDelimiter token)
  else
    let (base, index?) := Token.splitIndex token
    match Text.cutFirst '.' base.toList with
    | none => .error (if base.isEmpty then .missingProducer token else .missingField token)
    | some (producer, field) =>
        if producer.isEmpty then .error (.missingProducer token)
        else if field.isEmpty then .error (.missingField token)
        else
          .ok { producer := String.ofList producer, field := String.ofList field, index? }

/-- The token without an index. -/
def path (r : Reference) : String :=
  Token.path r.producer r.field

/-- The token of a reference. -/
def token (r : Reference) : String :=
  match r.index? with
  | some index => Token.element r.path index
  | none => r.path

def marker (r : Reference) : String :=
  Template.wrap r.token

/-- The tokens of the markers in a text, each taken apart. -/
def ofTemplate (text : String) : List (Except TokenError Reference) :=
  (Template.tokens text).map parse

end Reference
end Workflow
