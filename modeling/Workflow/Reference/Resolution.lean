import Workflow.Flow.Index
import Workflow.Flow.Shape
import Workflow.Token

/-!
# Resolution of tokens

A token resolves if the node that it names offers the value that it names.  `NodeIndex.failure?`
says which of the two is missing, from the nodes and the token alone.  `NodeIndex.validate?` makes
an error of a failure, worded for the node whose text holds the token.
-/

namespace Workflow

/-- Whether a parameter of the node `producer` offers the value of a token.  A list of texts is asked
for an element as soon as the token ends in an index. -/
def Param.resolves (producer : String) (param : Param) (token : String) : Bool :=
  match param.kind, Token.splitIndex token with
  | .inputList, (list, some index) =>
      Token.path producer param.key = list && (param.items[index]?).any isListed
  | _, _ =>
      match param.records? with
      | some records =>
          (records.filterMap recordKey?).any fun key => Token.path producer key = token
      | none => Token.path producer param.key = token

/-- Why a token does not resolve. -/
inductive Failure where
  /-- No node has the id of the producer. -/
  | nodeNotFound
  /-- The producer does not offer the value. -/
  | fieldNotFound
  deriving DecidableEq

/-- Why a token does not resolve, if it does not. -/
def NodeIndex.failure? (index : NodeIndex) (token : String) : Option Failure :=
  let producer := Token.producer token
  match index.node? producer with
  | none => some .nodeNotFound
  | some node =>
      if node.params.any fun param => param.resolves producer token then none
      else some .fieldNotFound

def NodeIndex.resolves (index : NodeIndex) (token : String) : Bool :=
  (index.failure? token).isNone

/-- A token that does not resolve, as it is shown. -/
structure ReferenceError where
  failure : Failure
  /-- The name of the node whose text holds the token. -/
  origin : String
  /-- What the token is shown as. -/
  label : String
  producer : String
  deriving DecidableEq

/-- The wording of a reference error, the same for every failure. -/
def ReferenceError.message (error : ReferenceError) : String :=
  error.origin ++ " error: " ++ error.label ++ " does not exist"

namespace NodeIndex

/-- The name of the node with an id, or the id if there is none. -/
def originName (index : NodeIndex) (id : String) : String :=
  match index.node? id with
  | some node => node.displayName
  | none => id

/-- The error of a token in a text of the node `origin`.  It is shown as its label, or as itself
without one. -/
def errorOf (index : NodeIndex) (origin token : String) (label? : Option String)
    (failure : Failure) : ReferenceError :=
  { failure
    origin := index.originName origin
    label := label?.getD token
    producer := Token.producer token }

/-- The error of a token that does not resolve. -/
def validate? (index : NodeIndex) (origin token : String) (label? : Option String) :
    Option ReferenceError :=
  (index.failure? token).map (index.errorOf origin token label?)

end NodeIndex

/-- The error of a token that does not resolve among some nodes. -/
def validate? (nodes : List Node) (origin token : String) (label? : Option String) :
    Option ReferenceError :=
  (NodeIndex.ofNodes nodes).validate? origin token label?

end Workflow
