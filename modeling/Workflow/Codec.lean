import Workflow.Markup.Entity
import Workflow.Markup.Scan
import Workflow.Reference.Resolution
import Workflow.Template.Marker

/-!
# Between stored texts and markup

`decode` makes markup of a stored text: a marker becomes a badge, which is a span that shows the
label of its token, a newline becomes a break tag, and all else is escaped.  `encode` goes back: a
badge whose text is the label of a token becomes the marker of the least such token.
-/

namespace Workflow
namespace Codec

/-- Which error is reported for a text with several references that do not resolve. -/
inductive ErrorPolicy where
  | lastWins
  | firstWins
  deriving DecidableEq, Inhabited

/-- The error to report when a further one has been found. -/
def ErrorPolicy.keep (policy : ErrorPolicy) (kept? : Option α) (found : α) : Option α :=
  match policy with
  | lastWins => some found
  | firstWins => some (kept?.getD found)

/-- What may be set about badges. -/
structure Settings where
  errorPolicy : ErrorPolicy
  /-- The class of a badge whose reference resolves. -/
  referenceClass : String
  /-- The class of a badge whose reference does not. -/
  errorClass : String
  deriving DecidableEq

def Settings.standard : Settings :=
  { errorPolicy := .lastWins, referenceClass := "badge", errorClass := "badge-error" }

def Settings.isBadge (settings : Settings) (classes : List Char) : Bool :=
  classes = settings.referenceClass.toList || classes = settings.errorClass.toList

/-- The attribute that keeps the editor from changing the text of a badge. -/
def fixedAttribute : List Char :=
  " contenteditable=\"false\"".toList

/-- The badge of a label. -/
def badge (cls label : String) : List Char :=
  Markup.spanOpen ++ [' '] ++ Markup.classOpen ++ cls.toList ++ ['"'] ++ fixedAttribute ++ ['>'] ++
    Markup.escape label.toList ++ Markup.spanClose

def breakTag : List Char :=
  Markup.breakOpen ++ ['>']

/-- The markup of a character of text. -/
def renderChar (c : Char) : List Char :=
  if c = '\n' then breakTag else Markup.escapeChar c

/-- What a token is shown as: its label, or itself without one. -/
def labelOf (labels : LabelTable) (token : String) : String :=
  (labels.get? token).getD token

/-- A stored text as markup. -/
structure Decoded where
  text : String
  error? : Option ReferenceError
  /-- How many references do not resolve. -/
  broken : Nat

def Decoded.isValid (decoded : Decoded) : Bool :=
  decoded.error?.isNone

def Decoded.errorMessage (decoded : Decoded) : String :=
  (decoded.error?.map ReferenceError.message).getD ""

/-- Puts markup behind that of what has been read. -/
def Decoded.write (decoded : Decoded) (markup : List Char) : Decoded :=
  { decoded with text := decoded.text ++ String.ofList markup }

/-- Notes a reference that does not resolve. -/
def Decoded.report (policy : ErrorPolicy) (decoded : Decoded) (error : ReferenceError) : Decoded :=
  { decoded with error? := policy.keep decoded.error? error, broken := decoded.broken + 1 }

/-- Makes markup of a part of a stored text of a node, behind that of the parts before it.  Only if
`check` holds, a reference that does not resolve is told from one that does. -/
def decodePiece (settings : Settings) (index : NodeIndex) (node : Node) (check : Bool)
    (decoded : Decoded) : Template.Piece → Decoded
  | .char c => decoded.write (renderChar c)
  | .marker token =>
      let token := String.ofList token
      let label := labelOf node.labels token
      match if check then index.validate? node.id token (some label) else none with
      | none => decoded.write (badge settings.referenceClass label)
      | some error =>
          (decoded.report settings.errorPolicy error).write (badge settings.errorClass label)

/-- Makes markup of a stored text of a node. -/
def decode (settings : Settings) (nodes : List Node) (node : Node) (check : Bool)
    (stored : String) : Decoded :=
  (Template.scan stored.toList).foldl (decodePiece settings (.ofNodes nodes) node check)
    { text := "", error? := none, broken := 0 }

/-- What is stored for a span: the marker of the token that its text is the label of, if it is a
badge and there is such a token, and its text otherwise. -/
def storeSpan (settings : Settings) (labels : LabelTable) (classes inner : List Char) :
    List Char :=
  let text := Markup.unescape inner
  match labels.tokenFor? (String.ofList text) with
  | some token => if settings.isBadge classes then Template.marker token.toList else text
  | none => text

def storePiece (settings : Settings) (labels : LabelTable) : Markup.Piece → List Char
  | .run text => Markup.unescape text
  | .lineBreak => ['\n']
  | .span classes inner => storeSpan settings labels classes inner

def store (settings : Settings) (labels : LabelTable) (markup : List Char) : List Char :=
  (Markup.scan markup).flatMap (storePiece settings labels)

/-- Makes a stored text of some markup, with the labels of a node. -/
def encode (settings : Settings) (labels : LabelTable) (markup : String) : String :=
  String.ofList (store settings labels markup.toList)

end Codec
end Workflow
