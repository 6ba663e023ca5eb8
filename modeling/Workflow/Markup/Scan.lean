import Workflow.Text.Blank
import Workflow.Text.Split
import Workflow.Text.Word

/-!
# Scanning markup

The editor's markup is a sequence of text runs, line breaks and spans.  A line break is a break tag
or a raw line ending; a span is a span tag with a class attribute, together with all up to the next
closing tag.  `Markup.scan` finds them from left to right; what is neither is text, and text
between two of them is one run.
-/

namespace Workflow
namespace Markup

/-- A part of some markup. -/
inductive Piece where
  /-- Text, with its entities as they are written. -/
  | run (text : List Char)
  | lineBreak
  /-- A span with the value of its class attribute and what stands in it. -/
  | span (classes inner : List Char)
  deriving DecidableEq

def spanOpen : List Char := ['<', 's', 'p', 'a', 'n']

def spanClose : List Char := ['<', '/', 's', 'p', 'a', 'n', '>']

/-- The class attribute up to its value. -/
def classOpen : List Char := ['c', 'l', 'a', 's', 's', '=', '"']

def breakOpen : List Char := ['<', 'b', 'r']

/-- Whether a name may end here: no word character follows. -/
def endsName : List Char → Bool
  | [] => true
  | c :: _ => !Text.isWord c

/-- What follows the class attribute's opening quote, in a tag that is not yet closed.  White space
stands before the attribute. -/
def afterClassOpen? : List Char → Option (List Char)
  | [] => none
  | c :: rest =>
      if c = '>' then none
      else
        match if Text.isBlank c then Text.dropWord classOpen rest else none with
        | some after => some after
        | none => afterClassOpen? rest

/-- The span at the start of some markup, and what follows it. -/
def span? (markup : List Char) : Option (Piece × List Char) :=
  match Text.dropWord spanOpen markup with
  | none => none
  | some inTag =>
      if endsName inTag = false then none
      else do
        let value ← afterClassOpen? inTag
        let (classes, inTag) ← Text.cutFirst '"' value
        let (_, body) ← Text.cutFirst '>' inTag
        let (inner, after) ← Text.cutWord spanClose body
        return (.span classes inner, after)

/-- What follows a break tag behind its name: white space, perhaps a slash, and the end. -/
def afterBreakName? (inTag : List Char) : Option (List Char) :=
  match inTag.dropWhile Text.isBlank with
  | '/' :: '>' :: after => some after
  | '>' :: after => some after
  | _ => none

/-- The line break at the start of some markup, and what follows it. -/
def lineBreak? (markup : List Char) : Option (Piece × List Char) :=
  match markup with
  | '\r' :: '\n' :: after => some (.lineBreak, after)
  | '\r' :: after => some (.lineBreak, after)
  | _ =>
      ((Text.dropWord breakOpen markup).bind afterBreakName?).map fun after => (.lineBreak, after)

/-- The span or line break at the start of some markup, and what follows it. -/
def mark? (markup : List Char) : Option (Piece × List Char) :=
  (span? markup).or (lineBreak? markup)

/-- Puts a character of text in front, into the run that stands there if there is one. -/
def consText (c : Char) : List Piece → List Piece
  | .run text :: pieces => .run (c :: text) :: pieces
  | pieces => .run [c] :: pieces

theorem length_le_of_afterClassOpen? {inTag after : List Char}
    (h : afterClassOpen? inTag = some after) : after.length ≤ inTag.length := by
  induction inTag with
  | nil => simp [afterClassOpen?] at h
  | cons c rest ih =>
      unfold afterClassOpen? at h
      split at h
      · simp at h
      · split at h
        · rename_i a hdrop
          split at hdrop
          · have := congrArg List.length (Text.eq_of_dropWord hdrop)
            simp only [List.length_append] at this
            cases h
            simp only [List.length_cons]
            omega
          · simp at hdrop
        · exact Nat.le_succ_of_le (ih h)

theorem length_lt_of_span? {markup after : List Char} {piece : Piece}
    (h : span? markup = some (piece, after)) : after.length < markup.length := by
  unfold span? at h
  split at h
  · simp at h
  · rename_i inTag hdrop
    split at h
    · simp at h
    · simp only [bind, Option.bind_eq_some_iff, pure, Option.some.injEq, Prod.exists,
        Prod.mk.injEq] at h
      obtain ⟨value, hvalue, classes, inTag', hquote, _, body, hclose, inner, rest, hend,
        rfl, rfl⟩ := h
      have h1 := congrArg List.length (Text.eq_of_dropWord hdrop)
      have h2 := length_le_of_afterClassOpen? hvalue
      have h3 := congrArg List.length (Text.eq_of_cutFirst hquote)
      have h4 := congrArg List.length (Text.eq_of_cutFirst hclose)
      have h5 := congrArg List.length (Text.eq_of_cutWord hend)
      simp only [List.length_append, List.length_cons] at h1 h3 h4 h5
      omega

theorem length_le_of_afterBreakName? {inTag after : List Char}
    (h : afterBreakName? inTag = some after) : after.length ≤ inTag.length := by
  have hle := (List.dropWhile_sublist Text.isBlank (l := inTag)).length_le
  unfold afterBreakName? at h
  split at h
  · rename_i a heq
    cases h
    rw [heq] at hle
    simp only [List.length_cons] at hle
    omega
  · rename_i a heq
    cases h
    rw [heq] at hle
    simp only [List.length_cons] at hle
    omega
  · simp at h

theorem length_lt_of_lineBreak? {markup after : List Char} {piece : Piece}
    (h : lineBreak? markup = some (piece, after)) : after.length < markup.length := by
  unfold lineBreak? at h
  split at h
  · cases h
    simp only [List.length_cons]
    omega
  · cases h
    simp
  · simp only [Option.map_eq_some_iff, Option.bind_eq_some_iff, Prod.mk.injEq] at h
    obtain ⟨a, ⟨inTag, hdrop, hafter⟩, _, rfl⟩ := h
    have h1 := congrArg List.length (Text.eq_of_dropWord hdrop)
    have h2 := length_le_of_afterBreakName? hafter
    simp only [breakOpen, List.length_append, List.length_cons] at h1
    omega

theorem length_lt_of_mark? {markup after : List Char} {piece : Piece}
    (h : mark? markup = some (piece, after)) : after.length < markup.length := by
  unfold mark? at h
  cases hspan : span? markup with
  | some found =>
      rw [hspan] at h
      simp only [Option.some_or, Option.some.injEq] at h
      subst h
      exact length_lt_of_span? hspan
  | none =>
      rw [hspan] at h
      exact length_lt_of_lineBreak? h

/-- The parts of some markup. -/
def scan (markup : List Char) : List Piece :=
  match markup with
  | [] => []
  | c :: rest =>
      match h : mark? (c :: rest) with
      | some (piece, after) =>
          have : after.length < rest.length + 1 := length_lt_of_mark? h
          piece :: scan after
      | none => consText c (scan rest)
termination_by markup.length

end Markup
end Workflow
