import Workflow.Codec

/-!
# What a stored text is shown as

`decode` goes through a stored text part by part and carries along the markup, the reported error
and the number of references that do not resolve.  Here these are told from the whole text: the
markup is that of the parts one after the other, the number is that of the errors of the tokens, and
the reported error is the last or the first of them (`decode_eq`).
-/

namespace Workflow
namespace Codec

/-- The reported one of several errors. -/
def ErrorPolicy.choose {α : Type} (policy : ErrorPolicy) (errors : List α) : Option α :=
  match policy with
  | lastWins => errors.getLast?
  | firstWins => errors.head?

/-- The error of a token in a text of a node, unless nothing is checked. -/
def errorOf? (index : NodeIndex) (node : Node) (check : Bool) (token : String) :
    Option ReferenceError :=
  if check then index.validate? node.id token (some (labelOf node.labels token)) else none

/-- The class of the badge of a token. -/
def classOf (settings : Settings) (index : NodeIndex) (node : Node) (check : Bool)
    (token : String) : String :=
  if (errorOf? index node check token).isSome then settings.errorClass
  else settings.referenceClass

/-- A class is one of the two that badges have. -/
def Settings.HasClass (settings : Settings) (cls : String) : Prop :=
  cls = settings.errorClass ∨ cls = settings.referenceClass

theorem Settings.hasClass_ite (settings : Settings) (p : Prop) [Decidable p] :
    settings.HasClass (if p then settings.errorClass else settings.referenceClass) := by
  split
  · exact Or.inl rfl
  · exact Or.inr rfl

theorem Settings.HasClass.isBadge {settings : Settings} {cls : String}
    (h : settings.HasClass cls) : settings.isBadge cls.toList = true := by
  rcases h with rfl | rfl
  · simp [Settings.isBadge]
  · simp [Settings.isBadge]

theorem Settings.HasClass.quote_notMem {settings : Settings} {cls : String}
    (h : settings.HasClass cls) (hreference : '"' ∉ settings.referenceClass.toList)
    (herror : '"' ∉ settings.errorClass.toList) : '"' ∉ cls.toList := by
  rcases h with rfl | rfl
  · exact herror
  · exact hreference

/-- The markup of a part of a stored text, given a class for each token. -/
def renderPiece (classes : String → String) (labels : LabelTable) :
    Template.Piece → List Char
  | .char c => renderChar c
  | .marker token =>
      badge (classes (String.ofList token)) (labelOf labels (String.ofList token))

/-- The markup of a stored text, given a class for each token. -/
def render (classes : String → String) (labels : LabelTable) (stored : String) : List Char :=
  (Template.scan stored.toList).flatMap (renderPiece classes labels)

/-- The errors of the references in a stored text, in order. -/
def errors (index : NodeIndex) (node : Node) (check : Bool) (stored : String) :
    List ReferenceError :=
  (Template.tokens stored).filterMap (errorOf? index node check)

/-- The error that is kept from some errors is the chosen one, or the one from before if there are
none or it goes first. -/
theorem foldl_keep {α : Type} (policy : ErrorPolicy) (errors : List α) (kept? : Option α) :
    errors.foldl policy.keep kept? =
      match policy with
      | .lastWins => errors.getLast?.or kept?
      | .firstWins => kept?.or errors.head? := by
  induction errors generalizing kept? with
  | nil => cases policy <;> cases kept? <;> rfl
  | cons error rest ih =>
      rw [List.foldl_cons, ih]
      cases policy with
      | lastWins => cases rest <;> simp [ErrorPolicy.keep, List.getLast?_cons]
      | firstWins => cases kept? <;> simp [ErrorPolicy.keep]

@[simp] theorem foldl_keep_none {α : Type} (policy : ErrorPolicy) (errors : List α) :
    errors.foldl policy.keep none = policy.choose errors := by
  rw [foldl_keep]
  cases policy <;> simp [ErrorPolicy.choose]

section Loop

variable (settings : Settings) (index : NodeIndex) (node : Node) (check : Bool)

theorem decodePiece_marker (decoded : Decoded) (token : List Char) :
    decodePiece settings index node check decoded (.marker token) =
      { text := decoded.text ++ String.ofList
          (renderPiece (classOf settings index node check) node.labels (.marker token))
        error? := (errorOf? index node check (String.ofList token)).toList.foldl
          settings.errorPolicy.keep decoded.error?
        broken := decoded.broken +
          (errorOf? index node check (String.ofList token)).toList.length } := by
  unfold decodePiece renderPiece classOf
  cases herror : errorOf? index node check (String.ofList token) with
  | none =>
      have hchecked := herror
      rw [errorOf?] at hchecked
      simp [hchecked, herror, Decoded.write]
  | some error =>
      have hchecked := herror
      rw [errorOf?] at hchecked
      simp [hchecked, herror, Decoded.write, Decoded.report]

/-- The parts of a text add their markup and their errors in order. -/
theorem foldl_decodePiece (pieces : List Template.Piece) (decoded : Decoded) :
    let errors := (pieces.filterMap fun piece => piece.token?.map String.ofList).filterMap
      (errorOf? index node check)
    pieces.foldl (decodePiece settings index node check) decoded =
      { text := decoded.text ++ String.ofList
          (pieces.flatMap (renderPiece (classOf settings index node check) node.labels))
        error? := errors.foldl settings.errorPolicy.keep decoded.error?
        broken := decoded.broken + errors.length } := by
  induction pieces generalizing decoded with
  | nil => simp
  | cons piece rest ih =>
      rw [List.foldl_cons, ih]
      cases piece with
      | char c =>
          simp [decodePiece, renderPiece, Decoded.write, Template.Piece.token?, String.append_assoc]
      | marker token =>
          rw [decodePiece_marker]
          cases herror : errorOf? index node check (String.ofList token) with
          | none => simp [Template.Piece.token?, herror, String.append_assoc]
          | some error =>
              simp [Template.Piece.token?, herror, String.append_assoc, Nat.add_assoc, Nat.add_comm]

end Loop

/-- A stored text is shown as the markup of its parts, with the chosen one of its errors. -/
theorem decode_eq (settings : Settings) (nodes : List Node) (node : Node) (check : Bool)
    (stored : String) :
    decode settings nodes node check stored =
      { text := String.ofList
          (render (classOf settings (.ofNodes nodes) node check) node.labels stored)
        error? := settings.errorPolicy.choose (errors (.ofNodes nodes) node check stored)
        broken := (errors (.ofNodes nodes) node check stored).length } := by
  rw [decode, foldl_decodePiece]
  simp [render, errors, Template.tokens]

end Codec
end Workflow
