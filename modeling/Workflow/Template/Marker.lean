import Workflow.Text.Split

/-!
# Markers in stored texts

A stored text is a sequence of characters and markers.  A marker is a token between `open` and
`close`; the token is not empty and holds no brace, so a marker cannot stand inside another.
`Template.scan` finds the markers from left to right, and `write_scan` says that it loses nothing.
-/

namespace Workflow
namespace Template

/-- The start of a marker. -/
def openMark : List Char := ['{', '{', '#']

/-- The end of a marker. -/
def closeMark : List Char := ['#', '}', '}']

/-- The marker of a token. -/
def marker (token : List Char) : List Char :=
  openMark ++ token ++ closeMark

def wrap (token : String) : String :=
  String.ofList (marker token.toList)

@[simp] theorem toList_wrap (token : String) : (wrap token).toList = marker token.toList :=
  String.toList_ofList

theorem wrap_eq (token : String) : wrap token = "\x7b\x7b#" ++ token ++ "#\x7d\x7d" := by
  apply String.toList_inj.mp
  simp [marker, openMark, closeMark]

@[simp] theorem wrap_inj {token other : String} : wrap token = wrap other ↔ token = other := by
  rw [wrap_eq, wrap_eq, String.append_left_inj, String.append_right_inj]

/-- Whether a character may stand in a marker's token. -/
def isPlain (c : Char) : Bool :=
  c ≠ '{' && c ≠ '}'

/-- The token of the marker at the start of a text, and what follows the marker.  The token runs to
the number sign before the first brace. -/
def marker? (text : List Char) : Option (List Char × List Char) :=
  match Text.dropWord openMark text with
  | none => none
  | some inner =>
      match Text.cutLast '#' (inner.takeWhile isPlain), inner.dropWhile isPlain with
      | some (c :: token, []), '}' :: '}' :: after => some (c :: token, after)
      | _, _ => none

/-- What can stand in a marker: some characters, none of which is a brace. -/
def IsToken (token : List Char) : Prop :=
  token ≠ [] ∧ ∀ c ∈ token, isPlain c = true

/-- A part of a stored text. -/
inductive Piece where
  | char (c : Char)
  | marker (token : List Char)
  deriving DecidableEq

def Piece.write : Piece → List Char
  | char c => [c]
  | marker token => Template.marker token

/-- A marker that was found is the start of the text, and it holds a token. -/
theorem eq_of_marker? {text token after : List Char} (h : marker? text = some (token, after)) :
    text = marker token ++ after ∧ IsToken token := by
  unfold marker? at h
  split at h
  · simp at h
  · rename_i inner hdrop
    split at h
    · rename_i c token' tail hcut hrest
      simp only [Option.some.injEq, Prod.mk.injEq] at h
      obtain ⟨rfl, rfl⟩ := h
      have hplain : inner.takeWhile isPlain = c :: token' ++ ['#'] := Text.eq_of_cutLast hcut
      have hinner : inner = (c :: token' ++ ['#']) ++ ('}' :: '}' :: tail) := by
        rw [← hplain, ← hrest, List.takeWhile_append_dropWhile]
      refine ⟨?_, List.cons_ne_nil c token', fun x hx => ?_⟩
      · rw [Text.eq_of_dropWord hdrop, hinner]
        simp [marker, closeMark]
      · have hmem : x ∈ inner.takeWhile isPlain := hplain ▸ List.mem_append_left _ hx
        exact List.all_eq_true.mp List.all_takeWhile x hmem
    · simp at h

/-- Up to its first brace, the text behind the start of a marker is the token and a number sign. -/
theorem takeWhile_isPlain {token : List Char} (h : ∀ c ∈ token, isPlain c = true)
    (after : List Char) :
    (token ++ (closeMark ++ after)).takeWhile isPlain = token ++ ['#'] := by
  rw [List.takeWhile_append_of_pos h]
  rfl

/-- The marker of a token is found at the start of a text. -/
theorem marker?_append {token : List Char} (h : IsToken token) (after : List Char) :
    marker? (marker token ++ after) = some (token, after) := by
  have hdrop : Text.dropWord openMark (marker token ++ after) =
      some (token ++ (closeMark ++ after)) := by
    simp [marker]
  have htake := takeWhile_isPlain h.2 after
  have hrest : (token ++ (closeMark ++ after)).dropWhile isPlain = '}' :: '}' :: after := by
    rw [List.dropWhile_append_of_pos h.2]
    rfl
  obtain ⟨c, tail, rfl⟩ := List.exists_cons_of_ne_nil h.1
  have hcut : Text.cutLast '#' ((c :: tail) ++ ['#']) = some (c :: tail, []) :=
    Text.cutLast_append (c :: tail) List.not_mem_nil
  unfold marker?
  rw [hdrop]
  simp only [htake, hrest, hcut]

/-- A marker without a brace in its token is read in one way. -/
theorem eq_of_marker_append {token other after rest : List Char}
    (htoken : ∀ c ∈ token, isPlain c = true) (hother : ∀ c ∈ other, isPlain c = true)
    (h : marker token ++ after = marker other ++ rest) : token = other := by
  simp only [marker, List.append_assoc, List.append_cancel_left_eq] at h
  have htake := congrArg (List.takeWhile isPlain) h
  rw [takeWhile_isPlain htoken, takeWhile_isPlain hother] at htake
  exact List.append_cancel_right htake

theorem length_lt_of_marker? {text token after : List Char}
    (h : marker? text = some (token, after)) : after.length < text.length := by
  rw [(eq_of_marker? h).1]
  simp [marker, openMark, closeMark]
  omega

/-- The characters and markers of a stored text. -/
def scan (text : List Char) : List Piece :=
  match text with
  | [] => []
  | c :: rest =>
      match h : marker? (c :: rest) with
      | some (token, after) =>
          have : after.length < rest.length + 1 := length_lt_of_marker? h
          .marker token :: scan after
      | none => .char c :: scan rest
termination_by text.length

/-- Scanning loses nothing. -/
@[simp] theorem write_scan (text : List Char) : (scan text).flatMap Piece.write = text := by
  fun_induction scan text with
  | case1 => rfl
  | case2 c rest token after h _ ih => simp [Piece.write, ih, (eq_of_marker? h).1]
  | case3 c rest h ih => simp [Piece.write, ih]

theorem isToken_of_mem_scan {text token : List Char} (h : .marker token ∈ scan text) :
    IsToken token := by
  fun_induction scan text with
  | case1 => simp at h
  | case2 c rest found after hfound _ ih =>
      rcases List.mem_cons.mp h with heq | hmem
      · cases heq
        exact (eq_of_marker? hfound).2
      · exact ih hmem
  | case3 c rest hfound ih =>
      rcases List.mem_cons.mp h with heq | hmem
      · cases heq
      · exact ih hmem

def Piece.token? : Piece → Option (List Char)
  | char _ => none
  | marker token => some token

/-- The tokens of the markers in a text, from left to right. -/
def tokens (text : String) : List String :=
  (scan text.toList).filterMap fun piece => piece.token?.map String.ofList

/-- The tokens of a text are those of the markers that the scan finds. -/
theorem mem_tokens_iff {text token : String} :
    token ∈ tokens text ↔ .marker token.toList ∈ scan text.toList := by
  rw [tokens, List.mem_filterMap]
  constructor
  · rintro ⟨piece, hmem, htoken⟩
    cases piece with
    | char c => simp [Piece.token?] at htoken
    | marker found =>
        simp only [Piece.token?, Option.map_some, Option.some.injEq] at htoken
        rw [← htoken, String.toList_ofList]
        exact hmem
  · intro hmem
    exact ⟨.marker token.toList, hmem, by simp [Piece.token?]⟩

end Template
end Workflow
