import Workflow.Template.Marker

/-!
# Where markers stand

The scan reads a text from left to right and goes on behind each marker that it finds.  It passes
over none: as no marker starts within another, every marker of the text is found at its place
(`mem_places_iff`), each once and in ascending order (`pairwise_places`).  For the same reason what
stands around a marker is scanned as if it stood alone (`scan_append_marker`).
-/

namespace Workflow
namespace Template

/-- The marker of a token stands behind some number of characters of a text. -/
def MarkerAt (text : String) (offset : Nat) (token : String) : Prop :=
  IsToken token.toList ∧ ∃ before after : List Char,
    before.length = offset ∧ text.toList = before ++ (marker token.toList ++ after)

/-- The tokens of the markers among some parts, each with the place where its marker starts if the
first part starts at `offset`. -/
def placesFrom (offset : Nat) : List Piece → List (Nat × String)
  | [] => []
  | .char _ :: rest => placesFrom (offset + 1) rest
  | .marker token :: rest =>
      (offset, String.ofList token) :: placesFrom (offset + (marker token).length) rest

/-- The markers that the scan finds in a text, each with its place and token. -/
def places (text : String) : List (Nat × String) :=
  placesFrom 0 (scan text.toList)

@[simp] theorem map_places (text : String) : (places text).map Prod.snd = tokens text := by
  suffices h : ∀ (pieces : List Piece) (offset : Nat),
      (placesFrom offset pieces).map Prod.snd =
        pieces.filterMap fun piece => piece.token?.map String.ofList from
    h (scan text.toList) 0
  intro pieces
  induction pieces with
  | nil => exact fun _ => rfl
  | cons piece rest ih =>
      intro offset
      cases piece with
      | char c =>
          rw [placesFrom, ih]
          rfl
      | marker token =>
          rw [placesFrom, List.map_cons, ih]
          rfl

theorem le_of_mem_placesFrom {pieces : List Piece} {offset place : Nat} {token : String}
    (h : (place, token) ∈ placesFrom offset pieces) : offset ≤ place := by
  induction pieces generalizing offset with
  | nil => cases h
  | cons piece rest ih =>
      cases piece with
      | char c => exact Nat.le_of_succ_le (ih h)
      | marker found =>
          rcases List.mem_cons.mp h with heq | hmem
          · exact Nat.le_of_eq (Prod.mk.inj heq).1.symm
          · exact Nat.le_trans (Nat.le_add_right _ _) (ih hmem)

/-- The markers of a text are found in ascending order. -/
theorem pairwise_places (text : String) :
    (places text).Pairwise fun a b => a.1 < b.1 := by
  suffices h : ∀ (pieces : List Piece) (offset : Nat),
      (placesFrom offset pieces).Pairwise fun a b => a.1 < b.1 from h (scan text.toList) 0
  intro pieces
  induction pieces with
  | nil => exact fun _ => List.Pairwise.nil
  | cons piece rest ih =>
      intro offset
      cases piece with
      | char c => exact ih (offset + 1)
      | marker token =>
          refine List.pairwise_cons.mpr ⟨fun place hmem => ?_, ih _⟩
          have hlt : 0 < (marker token).length := by simp [marker, openMark]
          exact Nat.lt_of_lt_of_le (Nat.lt_add_of_pos_right hlt) (le_of_mem_placesFrom hmem)

/-- No opening brace stands behind the two that a marker starts with. -/
theorem notMem_of_isToken {token : List Char} (h : IsToken token) :
    '{' ∉ '#' :: (token ++ closeMark) := by
  intro hmem
  simp only [closeMark, List.mem_cons, List.mem_append, List.not_mem_nil, or_false] at hmem
  rcases hmem with heq | hmem | heq | heq | heq
  · exact absurd heq (by decide)
  · exact absurd (h.2 '{' hmem) (by decide)
  · exact absurd heq (by decide)
  · exact absurd heq (by decide)
  · exact absurd heq (by decide)

/-- A marker that starts behind the start of another starts behind its end. -/
theorem marker_append_eq {token other before after rest : List Char} (htoken : IsToken token)
    (hbefore : before ≠ []) (h : marker token ++ rest = before ++ (marker other ++ after)) :
    ∃ between, before = marker token ++ between ∧ rest = between ++ (marker other ++ after) := by
  rcases List.append_eq_append_iff.mp h with ⟨between, hbetween, hrest⟩ | ⟨tail, hmarker, htail⟩
  · exact ⟨between, hbetween, hrest⟩
  · cases tail with
    | nil => exact ⟨[], by simpa using hmarker.symm, by simpa using htail.symm⟩
    | cons c tail =>
        -- Here the other marker would start within this one, but not at its start.
        exfalso
        obtain ⟨rfl, hinner⟩ := List.cons.inj htail
        cases before with
        | nil => exact hbefore rfl
        | cons first before =>
            have hsecond : '{' :: '#' :: (token ++ closeMark) = before ++ '{' :: tail :=
              (List.cons.inj hmarker).2
            cases before with
            | nil =>
                obtain rfl := (List.cons.inj hsecond).2
                exact absurd (List.cons.inj hinner).1 (by decide)
            | cons second before =>
                apply notMem_of_isToken htoken
                rw [(List.cons.inj hsecond).2]
                exact List.mem_append_right before List.mem_cons_self

theorem mem_placesFrom_iff {text : List Char} {offset place : Nat} {token : String} :
    (place, token) ∈ placesFrom offset (scan text) ↔
      IsToken token.toList ∧ ∃ before after : List Char,
        offset + before.length = place ∧ text = before ++ (marker token.toList ++ after) := by
  fun_induction scan text generalizing offset with
  | case1 =>
      constructor
      · exact fun h => absurd h List.not_mem_nil
      · rintro ⟨_, before, after, _, h⟩
        cases before <;> simp [marker, openMark] at h
  | case2 c rest found after hfound _ ih =>
      obtain ⟨htext, hisToken⟩ := eq_of_marker? hfound
      rw [htext, placesFrom, List.mem_cons, ih]
      constructor
      · rintro (heq | ⟨htoken, before, behind, hplace, hafter⟩)
        · obtain ⟨rfl, rfl⟩ := Prod.mk.inj heq
          rw [String.toList_ofList]
          exact ⟨hisToken, [], after, rfl, rfl⟩
        · refine ⟨htoken, marker found ++ before, behind, ?_, ?_⟩
          · rw [List.length_append, ← Nat.add_assoc, hplace]
          · rw [hafter, List.append_assoc]
      · rintro ⟨htoken, before, behind, hplace, h⟩
        by_cases hbefore : before = []
        · subst hbefore
          have hsame := eq_of_marker_append hisToken.2 htoken.2 h
          exact Or.inl (by simp [← hplace, hsame])
        · obtain ⟨between, rfl, hafter⟩ := marker_append_eq hisToken hbefore h
          refine Or.inr ⟨htoken, between, behind, ?_, hafter⟩
          rw [← hplace, List.length_append, Nat.add_assoc]
  | case3 c rest hnone ih =>
      rw [placesFrom, ih]
      constructor
      · rintro ⟨htoken, before, after, hplace, hrest⟩
        refine ⟨htoken, c :: before, after, ?_, by rw [hrest, List.cons_append]⟩
        rw [List.length_cons, ← hplace]
        omega
      · rintro ⟨htoken, before, after, hplace, h⟩
        cases before with
        | nil =>
            rw [h, List.nil_append, marker?_append htoken after] at hnone
            cases hnone
        | cons first before =>
            refine ⟨htoken, before, after, ?_, (List.cons.inj h).2⟩
            rw [← hplace, List.length_cons]
            omega

/-- The markers that are found in a text are those that stand in it. -/
theorem mem_places_iff {text : String} {place : Nat} {token : String} :
    (place, token) ∈ places text ↔ MarkerAt text place token := by
  simp only [places, mem_placesFrom_iff, MarkerAt, Nat.zero_add]

theorem scan_of_marker? {text token after : List Char} (h : marker? text = some (token, after)) :
    scan text = .marker token :: scan after := by
  cases text with
  | nil =>
      rw [marker?, openMark, Text.dropWord] at h
      cases h
  | cons c rest =>
      rw [scan]
      split
      · rename_i found after' hfound
        rw [h] at hfound
        cases hfound
        rfl
      · rename_i hnone
        rw [h] at hnone
        cases hnone

theorem scan_of_not_marker {c : Char} {rest : List Char} (h : marker? (c :: rest) = none) :
    scan (c :: rest) = .char c :: scan rest := by
  rw [scan]
  split
  · rename_i found after hfound
    rw [h] at hfound
    cases hfound
  · rfl

/-- No marker that starts before a marker reaches into it, so none starts where none starts without
it. -/
theorem marker?_append_eq_none {text : List Char} (hne : text ≠ [])
    (hnone : marker? text = none) (token after : List Char) :
    marker? (text ++ (marker token ++ after)) = none := by
  cases hfound : marker? (text ++ (marker token ++ after)) with
  | none => rfl
  | some found =>
      obtain ⟨other, rest⟩ := found
      obtain ⟨heq, hother⟩ := eq_of_marker? hfound
      obtain ⟨between, rfl, _⟩ := marker_append_eq hother hne heq.symm
      rw [marker?_append hother between] at hnone
      cases hnone

/-- What stands before a marker and what stands behind it are scanned as if they stood alone. -/
theorem scan_append_marker {token : List Char} (h : IsToken token) (before after : List Char) :
    scan (before ++ (marker token ++ after)) = scan before ++ .marker token :: scan after := by
  fun_induction scan before with
  | case1 => exact scan_of_marker? (marker?_append h after)
  | case2 c rest found tail hfound _ ih =>
      obtain ⟨htext, hisToken⟩ := eq_of_marker? hfound
      rw [htext, List.append_assoc, scan_of_marker? (marker?_append hisToken _), ih]
      rfl
  | case3 c rest hnone ih =>
      have hnone' := marker?_append_eq_none (List.cons_ne_nil c rest) hnone token after
      rw [List.cons_append] at hnone' ⊢
      rw [scan_of_not_marker hnone', ih]
      rfl

/-- In the marker of a token nothing is found but that marker. -/
theorem scan_marker {token : List Char} (h : IsToken token) :
    scan (marker token) = [.marker token] := by
  have hscan := scan_of_marker? (marker?_append h [])
  rwa [List.append_nil, scan] at hscan

theorem tokens_wrap {token : String} (h : IsToken token.toList) :
    tokens (wrap token) = [token] := by
  simp [tokens, scan_marker h, Piece.token?]

/-- A token can stand in a marker just if it is not empty and has no brace. -/
@[simp] theorem tokens_wrap_iff {token : String} :
    tokens (wrap token) = [token] ↔ IsToken token.toList := by
  refine ⟨fun h => ?_, tokens_wrap⟩
  have hmem : token ∈ tokens (wrap token) := h ▸ List.mem_singleton_self token
  exact isToken_of_mem_scan (mem_tokens_iff.mp hmem)

/-- The tokens around a marker are those of the texts that stand there. -/
theorem tokens_append_wrap {token : String} (h : IsToken token.toList) (before after : String) :
    tokens (before ++ wrap token ++ after) = tokens before ++ token :: tokens after := by
  simp [tokens, scan_append_marker h, Piece.token?]

end Template
end Workflow
