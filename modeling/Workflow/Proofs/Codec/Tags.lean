import Mathlib
import Workflow.Proofs.Codec.Rendering

/-!
# Tags in what is shown

Whatever is stored, and whatever the labels are, no other tags are shown than break tags and those
of badges (`isSafe_decode`).  `IsSafe` says this of every character of some markup, whichever part
of the stored text it comes from.  The markup of a text is a sequence of tags and escaped
characters (`atoms`); as a bracket stands only at the ends of a tag, each place in the markup can be
traced back to one of these, and from there to a part of the stored text.
-/

namespace Workflow

/-- How many times a word stands in a text. -/
def Text.timesIn (word : List Char) : List Char → Nat
  | [] => 0
  | c :: rest => (if word <+: c :: rest then 1 else 0) + timesIn word rest

theorem Text.timesIn_append_of_notMem {w : Char} (word : List Char) {text : List Char}
    (h : w ∉ text) (rest : List Char) :
    timesIn (w :: word) (text ++ rest) = timesIn (w :: word) rest := by
  induction text with
  | nil => rfl
  | cons c text ih =>
      obtain ⟨hc, htext⟩ := not_or.mp (mt List.mem_cons.mpr h)
      have hstart : ¬(w :: word) <+: c :: (text ++ rest) := fun hprefix =>
        hc (List.cons_prefix_cons.mp hprefix).1
      rw [List.cons_append, timesIn, if_neg hstart, ih htext, Nat.zero_add]

/-- What stands in the lists of some elements stands in the list of one of them. -/
theorem exists_of_flatMap_eq {α β : Type} {f : α → List β} {elements : List α}
    {before after : List β} {b : β} (h : elements.flatMap f = before ++ b :: after) :
    ∃ earlier a later left right, elements = earlier ++ a :: later ∧ f a = left ++ b :: right ∧
      before = earlier.flatMap f ++ left ∧ after = right ++ later.flatMap f := by
  induction elements generalizing before with
  | nil => simp at h
  | cons a rest ih =>
      rw [List.flatMap_cons] at h
      rcases List.append_eq_append_iff.mp h with ⟨tail, rfl, hrest⟩ | ⟨tail, ha, hafter⟩
      · obtain ⟨earlier, x, later, left, right, rfl, hx, rfl, rfl⟩ := ih hrest
        exact ⟨a :: earlier, x, later, left, right, rfl, hx, by simp, rfl⟩
      · cases tail with
        | nil =>
            have hrest : rest.flatMap f = [] ++ b :: after := hafter.symm
            obtain ⟨earlier, x, later, left, right, rfl, hx, hleft, rfl⟩ := ih hrest
            exact ⟨a :: earlier, x, later, left, right, rfl, hx, by simp [ha, ← hleft], rfl⟩
        | cons c tail =>
            obtain ⟨rfl, rfl⟩ := List.cons.inj hafter
            exact ⟨[], a, rest, before, tail, rfl, ha, rfl, rfl⟩

namespace Codec

/-- The tag in front of the label of a badge. -/
def openTag (cls : String) : List Char :=
  Markup.spanOpen ++ [' '] ++ Markup.classOpen ++ cls.toList ++ ['"'] ++ fixedAttribute ++ ['>']

/-- The tags that are shown. -/
inductive IsTag (settings : Settings) : List Char → Prop where
  | lineBreak : IsTag settings breakTag
  | opening {cls : String} (h : settings.HasClass cls) : IsTag settings (openTag cls)
  | closing : IsTag settings Markup.spanClose

/-- The place between two parts of some markup is in a tag that starts there or before. -/
def InTag (settings : Settings) (before after : List Char) : Prop :=
  ∃ front tag left right rest, IsTag settings tag ∧ tag = left ++ right ∧ right ≠ [] ∧
    before = front ++ left ∧ after = right ++ rest

/-- Markup in which nothing but break tags and badges is taken for a tag. -/
structure IsSafe (settings : Settings) (markup : List Char) : Prop where
  /-- Every bracket that opens starts a tag. -/
  bracket : ∀ before after, markup = before ++ '<' :: after →
    ∃ tag, IsTag settings tag ∧ tag <+: '<' :: after
  /-- A badge is closed before another tag starts. -/
  closed : ∀ before after cls, settings.HasClass cls → markup = before ++ (openTag cls ++ after) →
    ∃ label rest, '<' ∉ label ∧ after = label ++ Markup.spanClose ++ rest
  /-- What is closed has been opened, and no tag stands between. -/
  opened : ∀ before after, markup = before ++ (Markup.spanClose ++ after) →
    ∃ front cls label, settings.HasClass cls ∧ '<' ∉ label ∧ before = front ++ openTag cls ++ label
  /-- Outside of tags stand no brackets and no carriage returns, and ampersands start entities. -/
  outside : ∀ before c after, markup = before ++ c :: after →
    InTag settings before (c :: after) ∨
      (c ≠ '<' ∧ c ≠ '>' ∧ c ≠ '\r' ∧ (c = '&' → ∃ entity ∈ Markup.entities, entity <+: c :: after))

/-! ## Tags and characters one after the other -/

/-- No bracket stands in the class of a badge. -/
def Settings.HasPlainClasses (settings : Settings) : Prop :=
  ∀ cls, settings.HasClass cls → '<' ∉ cls.toList ∧ '>' ∉ cls.toList

/-- Brackets stand only at the ends of a tag. -/
theorem IsTag.exists_eq {settings : Settings} (hclasses : settings.HasPlainClasses)
    {tag : List Char} (h : IsTag settings tag) :
    ∃ inTag, tag = '<' :: (inTag ++ ['>']) ∧ '<' ∉ inTag ∧ '>' ∉ inTag := by
  cases h with
  | lineBreak => exact ⟨['b', 'r'], rfl, by decide, by decide⟩
  | @opening cls hcls =>
      obtain ⟨hopen, hclose⟩ := hclasses cls hcls
      have hfixed : '<' ∉ fixedAttribute ∧ '>' ∉ fixedAttribute := by decide
      refine ⟨['s', 'p', 'a', 'n', ' '] ++ Markup.classOpen ++ cls.toList ++ ['"'] ++
        fixedAttribute, rfl, ?_, ?_⟩
      · simp [Markup.classOpen, hfixed.1, hopen]
      · simp [Markup.classOpen, hfixed.2, hclose]
  | closing => exact ⟨['/', 's', 'p', 'a', 'n'], rfl, by decide, by decide⟩

/-- Of two tags none is the start of the other. -/
theorem IsTag.eq_of_append_eq {settings : Settings} (hclasses : settings.HasPlainClasses)
    {tag other rest after : List Char} (htag : IsTag settings tag) (hother : IsTag settings other)
    (h : tag ++ rest = other ++ after) : tag = other ∧ rest = after := by
  obtain ⟨inTag, rfl, _, hclose⟩ := htag.exists_eq hclasses
  obtain ⟨inOther, rfl, _, hclose'⟩ := hother.exists_eq hclasses
  have hinner : inTag ++ '>' :: rest = inOther ++ '>' :: after := by simpa using h
  have hcut := Text.cutFirst_append rest hclose
  rw [hinner, Text.cutFirst_append after hclose'] at hcut
  simp only [Option.some.injEq, Prod.mk.injEq] at hcut
  obtain ⟨rfl, rfl⟩ := hcut
  exact ⟨rfl, rfl⟩

/-- A tag, or a character to be escaped. -/
inductive Atom where
  | tag (markup : List Char)
  | char (c : Char)

def Atom.write : Atom → List Char
  | tag markup => markup
  | char c => Markup.escapeChar c

@[simp] theorem flatMap_write_char (text : List Char) :
    (text.map Atom.char).flatMap Atom.write = Markup.escape text := by
  rw [List.flatMap_map]
  rfl

/-- Tags and characters in an order in which a badge is opened, shows a label and is closed. -/
structure AreSafe (settings : Settings) (atoms : List Atom) : Prop where
  isTag : ∀ tag, .tag tag ∈ atoms → IsTag settings tag
  closed : ∀ earlier later cls, atoms = earlier ++ .tag (openTag cls) :: later →
    ∃ (label : List Char) (rest : List Atom),
      later = label.map .char ++ .tag Markup.spanClose :: rest
  opened : ∀ earlier later, atoms = earlier ++ .tag Markup.spanClose :: later →
    ∃ (front : List Atom) (cls : String) (label : List Char), settings.HasClass cls ∧
      earlier = front ++ .tag (openTag cls) :: label.map .char

section Writing

variable {settings : Settings} {atoms : List Atom}

/-- A place in what is written is a place in a tag or in an escaped character. -/
theorem inTag_or_of_flatMap_write (h : AreSafe settings atoms) {before after : List Char} {c : Char}
    (hsplit : atoms.flatMap Atom.write = before ++ c :: after) :
    (∃ earlier tag later left right, atoms = earlier ++ .tag tag :: later ∧ IsTag settings tag ∧
      tag = left ++ c :: right ∧ before = earlier.flatMap Atom.write ++ left ∧
      after = right ++ later.flatMap Atom.write) ∨
    (c ≠ '<' ∧ c ≠ '>' ∧ c ≠ '\r' ∧
      (c = '&' → ∃ entity ∈ Markup.entities, entity <+: c :: after)) := by
  obtain ⟨earlier, atom, later, left, right, rfl, hatom, rfl, rfl⟩ := exists_of_flatMap_eq hsplit
  cases atom with
  | tag tag =>
      exact Or.inl ⟨earlier, tag, later, left, right, rfl, h.isTag tag (by simp), hatom, rfl, rfl⟩
  | char d =>
      obtain ⟨hopen, hclose, hreturn, hamp⟩ := Markup.plain_of_escapeChar_eq hatom
      refine Or.inr ⟨hopen, hclose, hreturn, fun heq => ?_⟩
      obtain ⟨entity, hentity, rfl⟩ := hamp heq
      exact ⟨_, hentity, List.prefix_append (c :: right) _⟩

/-- A tag that starts somewhere in what is written is a tag there. -/
theorem exists_tag_of_flatMap_write (hclasses : settings.HasPlainClasses)
    (h : AreSafe settings atoms) {before after : List Char}
    (hsplit : atoms.flatMap Atom.write = before ++ '<' :: after) :
    ∃ earlier tag later, atoms = earlier ++ .tag tag :: later ∧ IsTag settings tag ∧
      before = earlier.flatMap Atom.write ∧ '<' :: after = tag ++ later.flatMap Atom.write := by
  rcases inTag_or_of_flatMap_write h hsplit with
    ⟨earlier, tag, later, left, right, rfl, htag, heq, rfl, rfl⟩ | ⟨hopen, _⟩
  · obtain ⟨inTag, hshape, hinner, _⟩ := htag.exists_eq hclasses
    cases left with
    | nil => exact ⟨earlier, tag, later, rfl, htag, by simp, by rw [heq]; rfl⟩
    | cons d left =>
        -- The bracket would stand behind the start of the tag.
        rw [hshape] at heq
        have hmem : '<' ∈ inTag ++ ['>'] := by
          rw [(List.cons.inj heq).2]
          simp
        simp [hinner] at hmem
  · exact absurd rfl hopen

theorem exists_of_flatMap_write_eq_tag (hclasses : settings.HasPlainClasses)
    (h : AreSafe settings atoms) {before tag after : List Char} (htag : IsTag settings tag)
    (hsplit : atoms.flatMap Atom.write = before ++ (tag ++ after)) :
    ∃ earlier later, atoms = earlier ++ .tag tag :: later ∧
      before = earlier.flatMap Atom.write ∧ after = later.flatMap Atom.write := by
  obtain ⟨inTag, hshape, _, _⟩ := htag.exists_eq hclasses
  have hstart : before ++ (tag ++ after) = before ++ '<' :: (inTag ++ ['>'] ++ after) := by
    rw [hshape]
    rfl
  obtain ⟨earlier, found, later, rfl, hfound, rfl, heq⟩ :=
    exists_tag_of_flatMap_write hclasses h (hsplit.trans hstart)
  have hsame : tag ++ after = found ++ later.flatMap Atom.write := by
    rw [← heq, hshape]
    rfl
  obtain ⟨rfl, rfl⟩ := htag.eq_of_append_eq hclasses hfound hsame
  exact ⟨earlier, later, rfl, rfl, rfl⟩

/-- Tags and characters in such an order are written as safe markup. -/
theorem isSafe_flatMap_write (hclasses : settings.HasPlainClasses) (h : AreSafe settings atoms) :
    IsSafe settings (atoms.flatMap Atom.write) where
  bracket before after hsplit := by
    obtain ⟨_, tag, later, _, htag, _, heq⟩ := exists_tag_of_flatMap_write hclasses h hsplit
    exact ⟨tag, htag, heq ▸ List.prefix_append tag _⟩
  closed before after cls hcls hsplit := by
    obtain ⟨earlier, later, hatoms, _, rfl⟩ :=
      exists_of_flatMap_write_eq_tag hclasses h (.opening hcls) hsplit
    obtain ⟨label, rest, rfl⟩ := h.closed earlier later cls hatoms
    refine ⟨Markup.escape label, rest.flatMap Atom.write, Markup.bracket_notMem_escape label, ?_⟩
    simp [Atom.write]
  opened before after hsplit := by
    obtain ⟨earlier, later, hatoms, rfl, _⟩ :=
      exists_of_flatMap_write_eq_tag hclasses h .closing hsplit
    obtain ⟨front, cls, label, hcls, rfl⟩ := h.opened earlier later hatoms
    refine ⟨front.flatMap Atom.write, cls, Markup.escape label, hcls,
      Markup.bracket_notMem_escape label, ?_⟩
    simp [Atom.write]
  outside before c after hsplit := by
    rcases inTag_or_of_flatMap_write h hsplit with
      ⟨earlier, tag, later, left, right, _, htag, heq, rfl, rfl⟩ | hplain
    · exact Or.inl ⟨_, tag, left, c :: right, _, htag, heq, List.cons_ne_nil c right, rfl, rfl⟩
    · exact Or.inr hplain

end Writing

/-! ## The markup of a text -/

/-- The tags and characters that a part of a stored text is shown as. -/
def atoms (classes : String → String) (labels : LabelTable) : Template.Piece → List Atom
  | .char c => [if c = '\n' then .tag breakTag else .char c]
  | .marker token =>
      .tag (openTag (classes (String.ofList token))) ::
        ((labelOf labels (String.ofList token)).toList.map .char ++ [.tag Markup.spanClose])

theorem openTag_ne_spanClose (cls : String) : openTag cls ≠ Markup.spanClose := by
  simp [openTag, Markup.spanOpen, Markup.spanClose]

theorem openTag_ne_breakTag (cls : String) : openTag cls ≠ breakTag := by
  simp [openTag, Markup.spanOpen, breakTag, Markup.breakOpen]

section Showing

variable {settings : Settings} {classes : String → String} (labels : LabelTable)

@[simp] theorem flatMap_write_atoms (piece : Template.Piece) :
    (atoms classes labels piece).flatMap Atom.write = renderPiece classes labels piece := by
  cases piece with
  | char c =>
      rw [atoms, List.flatMap_singleton, renderPiece, renderChar]
      split <;> rfl
  | marker token =>
      simp [atoms, Atom.write, openTag, renderPiece, badge]

theorem eq_of_atoms_eq_openTag {piece : Template.Piece} {left right : List Atom} {cls : String}
    (h : atoms classes labels piece = left ++ .tag (openTag cls) :: right) :
    ∃ label : List Char, right = label.map .char ++ [.tag Markup.spanClose] := by
  cases piece with
  | char c =>
      have hmem : Atom.tag (openTag cls) ∈ atoms classes labels (.char c) := by simp [h]
      have heq := List.mem_singleton.mp hmem
      split at heq
      · exact absurd (Atom.tag.inj heq) (openTag_ne_breakTag cls)
      · cases heq
  | marker token =>
      cases left with
      | nil => exact ⟨_, (List.cons.inj h).2.symm⟩
      | cons x left =>
          have hmem : Atom.tag (openTag cls) ∈
              (labelOf labels (String.ofList token)).toList.map .char ++
                [.tag Markup.spanClose] := by
            simp [(List.cons.inj h).2]
          simp [openTag_ne_spanClose] at hmem

theorem eq_of_atoms_eq_spanClose (hclass : ∀ token, settings.HasClass (classes token))
    {piece : Template.Piece} {left right : List Atom}
    (h : atoms classes labels piece = left ++ .tag Markup.spanClose :: right) :
    ∃ (cls : String) (label : List Char), settings.HasClass cls ∧
      left = .tag (openTag cls) :: label.map .char := by
  cases piece with
  | char c =>
      have hmem : Atom.tag Markup.spanClose ∈ atoms classes labels (.char c) := by simp [h]
      have heq := List.mem_singleton.mp hmem
      split at heq
      · exact absurd (Atom.tag.inj heq) (by decide)
      · cases heq
  | marker token =>
      cases left with
      | nil => exact absurd (Atom.tag.inj (List.cons.inj h).1) (openTag_ne_spanClose _)
      | cons x left =>
          obtain ⟨rfl, hrest⟩ := List.cons.inj h
          have hlabel : Atom.tag Markup.spanClose ∉
              (labelOf labels (String.ofList token)).toList.map Atom.char := by simp
          obtain ⟨rfl, _⟩ :=
            (List.append_cons_inj_of_notMem hlabel List.not_mem_nil).mp hrest
          exact ⟨_, _, hclass _, rfl⟩

/-- The parts of a text are shown as tags and characters in a safe order. -/
theorem areSafe_flatMap_atoms (hclass : ∀ token, settings.HasClass (classes token))
    (pieces : List Template.Piece) : AreSafe settings (pieces.flatMap (atoms classes labels)) where
  isTag tag hmem := by
    obtain ⟨piece, _, hpiece⟩ := List.mem_flatMap.mp hmem
    cases piece with
    | char c =>
        have heq := List.mem_singleton.mp hpiece
        split at heq
        · cases heq
          exact .lineBreak
        · cases heq
    | marker token =>
        simp only [atoms, List.mem_cons, List.mem_append, List.mem_map, List.not_mem_nil,
          or_false, reduceCtorEq, and_false, exists_false, false_or, Atom.tag.injEq] at hpiece
        rcases hpiece with rfl | rfl
        · exact .opening (hclass _)
        · exact .closing
  closed earlier later cls hsplit := by
    obtain ⟨_, piece, others, left, right, _, hpiece, _, rfl⟩ := exists_of_flatMap_eq hsplit
    obtain ⟨label, rfl⟩ := eq_of_atoms_eq_openTag labels hpiece
    exact ⟨label, _, by rw [List.append_assoc]; rfl⟩
  opened earlier later hsplit := by
    obtain ⟨front, piece, others, left, right, _, hpiece, rfl, _⟩ := exists_of_flatMap_eq hsplit
    obtain ⟨cls, label, hcls, rfl⟩ := eq_of_atoms_eq_spanClose labels hclass hpiece
    exact ⟨_, cls, label, hcls, rfl⟩

/-- A tag is counted where it starts and nowhere else. -/
theorem timesIn_tag_append (hclasses : settings.HasPlainClasses) {tag : List Char}
    (htag : IsTag settings tag) (word rest : List Char) :
    Text.timesIn ('<' :: word) (tag ++ rest) =
      (if '<' :: word <+: tag ++ rest then 1 else 0) + Text.timesIn ('<' :: word) rest := by
  obtain ⟨inTag, rfl, hopen, _⟩ := htag.exists_eq hclasses
  have hinner : '<' ∉ inTag ++ ['>'] := by simp [hopen]
  rw [List.cons_append, Text.timesIn, Text.timesIn_append_of_notMem word hinner]

theorem timesIn_badge_append (hclasses : settings.HasPlainClasses) {cls : String}
    (hcls : settings.HasClass cls) (label : String) (word rest : List Char) :
    Text.timesIn ('<' :: word) (badge cls label ++ rest) =
      (if '<' :: word <+: openTag cls ++ (Markup.escape label.toList ++ (Markup.spanClose ++ rest))
        then 1 else 0) +
      ((if '<' :: word <+: Markup.spanClose ++ rest then 1 else 0) +
        Text.timesIn ('<' :: word) rest) := by
  have hsplit : badge cls label ++ rest =
      openTag cls ++ (Markup.escape label.toList ++ (Markup.spanClose ++ rest)) := by
    simp [badge, openTag]
  rw [hsplit, timesIn_tag_append hclasses (.opening hcls),
    Text.timesIn_append_of_notMem word (Markup.bracket_notMem_escape label.toList),
    timesIn_tag_append hclasses .closing]

/-- A character is shown as a break tag if it is a newline, and without a tag otherwise. -/
theorem timesIn_renderChar_append (hclasses : settings.HasPlainClasses) (c : Char)
    (word rest : List Char) :
    Text.timesIn ('<' :: word) (renderChar c ++ rest) =
      (if c = '\n' ∧ '<' :: word <+: breakTag ++ rest then 1 else 0) +
        Text.timesIn ('<' :: word) rest := by
  have hbracket : '<' ∉ Markup.escapeChar c := fun hmem =>
    (Markup.plain_of_mem_escapeChar hmem).1 rfl
  by_cases hc : c = '\n'
  · simp only [renderChar, hc, if_true, true_and]
    exact timesIn_tag_append hclasses .lineBreak word rest
  · simp only [renderChar, hc, if_false, false_and, Nat.zero_add]
    exact Text.timesIn_append_of_notMem word hbracket rest

theorem timesIn_flatMap_renderPiece {word : List Char} {weight : Template.Piece → Nat}
    (h : ∀ piece rest, Text.timesIn word (renderPiece classes labels piece ++ rest) =
      weight piece + Text.timesIn word rest) (pieces : List Template.Piece) :
    Text.timesIn word (pieces.flatMap (renderPiece classes labels)) = (pieces.map weight).sum := by
  induction pieces with
  | nil => rfl
  | cons piece rest ih => rw [List.flatMap_cons, h, ih, List.map_cons, List.sum_cons]

/-- A badge is opened and closed for each marker, and a break tag is shown for each newline that
stands in no marker. -/
theorem timesIn_renderPiece_append (hclasses : settings.HasPlainClasses)
    (hclass : ∀ token, settings.HasClass (classes token)) (piece : Template.Piece)
    (rest : List Char) :
    Text.timesIn Markup.spanOpen (renderPiece classes labels piece ++ rest) =
        piece.token?.toList.length + Text.timesIn Markup.spanOpen rest ∧
      Text.timesIn Markup.spanClose (renderPiece classes labels piece ++ rest) =
        piece.token?.toList.length + Text.timesIn Markup.spanClose rest ∧
      Text.timesIn breakTag (renderPiece classes labels piece ++ rest) =
        (if piece = .char '\n' then 1 else 0) + Text.timesIn breakTag rest := by
  cases piece with
  | char c =>
      have hcount := timesIn_renderChar_append hclasses c
      simp only [renderPiece, Template.Piece.token?, Option.toList_none, List.length_nil,
        Markup.spanOpen, Markup.spanClose, breakTag, Markup.breakOpen, List.cons_append,
        List.nil_append, hcount, Template.Piece.char.injEq]
      simp
  | marker token =>
      have hcount := timesIn_badge_append hclasses (hclass (String.ofList token))
        (labelOf labels (String.ofList token))
      simp only [renderPiece, Template.Piece.token?, Option.toList_some, List.length_singleton,
        Markup.spanOpen, Markup.spanClose, breakTag, Markup.breakOpen, openTag, List.cons_append,
        List.nil_append, List.append_assoc, hcount]
      simp

end Showing

/-- Every newline of a text is outside of markers or in the token of one. -/
theorem count_newline (pieces : List Template.Piece) :
    (pieces.flatMap Template.Piece.write).count '\n' =
      (pieces.map fun piece => if piece = .char '\n' then 1 else 0).sum +
        ((pieces.filterMap fun piece => piece.token?.map String.ofList).map fun token =>
          token.toList.count '\n').sum := by
  induction pieces with
  | nil => rfl
  | cons piece rest ih =>
      rw [List.flatMap_cons, List.count_append, ih, List.map_cons, List.sum_cons]
      cases piece with
      | char c =>
          simp only [Template.Piece.write, Template.Piece.token?, Option.map_none,
            List.filterMap_cons_none, Template.Piece.char.injEq, List.count_singleton, beq_iff_eq]
          omega
      | marker token =>
          have hmarker : (Template.marker token).count '\n' = token.count '\n' := by
            simp [Template.marker, Template.openMark, Template.closeMark]
          have hfirst : ((.marker token :: rest).filterMap fun piece : Template.Piece =>
              piece.token?.map String.ofList) = String.ofList token ::
                rest.filterMap fun piece => piece.token?.map String.ofList := rfl
          rw [hfirst, List.map_cons, List.sum_cons, String.toList_ofList, Template.Piece.write,
            hmarker, if_neg (by simp)]
          omega

theorem length_filterMap_token? (pieces : List Template.Piece) :
    (pieces.filterMap fun piece => piece.token?.map String.ofList).length =
      (pieces.map fun piece => piece.token?.toList.length).sum := by
  induction pieces with
  | nil => rfl
  | cons piece rest ih =>
      rw [List.map_cons, List.sum_cons, ← ih]
      cases piece with
      | char c => simp [Template.Piece.token?]
      | marker token => simp [Template.Piece.token?, Nat.add_comm]

/-- **No tags but those of badges.**  What is shown for a text is safe markup, if no bracket stands
in the classes of badges.  It has one badge for each marker in the text, and one break tag for each
newline, those in tokens apart. -/
theorem isSafe_decode (settings : Settings) (nodes : List Node) (node : Node) (check : Bool)
    (stored : String) (hclasses : settings.HasPlainClasses) :
    let markup := (decode settings nodes node check stored).text.toList
    IsSafe settings markup ∧
      Text.timesIn Markup.spanOpen markup = (Template.tokens stored).length ∧
      Text.timesIn Markup.spanClose markup = (Template.tokens stored).length ∧
      Text.timesIn breakTag markup +
          ((Template.tokens stored).map fun token => token.toList.count '\n').sum =
        stored.toList.count '\n' := by
  intro markup
  have hclass : ∀ token, settings.HasClass (classOf settings (.ofNodes nodes) node check token) :=
    fun token => settings.hasClass_ite _
  have hmarkup : markup =
      render (classOf settings (.ofNodes nodes) node check) node.labels stored := by
    simp only [markup, decode_eq, String.toList_ofList]
  have hcount := timesIn_renderPiece_append node.labels hclasses hclass
  have htokens : (Template.tokens stored).length =
      ((Template.scan stored.toList).map fun piece => piece.token?.toList.length).sum :=
    length_filterMap_token? _
  rw [hmarkup, htokens]
  refine ⟨?_, ?_, ?_, ?_⟩
  · have hatoms : render (classOf settings (.ofNodes nodes) node check) node.labels stored =
        ((Template.scan stored.toList).flatMap (atoms (classOf settings (.ofNodes nodes) node check)
          node.labels)).flatMap Atom.write := by
      rw [List.flatMap_assoc, render]
      exact congrArg (List.flatMap · _) (funext fun piece => (flatMap_write_atoms _ piece).symm)
    rw [hatoms]
    exact isSafe_flatMap_write hclasses (areSafe_flatMap_atoms node.labels hclass _)
  · exact timesIn_flatMap_renderPiece _ (fun piece rest => (hcount piece rest).1) _
  · exact timesIn_flatMap_renderPiece _ (fun piece rest => (hcount piece rest).2.1) _
  · rw [render, timesIn_flatMap_renderPiece _ (fun piece rest => (hcount piece rest).2.2)]
    simpa [Template.tokens] using (count_newline (Template.scan stored.toList)).symm

/-- A label that is itself markup, and a text with all that is escaped, are shown as text. -/
theorem isSafe_decode_hostile_label :
    let labels := LabelTable.ofList [("a.x", "</span>&lt;\r\n")]
    let node : Node := { id := "n", name := "", kind := "", groups := [], labels }
    let stored := "1<2>\r\n" ++ Template.wrap "a.x"
    let markup := "1&lt;2&gt;&#13;<br><span class=\"badge-error\" contenteditable=\"false\">" ++
      "&lt;/span&gt;&amp;lt;&#13;\n</span>"
    Settings.standard.HasPlainClasses ∧ (decode .standard [node] node true stored).text = markup ∧
      IsSafe .standard markup.toList ∧ Text.timesIn breakTag markup.toList = 1 := by
  intro labels node stored markup
  have hclasses : Settings.standard.HasPlainClasses := by
    rintro cls (rfl | rfl)
    · exact ⟨by decide, by decide⟩
    · exact ⟨by decide, by decide⟩
  have hmarkup : (decode .standard [node] node true stored).text = markup := by cbv
  obtain ⟨hsafe, _, _, hbreaks⟩ := isSafe_decode .standard [node] node true stored hclasses
  have htokens : Template.tokens stored = ["a.x"] := by cbv
  have hnewlines : stored.toList.count '\n' = 1 := by cbv
  rw [hmarkup, htokens, hnewlines] at hbreaks
  rw [hmarkup] at hsafe
  exact ⟨hclasses, hmarkup, hsafe, hbreaks⟩

end Codec
end Workflow
