import Workflow.Proofs.Markup.Pieces

/-!
# Markup as it is written

A line break can be written in several ways, and a span tag can hold more than its class.
`WellFormed` tells which parts can be written one after the other so that they can be told apart
again, and `scan_flatMap_write` says that the scan of what is written finds these parts.  Any markup
is written as such parts, though they may not be told apart by themselves (`exists_written`).
-/

namespace Workflow

/-- No white space is a word character. -/
theorem Text.isWord_of_isBlank {c : Char} (h : isBlank c = true) : isWord c = false := by
  have hapart : (blankRanges.all fun blank => wordRanges.all fun word =>
      decide (word.2 < blank.1) || decide (blank.2 < word.1)) = true := by decide +kernel
  rw [isWord, List.any_eq_false]
  intro word hword
  obtain ⟨blank, hblank, hin⟩ := List.any_eq_true.mp h
  have hranges := List.all_eq_true.mp (List.all_eq_true.mp hapart blank hblank) word hword
  simp only [Bool.and_eq_true, Bool.or_eq_true, decide_eq_true_eq] at hin hranges ⊢
  omega

namespace Markup

/-- A part of some markup with all that is written of it. -/
inductive Written where
  | run (text : List Char)
  | breakTag (blanks : List Char) (slash : Bool)
  /-- A carriage return and a line feed. -/
  | returnFeed
  /-- A carriage return alone. -/
  | bareReturn
  /-- A span with what stands in its tag before and behind the class attribute. -/
  | span (before : List Char) (blank : Char) (classes behind inner : List Char)
  deriving DecidableEq

namespace Written

def write : Written → List Char
  | run text => text
  | breakTag blanks slash => breakOpen ++ (blanks ++ breakEnd slash)
  | returnFeed => ['\r', '\n']
  | bareReturn => ['\r']
  | span before blank classes behind inner =>
      spanOpen ++ before ++ [blank] ++ classOpen ++ classes ++ ['"'] ++ behind ++ ['>'] ++ inner ++
        spanClose

/-- The part without the way in which it is written. -/
def piece : Written → Piece
  | run text => .run text
  | breakTag _ _ => .lineBreak
  | returnFeed => .lineBreak
  | bareReturn => .lineBreak
  | span _ _ classes _ inner => .span classes inner

end Written

/-- Parts that can be told apart again when they are written one after the other. -/
inductive WellFormed : List Written → Prop where
  | nil : WellFormed []
  /-- No tag and no line ending starts in a run, and the next part is no run. -/
  | run {text : List Char} {rest : List Written} (hbracket : '<' ∉ text) (hreturn : '\r' ∉ text)
      (hnext : ∀ other, rest.head? ≠ some (.run other)) (hrest : WellFormed rest) :
      WellFormed (.run text :: rest)
  | breakTag {blanks : List Char} (slash : Bool) {rest : List Written}
      (hblanks : ∀ c ∈ blanks, Text.isBlank c = true) (hrest : WellFormed rest) :
      WellFormed (.breakTag blanks slash :: rest)
  | returnFeed {rest : List Written} (hrest : WellFormed rest) : WellFormed (.returnFeed :: rest)
  /-- No line feed follows a carriage return that stands alone. -/
  | bareReturn {rest : List Written} (hfeed : (rest.flatMap Written.write).head? ≠ some '\n')
      (hrest : WellFormed rest) : WellFormed (.bareReturn :: rest)
  /-- The name of the tag ends where it should, the class attribute is the first, and neither the
  tag nor its content holds what ends it. -/
  | span {before : List Char} {blank : Char} {classes behind inner : List Char}
      {rest : List Written} (hname : ∀ c ∈ before.head?, Text.isWord c = false)
      (hblank : Text.isBlank blank = true) (hfirst : ¬HoldsClass before) (hbefore : '>' ∉ before)
      (hclasses : '"' ∉ classes) (hbehind : '>' ∉ behind) (hinner : ¬spanClose <:+: inner)
      (hrest : WellFormed rest) :
      WellFormed (.span before blank classes behind inner :: rest)

/-- Whether a piece is a run without a character. -/
def Piece.isEmptyRun : Piece → Bool
  | run [] => true
  | _ => false

/-- A run in front of pieces that start with no run is a piece of its own. -/
theorem foldr_consText_eq_cons {text : List Char} (hne : text ≠ []) {pieces : List Piece}
    (h : ∀ other, pieces.head? ≠ some (.run other)) :
    text.foldr consText pieces = .run text :: pieces := by
  rcases foldr_consText hne pieces with ⟨run, others, rfl, _⟩ | hfold
  · exact absurd rfl (h run)
  · exact hfold

/-- If the first part is no run, then the first piece is none. -/
theorem head?_ne_run {parts : List Written} (h : ∀ other, parts.head? ≠ some (.run other))
    (other : List Char) :
    ((parts.map Written.piece).filter fun piece => !piece.isEmptyRun).head? ≠
      some (.run other) := by
  cases parts with
  | nil => simp
  | cons part rest =>
      cases part with
      | run text => exact absurd rfl (h text)
      | breakTag blanks slash => simp [Written.piece, Piece.isEmptyRun]
      | returnFeed => simp [Written.piece, Piece.isEmptyRun]
      | bareReturn => simp [Written.piece, Piece.isEmptyRun]
      | span before blank classes behind inner => simp [Written.piece, Piece.isEmptyRun]

/-- A span is found, whatever else stands in its tag. -/
theorem scan_write_span {before : List Char} {blank : Char} {classes behind inner : List Char}
    (hname : ∀ c ∈ before.head?, Text.isWord c = false) (hblank : Text.isBlank blank = true)
    (hfirst : ¬HoldsClass before) (hbefore : '>' ∉ before) (hclasses : '"' ∉ classes)
    (hbehind : '>' ∉ behind) (hinner : ¬spanClose <:+: inner) (after : List Char) :
    scan ((Written.span before blank classes behind inner).write ++ after) =
      .span classes inner :: scan after := by
  have hsplit : (Written.span before blank classes behind inner).write ++ after =
      spanOpen ++ (before ++ blank :: (classOpen ++ (classes ++ '"' :: (behind ++ '>' ::
        (inner ++ spanClose ++ after))))) := by
    simp [Written.write]
  have hends : endsName (before ++ blank :: (classOpen ++ (classes ++ '"' :: (behind ++ '>' ::
      (inner ++ spanClose ++ after))))) = true := by
    cases before with
    | nil => simp [endsName, Text.isWord_of_isBlank hblank]
    | cons c before => simp [endsName, hname c rfl]
  rw [hsplit]
  exact scan_span after hends (afterClassOpen?_append hbefore hfirst hblank _) hclasses hbehind
    hinner

/-- The scan of what is written finds the parts again.  A run without a character is not found. -/
theorem scan_flatMap_write {parts : List Written} (h : WellFormed parts) :
    scan (parts.flatMap Written.write) =
      (parts.map Written.piece).filter fun piece => !piece.isEmptyRun := by
  induction h with
  | nil => simp [scan]
  | @run text rest hbracket hreturn hnext hrest ih =>
      have htext : ∀ c ∈ text, startsMark c = false := by
        intro c hc
        have hbracket : c ≠ '<' := fun heq => hbracket (heq ▸ hc)
        have hreturn : c ≠ '\r' := fun heq => hreturn (heq ▸ hc)
        simp [startsMark, hbracket, hreturn]
      rw [List.flatMap_cons, Written.write, scan_append_of_unmarked htext, ih, List.map_cons,
        Written.piece]
      cases text with
      | nil => rfl
      | cons c text => exact foldr_consText_eq_cons (List.cons_ne_nil c text) (head?_ne_run hnext)
  | breakTag slash hblanks hrest ih =>
      rw [List.flatMap_cons, Written.write, List.append_assoc, List.append_assoc,
        scan_breakOpen hblanks, ih]
      rfl
  | returnFeed hrest ih =>
      rw [List.flatMap_cons, Written.write, List.cons_append, List.singleton_append,
        scan_return (Or.inl rfl), ih]
      rfl
  | bareReturn hfeed hrest ih =>
      rw [List.flatMap_cons, Written.write, List.singleton_append,
        scan_return (Or.inr ⟨hfeed, rfl⟩), ih]
      rfl
  | span hname hblank hfirst hbefore hclasses hbehind hinner hrest ih =>
      rw [List.flatMap_cons,
        scan_write_span hname hblank hfirst hbefore hclasses hbehind hinner, ih]
      rfl

/-! ## The parts of any markup -/

theorem exists_eq_of_afterClassOpen? {inTag after : List Char}
    (h : afterClassOpen? inTag = some after) :
    ∃ before blank, inTag = before ++ blank :: (classOpen ++ after) := by
  induction inTag with
  | nil => cases h
  | cons c rest ih =>
      unfold afterClassOpen? at h
      split at h
      · cases h
      · split at h
        · rename_i found hdrop
          split at hdrop
          · cases h
            exact ⟨[], c, congrArg (c :: ·) (Text.eq_of_dropWord hdrop)⟩
          · cases hdrop
        · obtain ⟨before, blank, rfl⟩ := ih h
          exact ⟨c :: before, blank, rfl⟩

theorem exists_eq_of_afterBreakName? {inTag after : List Char}
    (h : afterBreakName? inTag = some after) :
    ∃ blanks slash, inTag = blanks ++ (breakEnd slash ++ after) := by
  rw [← List.takeWhile_append_dropWhile (p := Text.isBlank) (l := inTag)]
  unfold afterBreakName? at h
  split at h
  · rename_i found heq
    cases h
    exact ⟨_, true, congrArg (_ ++ ·) heq⟩
  · rename_i found heq
    cases h
    exact ⟨_, false, congrArg (_ ++ ·) heq⟩
  · cases h

/-- A span is written with some other attributes. -/
theorem exists_written_of_span? {markup after : List Char} {piece : Piece}
    (h : span? markup = some (piece, after)) :
    ∃ before blank classes behind inner, piece = .span classes inner ∧
      (Written.span before blank classes behind inner).write ++ after = markup := by
  unfold span? at h
  split at h
  · cases h
  · rename_i inTag hdrop
    split at h
    · cases h
    · simp only [bind, Option.bind_eq_some_iff, pure, Option.some.injEq, Prod.exists,
        Prod.mk.injEq] at h
      obtain ⟨value, hvalue, classes, inTag', hquote, behind, body, hclose, inner, rest, hend,
        rfl, rfl⟩ := h
      obtain ⟨before, blank, rfl⟩ := exists_eq_of_afterClassOpen? hvalue
      refine ⟨before, blank, classes, behind, inner, rfl, ?_⟩
      rw [Text.eq_of_dropWord hdrop, Text.eq_of_cutFirst hquote, Text.eq_of_cutFirst hclose,
        Text.eq_of_cutWord hend]
      simp [Written.write]

/-- A line break is written as one of the parts that are. -/
theorem exists_written_of_lineBreak? {markup after : List Char} {piece : Piece}
    (h : lineBreak? markup = some (piece, after)) :
    ∃ part : Written, part.piece = piece ∧ (∀ text, part ≠ .run text) ∧
      part.write ++ after = markup := by
  unfold lineBreak? at h
  split at h
  · cases h
    exact ⟨.returnFeed, rfl, nofun, rfl⟩
  · cases h
    exact ⟨.bareReturn, rfl, nofun, rfl⟩
  · simp only [Option.map_eq_some_iff, Option.bind_eq_some_iff, Prod.mk.injEq] at h
    obtain ⟨_, ⟨inTag, hdrop, hafter⟩, rfl, rfl⟩ := h
    obtain ⟨blanks, slash, rfl⟩ := exists_eq_of_afterBreakName? hafter
    refine ⟨.breakTag blanks slash, rfl, nofun, ?_⟩
    rw [Text.eq_of_dropWord hdrop]
    simp [Written.write]

theorem exists_written_of_mark? {markup after : List Char} {piece : Piece}
    (h : mark? markup = some (piece, after)) :
    ∃ part : Written, part.piece = piece ∧ (∀ text, part ≠ .run text) ∧
      part.write ++ after = markup := by
  rcases Option.or_eq_some_iff.mp h with hspan | ⟨_, hbreak⟩
  · obtain ⟨before, blank, classes, behind, inner, rfl, hwrite⟩ := exists_written_of_span? hspan
    exact ⟨.span before blank classes behind inner, rfl, nofun, hwrite⟩
  · exact exists_written_of_lineBreak? hbreak

/-- A mark stands where a carriage return does. -/
theorem ne_return_of_not_mark {c : Char} {rest : List Char} (h : mark? (c :: rest) = none) :
    c ≠ '\r' := by
  rintro rfl
  have hbreak : lineBreak? ('\r' :: rest) ≠ none := by
    unfold lineBreak?
    split
    · nofun
    · nofun
    · simp_all
  exact hbreak (Option.or_eq_none_iff.mp h).2

theorem Written.eq_run {part : Written} {text : List Char} (h : part.piece = .run text) :
    part = .run text := by
  cases part with
  | run text => exact congrArg run (Piece.run.inj h)
  | _ => cases h

/-- A character that is no carriage return is written as a run or at the start of one. -/
theorem exists_written_consText {c : Char} (hc : c ≠ '\r') {parts : List Written}
    (h : ∀ text, .run text ∈ parts → '\r' ∉ text) :
    ∃ others : List Written, others.flatMap Written.write = c :: parts.flatMap Written.write ∧
      others.map Written.piece = consText c (parts.map Written.piece) ∧
      ∀ text, .run text ∈ others → '\r' ∉ text := by
  rcases foldr_consText (List.cons_ne_nil c []) (parts.map Written.piece) with
    ⟨run, pieces, hpieces, hcons⟩ | hcons
  · obtain ⟨part, rest, rfl, hpart, rfl⟩ := List.map_eq_cons_iff.mp hpieces
    obtain rfl := Written.eq_run hpart
    refine ⟨.run (c :: run) :: rest, rfl, hcons.symm, fun text htext => ?_⟩
    rcases List.mem_cons.mp htext with heq | htext
    · cases heq
      exact List.not_mem_cons_of_ne_of_not_mem hc.symm (h run List.mem_cons_self)
    · exact h text (List.mem_cons_of_mem _ htext)
  · refine ⟨.run [c] :: parts, rfl, hcons.symm, fun text htext => ?_⟩
    rcases List.mem_cons.mp htext with heq | htext
    · cases heq
      exact List.not_mem_cons_of_ne_of_not_mem hc.symm List.not_mem_nil
    · exact h text htext

/-- All markup is written as parts that the scan finds, and there are no carriage returns in the
runs among them. -/
theorem exists_written (markup : List Char) :
    ∃ parts : List Written, parts.flatMap Written.write = markup ∧
      parts.map Written.piece = scan markup ∧ ∀ text, .run text ∈ parts → '\r' ∉ text := by
  fun_induction scan markup with
  | case1 => exact ⟨[], rfl, rfl, nofun⟩
  | case2 c rest piece after h hlt ih =>
      obtain ⟨parts, hwrite, hpieces, hruns⟩ := ih
      obtain ⟨part, rfl, hpart, hmark⟩ := exists_written_of_mark? h
      refine ⟨part :: parts, ?_, ?_, fun text htext => ?_⟩
      · rw [List.flatMap_cons, hwrite, hmark]
      · rw [List.map_cons, hpieces]
      · rcases List.mem_cons.mp htext with heq | htext
        · exact absurd heq.symm (hpart text)
        · exact hruns text htext
  | case3 c rest h ih =>
      obtain ⟨parts, hwrite, hpieces, hruns⟩ := ih
      rw [← hpieces, ← hwrite]
      exact exists_written_consText (ne_return_of_not_mark h) hruns

end Markup
end Workflow
