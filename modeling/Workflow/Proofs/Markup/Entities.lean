import Workflow.Markup.Entity

/-!
# Reading entities in one pass

`unescape` reads one entity after the other, each in the whole text.  An entity does not start within
another, and what is read for one stands in none of those that come later.  So the replacements keep
out of each other's way: together they are one pass from left to right that never looks again at what
it has read (`isReadAs_unescape`, `unescape_eq_readOnce`), and reading undoes writing
(`unescape_escape`).
-/

namespace Workflow
namespace Markup

/-- The text that some markup without tags writes, read in one pass from left to right. -/
def readOnce : List Char → List Char
  | '&' :: 'n' :: 'b' :: 's' :: 'p' :: ';' :: rest => ' ' :: readOnce rest
  | '&' :: 'l' :: 't' :: ';' :: rest => '<' :: readOnce rest
  | '&' :: 'g' :: 't' :: ';' :: rest => '>' :: readOnce rest
  | '&' :: 'q' :: 'u' :: 'o' :: 't' :: ';' :: rest => '"' :: readOnce rest
  | '&' :: '#' :: '1' :: '3' :: ';' :: rest => '\r' :: readOnce rest
  | '&' :: 'a' :: 'm' :: 'p' :: ';' :: rest => '&' :: readOnce rest
  | c :: rest => c :: readOnce rest
  | [] => []

/-! ## One entity -/

namespace Entity

@[simp] theorem read_append (entity : Entity) (rest : List Char) :
    entity.read (entity.written ++ rest) = entity.char :: entity.read rest :=
  Text.replaceWord_append '&' entity.name [entity.char] rest

variable {entity : Entity}

theorem read_cons {c : Char} {rest : List Char} (h : ¬entity.written <+: c :: rest) :
    entity.read (c :: rest) = c :: entity.read rest :=
  Text.replaceWord_cons [entity.char] h

theorem read_append_of_notMem {word : List Char} (h : '&' ∉ word) (rest : List Char) :
    entity.read (word ++ rest) = word ++ entity.read rest :=
  Text.replaceWord_append_of_notMem [entity.char] h rest

/-- An entity starts with an ampersand. -/
theorem isPrefix_cons {c : Char} {rest : List Char} (h : entity.written <+: c :: rest) :
    c = '&' ∧ entity.name <+: rest := by
  obtain ⟨hc, hname⟩ := List.cons_prefix_cons.mp h
  exact ⟨hc.symm, hname⟩

/-- What is read for the one entity does not stand in the other. -/
def KeepsClearOf (earlier later : Entity) : Prop :=
  earlier.char ∉ later.written

instance (earlier later : Entity) : Decidable (earlier.KeepsClearOf later) :=
  inferInstanceAs (Decidable (_ ∉ _))

end Entity

/-! ## A pass that reads some entities -/

/-- One pass from left to right over a text reads the entities of a table, and keeps a character at
which none of them starts. -/
inductive IsReadAs (table : List Entity) : List Char → List Char → Prop where
  | nil : IsReadAs table [] []
  | entity {entity : Entity} {rest result : List Char} (hmem : entity ∈ table)
      (hrest : IsReadAs table rest result) :
      IsReadAs table (entity.written ++ rest) (entity.char :: result)
  | plain {c : Char} {rest result : List Char}
      (hnone : ∀ entity ∈ table, ¬entity.written <+: c :: rest)
      (hrest : IsReadAs table rest result) : IsReadAs table (c :: rest) (c :: result)

section Passes

variable {table : List Entity} {text result : List Char}

/-- Where there are no entities to read, a text is kept. -/
theorem isReadAs_self (text : List Char) : IsReadAs [] text text := by
  induction text with
  | nil => exact .nil
  | cons c rest ih => exact .plain (fun _ hmem => absurd hmem List.not_mem_nil) ih

/-- Without an ampersand a text is kept. -/
theorem isReadAs_of_notMem (table : List Entity) (h : '&' ∉ text) : IsReadAs table text text := by
  induction text with
  | nil => exact .nil
  | cons c rest ih =>
      obtain ⟨hc, hrest⟩ := not_or.mp (mt List.mem_cons.mpr h)
      exact .plain (fun _ _ hstart => hc (Entity.isPrefix_cons hstart).1.symm) (ih hrest)

/-- What holds no ampersand is passed over. -/
theorem IsReadAs.exists_of_append {word rest : List Char} (hword : '&' ∉ word)
    (h : IsReadAs table (word ++ rest) result) :
    ∃ after, result = word ++ after ∧ IsReadAs table rest after := by
  induction word generalizing result with
  | nil => exact ⟨result, rfl, h⟩
  | cons c word ih =>
      obtain ⟨hc, hword⟩ := not_or.mp (mt List.mem_cons.mpr hword)
      rw [List.cons_append] at h
      generalize htext : c :: (word ++ rest) = text at h
      cases h with
      | nil => cases htext
      | entity hmem hrest => exact absurd (List.cons.inj htext).1.symm hc
      | plain hnone hrest =>
          obtain ⟨rfl, rfl⟩ := List.cons.inj htext
          obtain ⟨after, rfl, hafter⟩ := ih hword hrest
          exact ⟨after, rfl, hafter⟩

/-- A word without any of the characters that are read for entities stood in the text before. -/
theorem IsReadAs.isPrefix_text {word : List Char} (h : IsReadAs table text result)
    (hword : ∀ entity ∈ table, entity.char ∉ word) (hstart : word <+: result) : word <+: text := by
  induction h generalizing word with
  | nil => exact hstart
  | entity hmem hrest ih =>
      cases word with
      | nil => exact List.nil_prefix
      | cons c word =>
          obtain ⟨rfl, _⟩ := List.cons_prefix_cons.mp hstart
          exact absurd List.mem_cons_self (hword _ hmem)
  | plain hnone hrest ih =>
      cases word with
      | nil => exact List.nil_prefix
      | cons c word =>
          obtain ⟨rfl, hafter⟩ := List.cons_prefix_cons.mp hstart
          have htail : ∀ entity ∈ table, entity.char ∉ word := fun entity hmem hchar =>
            hword entity hmem (List.mem_cons_of_mem c hchar)
          exact List.cons_prefix_cons.mpr ⟨rfl, ih htail hafter⟩

/-! ## One entity after the other -/

/-- To read one more entity in what has been read is to read it along with the others. -/
theorem IsReadAs.read_entity {entity : Entity}
    (hclear : ∀ earlier ∈ table, earlier.KeepsClearOf entity) (h : IsReadAs table text result) :
    IsReadAs (table ++ [entity]) text (entity.read result) := by
  induction h with
  | nil => exact .nil
  | @entity earlier rest result hmem hrest ih =>
      -- What was read for the earlier entity is no ampersand.
      have hstart : ¬entity.written <+: earlier.char :: result := fun hstart =>
        hclear earlier hmem ((Entity.isPrefix_cons hstart).1 ▸ List.mem_cons_self)
      rw [Entity.read_cons hstart]
      exact .entity (List.mem_append_left [entity] hmem) ih
  | @plain c rest result hnone hrest ih =>
      by_cases hstart : entity.written <+: c :: rest
      · -- The name of the entity was passed over, so that the entity still stands there.
        obtain ⟨rfl, after, rfl⟩ := Entity.isPrefix_cons hstart
        obtain ⟨before, rfl, _⟩ := hrest.exists_of_append entity.amp_notMem
        rw [Entity.read_append_of_notMem entity.amp_notMem] at ih
        obtain ⟨read, heq, hread⟩ := ih.exists_of_append entity.amp_notMem
        obtain rfl := List.append_cancel_left heq
        have hentity := entity.read_append before
        rw [Entity.written, List.cons_append] at hentity
        rw [hentity]
        exact .entity (List.mem_append_right table List.mem_cons_self) hread
      · have hresult : ¬entity.written <+: c :: result := fun hresult =>
          hstart ((IsReadAs.plain hnone hrest).isPrefix_text hclear hresult)
        rw [Entity.read_cons hresult]
        refine .plain (fun other hmem => ?_) ih
        rcases List.mem_append.mp hmem with hmem | hmem
        · exact hnone other hmem
        · rwa [List.mem_singleton.mp hmem]

/-- To read entities one after the other is to read them in one pass, if what is read for one stands
in none of the later ones. -/
theorem IsReadAs.foldl_read {more : List Entity} (h : IsReadAs table text result)
    (hclear : (table ++ more).Pairwise Entity.KeepsClearOf) :
    IsReadAs (table ++ more) text (more.foldl (fun text entity => entity.read text) result) := by
  induction more generalizing table result with
  | nil => simpa using h
  | cons entity more ih =>
      have hearlier : ∀ earlier ∈ table, earlier.KeepsClearOf entity := fun earlier hmem =>
        (List.pairwise_append.mp hclear).2.2 earlier hmem entity List.mem_cons_self
      rw [List.append_cons] at hclear ⊢
      exact ih (h.read_entity hearlier) hclear

end Passes

/-! ## The entities that are read -/

/-- What is read for an entity stands in none of the later ones. -/
theorem pairwise_keepsClearOf_readEntities : readEntities.Pairwise Entity.KeepsClearOf := by
  decide

theorem isReadAs_unescape (text : List Char) : IsReadAs readEntities text (unescape text) := by
  unfold unescape
  split
  · exact (isReadAs_self text).foldl_read pairwise_keepsClearOf_readEntities
  · rename_i h
    exact isReadAs_of_notMem readEntities h

/-- A character at which no entity starts is kept. -/
theorem readOnce_cons {c : Char} {rest : List Char}
    (hnone : ∀ entity ∈ readEntities, ¬entity.written <+: c :: rest) :
    readOnce (c :: rest) = c :: readOnce rest := by
  rw [readOnce]
  all_goals
    rintro after rfl rfl
    simp [readEntities, Entity.written] at hnone

/-- There is one way to read the entities of a text in one pass. -/
theorem IsReadAs.readOnce_eq {text result : List Char} (h : IsReadAs readEntities text result) :
    readOnce text = result := by
  induction h with
  | nil => rfl
  | entity hmem hrest ih =>
      simp only [readEntities, List.mem_cons, List.not_mem_nil, or_false] at hmem
      rcases hmem with rfl | rfl | rfl | rfl | rfl | rfl
      all_goals simp only [Entity.written, List.cons_append, List.nil_append, readOnce, ih]
  | plain hnone hrest ih => rw [readOnce_cons hnone, ih]

/-- The replacements are one pass. -/
theorem unescape_eq_readOnce (text : List Char) : unescape text = readOnce text :=
  (isReadAs_unescape text).readOnce_eq.symm

@[simp] theorem unescape_nil : unescape [] = [] :=
  unescape_of_notMem List.not_mem_nil

theorem unescape_cons {c : Char} (h : c ≠ '&') (rest : List Char) :
    unescape (c :: rest) = c :: unescape rest := by
  have hnone : ∀ entity ∈ readEntities, ¬entity.written <+: c :: rest := fun _ _ hstart =>
    h (Entity.isPrefix_cons hstart).1
  rw [unescape_eq_readOnce, unescape_eq_readOnce, readOnce_cons hnone]

/-- An escaped character is read back, whatever follows it. -/
@[simp] theorem unescape_escapeChar (c : Char) (rest : List Char) :
    unescape (escapeChar c ++ rest) = c :: unescape rest := by
  unfold escapeChar
  split
  · simp [unescape_eq_readOnce, readOnce]
  · simp [unescape_eq_readOnce, readOnce]
  · simp [unescape_eq_readOnce, readOnce]
  · simp [unescape_eq_readOnce, readOnce]
  · exact unescape_cons (by simp_all) rest

/-- Reading undoes writing. -/
@[simp] theorem unescape_escape (text : List Char) : unescape (escape text) = text := by
  induction text with
  | nil => simp [escape]
  | cons c rest ih => simpa [escape] using ih

/-- **Entities are read once.**  The replacements of the entities, one after the other in the whole
text, come to one pass from left to right, in which each part of the text is read as one character of
the result and nothing of the result is read again.  So reading undoes writing, also of a text in
which entities or parts of them stand. -/
theorem unescape_isReadAs_and_escape (text : List Char) :
    unescape text = readOnce text ∧
      (∀ result, IsReadAs readEntities text result ↔ unescape text = result) ∧
      unescape (escape text) = text := by
  refine ⟨unescape_eq_readOnce text, fun result => ⟨fun h => ?_, ?_⟩, unescape_escape text⟩
  · rw [unescape_eq_readOnce, h.readOnce_eq]
  · rintro rfl
    exact isReadAs_unescape text

example : unescape "&amp;lt; &am&amp;p; &amp;#13;".toList = "&lt; &am&p; &#13;".toList := by
  decide

end Markup
end Workflow
