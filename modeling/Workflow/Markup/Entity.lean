import Workflow.Text.Replace

/-!
# Entities

In markup, some characters are written as entities.  `escape` writes the four that would be taken
for markup or lost, and `unescape` reads six, each in the whole text before the next one.  No bracket
is left in what is escaped, and each ampersand in it starts an entity (`plain_of_escapeChar_eq`).
-/

namespace Workflow
namespace Markup

/-- A character as it is written in markup. -/
def escapeChar (c : Char) : List Char :=
  match c with
  | '&' => ['&', 'a', 'm', 'p', ';']
  | '<' => ['&', 'l', 't', ';']
  | '>' => ['&', 'g', 't', ';']
  | '\r' => ['&', '#', '1', '3', ';']
  | c => [c]

/-- A text as it is written in markup. -/
def escape (text : List Char) : List Char :=
  text.flatMap escapeChar

/-- An entity that is read: an ampersand and a name, in place of a character. -/
structure Entity where
  name : List Char
  char : Char
  /-- No entity starts within another. -/
  amp_notMem : '&' ∉ name := by decide

namespace Entity

def written (entity : Entity) : List Char :=
  '&' :: entity.name

/-- A text with the entity read wherever it stands. -/
def read (entity : Entity) (text : List Char) : List Char :=
  Text.replaceWord '&' entity.name [entity.char] text

end Entity

/-- The entities that are read, in this order.  The ampersand comes last, since with what follows it
it could be taken for another entity.  The space that does not break is read as a plain one. -/
def readEntities : List Entity :=
  [{ name := ['n', 'b', 's', 'p', ';'], char := ' ' }, { name := ['l', 't', ';'], char := '<' },
    { name := ['g', 't', ';'], char := '>' }, { name := ['q', 'u', 'o', 't', ';'], char := '"' },
    { name := ['#', '1', '3', ';'], char := '\r' }, { name := ['a', 'm', 'p', ';'], char := '&' }]

/-- The text that some markup without tags writes. -/
def unescape (text : List Char) : List Char :=
  if '&' ∈ text then
    readEntities.foldl (fun text entity => entity.read text) text
  else
    text

theorem unescape_of_notMem {text : List Char} (h : '&' ∉ text) : unescape text = text :=
  if_neg h

/-- The entities that are written. -/
def entities : List (List Char) :=
  [['&', 'a', 'm', 'p', ';'], ['&', 'l', 't', ';'], ['&', 'g', 't', ';'],
    ['&', '#', '1', '3', ';']]

/-- An escaped character is an entity, or the character itself if nothing is wrong with it. -/
theorem escapeChar_cases (c : Char) :
    escapeChar c ∈ entities ∨
      (escapeChar c = [c] ∧ c ≠ '&' ∧ c ≠ '<' ∧ c ≠ '>' ∧ c ≠ '\r') := by
  unfold escapeChar
  split
  · exact Or.inl (by decide)
  · exact Or.inl (by decide)
  · exact Or.inl (by decide)
  · exact Or.inl (by decide)
  · rename_i hamp hopen hclose hreturn
    exact Or.inr ⟨rfl, hamp, hopen, hclose, hreturn⟩

/-- An entity is an ampersand and a name that holds no further one and no bracket. -/
theorem exists_eq_cons_of_mem_entities {entity : List Char} (h : entity ∈ entities) :
    ∃ name, entity = '&' :: name ∧ ∀ c ∈ name, c ≠ '&' ∧ c ≠ '<' ∧ c ≠ '>' ∧ c ≠ '\r' := by
  simp only [entities, List.mem_cons, List.not_mem_nil, or_false] at h
  rcases h with rfl | rfl | rfl | rfl
  · exact ⟨_, rfl, by simp⟩
  · exact ⟨_, rfl, by simp⟩
  · exact ⟨_, rfl, by simp⟩
  · exact ⟨_, rfl, by simp⟩

/-- Where a character stands in an escaped one, it is no bracket and no carriage return, and an
ampersand starts an entity. -/
theorem plain_of_escapeChar_eq {d c : Char} {left right : List Char}
    (h : escapeChar d = left ++ c :: right) :
    c ≠ '<' ∧ c ≠ '>' ∧ c ≠ '\r' ∧ (c = '&' → ∃ entity ∈ entities, entity = c :: right) := by
  rcases escapeChar_cases d with hentity | ⟨hself, hamp, hopen, hclose, hreturn⟩
  · obtain ⟨name, hname, hplain⟩ := exists_eq_cons_of_mem_entities hentity
    rw [hname] at h
    cases left with
    | nil =>
        obtain ⟨rfl, rfl⟩ := List.cons.inj h
        exact ⟨by decide, by decide, by decide, fun _ => ⟨_, hentity, hname⟩⟩
    | cons x left =>
        obtain ⟨rfl, rfl⟩ := List.cons.inj h
        obtain ⟨hamp, hopen, hclose, hreturn⟩ := hplain c (by simp)
        exact ⟨hopen, hclose, hreturn, fun heq => absurd heq hamp⟩
  · rw [hself] at h
    cases left with
    | nil =>
        obtain ⟨rfl, rfl⟩ := List.cons.inj h
        exact ⟨hopen, hclose, hreturn, fun heq => absurd heq hamp⟩
    | cons x left => simp at h

theorem plain_of_mem_escapeChar {d c : Char} (h : c ∈ escapeChar d) :
    c ≠ '<' ∧ c ≠ '>' ∧ c ≠ '\r' := by
  obtain ⟨left, right, hsplit⟩ := List.append_of_mem h
  obtain ⟨hopen, hclose, hreturn, _⟩ := plain_of_escapeChar_eq hsplit
  exact ⟨hopen, hclose, hreturn⟩

theorem bracket_notMem_escape (text : List Char) : '<' ∉ escape text := by
  intro hmem
  obtain ⟨d, _, hd⟩ := List.mem_flatMap.mp hmem
  exact (plain_of_mem_escapeChar hd).1 rfl

end Markup
end Workflow
