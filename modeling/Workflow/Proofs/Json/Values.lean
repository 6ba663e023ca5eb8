import Workflow.Proofs.Json.Containers

/-!
# Reading and passing over values

A text that writes a value is read as this value (`Value.IsWritten.reads`), and any text of the
grammar can be passed over (`IsGrammatical.reads_skip`).
-/

namespace Workflow
namespace Json

/-! ## Values -/

/-- A value that is no container is read by its first character. -/
theorem valueOver_append {inner : Option (Scan Value)} {before : List Char}
    (hbefore : IsBlank before) {c : Char} (hc : isSpace c = false) (hlist : c ≠ '[')
    (hobject : c ≠ '{') (text : List Char) :
    valueOver inner (before ++ c :: text) = scalar c text := by
  rw [valueOver, skipSpace_append hbefore hc]
  split
  · rename_i heq
    exact absurd heq (List.cons_ne_nil _ _)
  · rename_i heq
    exact absurd (List.cons.inj heq).1 hlist
  · rename_i heq
    exact absurd (List.cons.inj heq).1 hobject
  · rename_i heq
    cases heq
    rfl

theorem value_append {before : List Char} (hbefore : IsBlank before) {c : Char}
    (hc : isSpace c = false) (hlist : c ≠ '[') (hobject : c ≠ '{') (depth : Nat)
    (text : List Char) : value depth (before ++ c :: text) = scalar c text := by
  cases depth with
  | zero => exact valueOver_append hbefore hc hlist hobject text
  | succ depth => exact valueOver_append hbefore hc hlist hobject text

/-- White space and the characters around containers; no other value starts with one of them. -/
def structural : List Char :=
  [' ', '\t', '\n', '\r', '[', '{', ']', '}']

theorem of_notMem_structural {c : Char} (h : c ∉ structural) :
    isSpace c = false ∧ c ≠ '[' ∧ c ≠ '{' ∧ c ≠ ']' ∧ c ≠ '}' := by
  have hspace : isSpace c = false := by
    rw [← Bool.not_eq_true, isSpace_iff]
    exact fun hmem => h (List.mem_append_left ['[', '{', ']', '}'] hmem)
  simp only [structural, List.mem_cons, List.not_mem_nil, or_false, not_or] at h
  obtain ⟨_, _, _, _, hbrackets⟩ := h
  exact ⟨hspace, hbrackets⟩

theorem notMem_structural_of_startsNumeral {c : Char} (h : startsNumeral c = true) :
    c ∉ structural := by
  have hall : ∀ c ∈ structural, startsNumeral c = false := by
    simp [structural, startsNumeral]
  intro hmem
  rw [hall c hmem] at h
  cases h

theorem reads_scalar {c : Char} {tail : List Char} {value : Value} (hc : c ∉ structural)
    (h : ∀ rest, Stops rest → scalar c (tail ++ rest) = .ok (value, rest)) (depth : Nat) :
    Reads (Json.value depth) (c :: tail) value := by
  obtain ⟨hspace, hlist, hobject, hlist', hobject'⟩ := of_notMem_structural hc
  refine ⟨⟨c, tail, rfl, hspace, hlist', hobject'⟩, fun before rest hbefore hrest => ?_⟩
  rw [List.cons_append, value_append hbefore hspace hlist hobject, h rest hrest]

theorem reads_word {c : Char} {letters : List Char} {value : Value} (hc : c ∉ structural)
    (h : ∀ text, scalar c text = word value letters text) (depth : Nat) :
    Reads (Json.value depth) (c :: letters) value :=
  reads_scalar hc (fun rest _ => by simp [h]) depth

theorem reads_numeral {n : Numeral} {value : Value} {text : List Char} (h : n.IsSpelled text)
    (hvalue : n.value = .ok value) (depth : Nat) : Reads (Json.value depth) text value := by
  obtain ⟨c, tail, rfl, hc⟩ := h.starts
  refine reads_scalar (notMem_structural_of_startsNumeral hc) (fun rest hrest => ?_) depth
  unfold scalar
  rw [if_pos hc]
  exact number_append h hvalue hrest

/-- A text that writes a value is read as this value. -/
theorem Value.IsWritten.reads {depth : Nat} {value : Value} {text : List Char}
    (h : value.IsWritten depth text) : Reads (Json.value depth) text value := by
  induction h with
  | @null depth => exact reads_word (by decide) (fun _ => rfl) depth
  | @true depth => exact reads_word (by decide) (fun _ => rfl) depth
  | @false depth => exact reads_word (by decide) (fun _ => rfl) depth
  | @int depth i hleast hgreatest =>
      exact reads_numeral (Numeral.isSpelled_ofInt i) (Numeral.value_ofInt hleast hgreatest) depth
  | @real depth n x text h hint hfloat =>
      have hvalue : n.value = .ok (.real x) := by
        rw [Numeral.value, hint, hfloat]
      exact reads_numeral h hvalue depth
  | @str depth s text h =>
      obtain ⟨tail, rfl, hbody⟩ := h.stringBody
      refine reads_scalar (by decide) (fun rest _ => ?_) depth
      have hscalar : scalar '"' (tail ++ rest) =
          string (tail ++ rest) >>= fun p => .ok (.str p.1, p.2) := rfl
      simp only [hscalar, string, hbody rest, bind, Except.bind, String.ofList_toList]
  | @arr depth items text hitems htext ih =>
      have hparts : List.Forall₂ (Reads (Json.value depth)) (items.map Prod.snd)
          (items.map Prod.fst) := by
        rw [List.forall₂_map_left_iff, List.forall₂_map_right_iff, List.forall₂_same]
        exact ih
      obtain ⟨tail, rfl, hread⟩ := htext.elements hparts
      refine ⟨⟨'[', tail, rfl, by decide, by decide, by decide⟩, fun before rest hbefore _ => ?_⟩
      rw [List.cons_append, Json.value, valueOver, skipSpace_append hbefore (by decide)]
      simp only [hread rest, bind, Except.bind]
  | @obj depth members entries text hmembers htext hascending hentries ih =>
      obtain ⟨parts, hparts, htext⟩ := htext
      obtain ⟨tail, rfl, hread⟩ := htext.members (steps_entries Keyed.insert hparts ih [])
      have hsame : (members.map fun member => (member.1, member.2.1)).foldl
          (fun entries member => Keyed.insert member.1 member.2 entries) [] = entries := by
        refine (Keyed.ascending_ofList _).eq_of_find? hascending fun name => ?_
        simp [hentries, Keyed.ofList]
      refine ⟨⟨'{', tail, rfl, by decide, by decide, by decide⟩, fun before rest hbefore _ => ?_⟩
      rw [List.cons_append, Json.value, valueOver, skipSpace_append hbefore (by decide)]
      simp only [hread rest, bind, Except.bind, hsame]

/-! ## Passing over values -/

theorem reads_skipOver {c : Char} {tail : List Char} (hc : c ∉ structural)
    (h : ∀ rest, Stops rest → skipScalar c (tail ++ rest) = .ok ((), rest)) (inner : Scan Unit) :
    Reads (skipOver inner) (c :: tail) () := by
  obtain ⟨hspace, hlist, hobject, hlist', hobject'⟩ := of_notMem_structural hc
  refine ⟨⟨c, tail, rfl, hspace, hlist', hobject'⟩, fun before rest hbefore hrest => ?_⟩
  rw [List.cons_append, skipOver, skipSpace_append hbefore hspace]
  split
  · rename_i heq
    exact absurd heq (List.cons_ne_nil _ _)
  · rename_i heq
    exact absurd (List.cons.inj heq).1 hlist
  · rename_i heq
    exact absurd (List.cons.inj heq).1 hobject
  · rename_i heq
    cases heq
    exact h rest hrest

theorem reads_skipWithin {c : Char} {tail : List Char} (hc : c ∉ structural)
    (h : ∀ rest, Stops rest → skipScalar c (tail ++ rest) = .ok ((), rest)) (depth : Nat) :
    Reads (skipWithin depth) (c :: tail) () := by
  cases depth with
  | zero => exact reads_skipOver hc h _
  | succ depth => exact reads_skipOver hc h _

theorem reads_skipWord {c : Char} {letters : List Char} (hc : c ∉ structural)
    (h : ∀ text, skipScalar c text = word () letters text) (depth : Nat) :
    Reads (skipWithin depth) (c :: letters) () :=
  reads_skipWithin hc (fun rest _ => by simp [h]) depth

/-- The members of an object are passed over one after the other. -/
theorem steps_skip {inner : Scan Unit} {members : List (List Char × List Char)}
    {parts : List (List Char)} (hparts : List.Forall₂ (IsMember Eq) members parts)
    (hnames : ∀ member ∈ members, IsLooselyQuoted member.1)
    (hvalues : ∀ member ∈ members, Reads inner member.2 ()) :
    Steps (oneMember (memberName false) (skipEntry inner)) () parts () := by
  induction hparts with
  | nil => exact .nil
  | @cons member part members parts hpart _ ih =>
      obtain ⟨hname, hnames⟩ := List.forall_mem_cons.mp hnames
      obtain ⟨hvalue, hvalues⟩ := List.forall_mem_cons.mp hvalues
      refine .cons (hpart.reads_loosely hname ?_) (ih hnames hvalues)
      intro key before after rest hbefore hafter hrest
      simp only [skipEntry, colon_append hbefore, bind, Except.bind,
        hvalue.read after rest hafter hrest]

/-- A text of the grammar is passed over if as many containers may open as it has characters. -/
theorem IsGrammatical.reads_within {text : List Char} (h : IsGrammatical text) {depth : Nat}
    (hdepth : text.length ≤ depth) : Reads (skipWithin depth) text () := by
  induction h generalizing depth with
  | null => exact reads_skipWord (by decide) (fun _ => rfl) depth
  | true => exact reads_skipWord (by decide) (fun _ => rfl) depth
  | false => exact reads_skipWord (by decide) (fun _ => rfl) depth
  | number h =>
      obtain ⟨c, tail, rfl, hc⟩ := h.starts
      refine reads_skipWithin (notMem_structural_of_startsNumeral hc) (fun rest hrest => ?_) depth
      have hnumeral := h.numeral .malformed hrest
      unfold skipScalar
      rw [if_pos hc]
      rw [List.cons_append] at hnumeral
      simp only [hnumeral, bind, Except.bind]
  | string h =>
      obtain ⟨tail, rfl, hbody⟩ := h.stringBody
      refine reads_skipWithin (by decide) (fun rest _ => ?_) depth
      obtain ⟨body, hbody⟩ := hbody rest
      have hscalar : skipScalar '"' (tail ++ rest) =
          stringBody Bool.false (tail ++ rest) >>= fun p => .ok ((), p.2) := rfl
      simp only [hscalar, hbody, bind, Except.bind]
  | @array items text hitems htext ih =>
      obtain ⟨depth, rfl⟩ := Nat.exists_eq_add_of_le' (Nat.le_trans htext.length_pos hdepth)
      have hparts : List.Forall₂ (Reads (skipWithin depth)) items (items.map fun _ => ()) := by
        rw [List.forall₂_map_right_iff, List.forall₂_same]
        intro item hitem
        have hlength := htext.length_lt item hitem
        exact ih item hitem (by omega)
      obtain ⟨tail, rfl, hread⟩ := htext.elements hparts
      refine ⟨⟨'[', tail, rfl, by decide, by decide, by decide⟩, fun before rest hbefore _ => ?_⟩
      rw [List.cons_append, skipWithin, skipOver, skipSpace_append hbefore (by decide)]
      simp only [hread rest, bind, Except.bind]
  | @object members text hnames hvalues htext ih =>
      obtain ⟨parts, hparts, htext⟩ := htext
      obtain ⟨depth, rfl⟩ := Nat.exists_eq_add_of_le' (Nat.le_trans htext.length_pos hdepth)
      have hshort : ∀ member ∈ members, Reads (skipWithin depth) member.2 () := by
        intro member hmember
        obtain ⟨part, hpart, hmember'⟩ := exists_part_of_mem hparts hmember
        have hlength := htext.length_lt part hpart
        have hvalue := hmember'.length_le
        exact ih member hmember (by omega)
      obtain ⟨tail, rfl, hread⟩ := htext.members (steps_skip hparts hnames hshort)
      refine ⟨⟨'{', tail, rfl, by decide, by decide, by decide⟩, fun before rest hbefore _ => ?_⟩
      rw [List.cons_append, skipWithin, skipOver, skipSpace_append hbefore (by decide)]
      exact hread rest

/-- Whatever is of no interest can be passed over. -/
theorem IsGrammatical.reads_skip {text : List Char} (h : IsGrammatical text) :
    Reads skip text () := by
  obtain ⟨hstarts, _⟩ := h.reads_within (Nat.le_refl _)
  refine ⟨hstarts, fun before rest hbefore hrest => ?_⟩
  have hdepth : text.length ≤ (before ++ (text ++ rest)).length := by
    simp only [List.length_append]
    omega
  exact (h.reads_within hdepth).read before rest hbefore hrest

end Json
end Workflow
