import Mathlib.Data.List.TakeWhile
import Workflow.Json.Record
import Workflow.Proofs.Json.Values

/-!
# Reading records

The members of a record may come in any order, among others.  Each changes the record in its own way
(`Member.Makes`); as these changes commute, what is read is the record that all of them make
(`reads_record`).
-/

namespace Workflow
namespace Json

variable {α β ρ : Type}

/-! ## Readers -/

theorem reads_string {s : String} {text : List Char} (h : IsQuoted s text) (depth : Nat) :
    Reads (Reader.string depth) text s := by
  obtain ⟨tail, rfl, hbody⟩ := h.stringBody
  refine ⟨⟨'"', tail, rfl, by decide, by decide, by decide⟩, fun before rest hbefore _ => ?_⟩
  rw [List.cons_append, Reader.string, skipSpace_append hbefore (by decide)]
  simp only [string, hbody rest, bind, Except.bind, String.ofList_toList]

theorem reads_map {item : Reader α} {depth : Nat} {text : List Char} {a : α}
    (h : Reads (item depth) text a) (f : α → β) : Reads (item.map f depth) text (f a) := by
  refine ⟨h.starts, fun before rest hbefore hrest => ?_⟩
  simp only [Reader.map, h.read before rest hbefore hrest, bind, Except.bind]

theorem reads_list {item : Reader α} {depth : Nat} {items : List α} {text : List Char}
    (h : IsList (fun a text => Reads (item depth) text a) items text) :
    Reads (Reader.list item (depth + 1)) text items := by
  obtain ⟨parts, hparts, htext⟩ := h
  obtain ⟨tail, rfl, hread⟩ := htext.elements hparts.flip
  refine ⟨⟨'[', tail, rfl, by decide, by decide, by decide⟩, fun before rest hbefore _ => ?_⟩
  rw [List.cons_append, Reader.list, skipSpace_append hbefore (by decide)]
  exact hread rest

/-- A value that may be absent is read, if its text does not start as that for an absent one. -/
theorem reads_optional {item : Reader α} {depth : Nat} {a? : Option α} {text : List Char}
    (h : IsOptional (fun a text => Reads (item depth) text a ∧ text.head? ≠ some 'n') a? text) :
    Reads (Reader.optional item depth) text a? := by
  cases h with
  | none =>
      refine ⟨⟨'n', _, rfl, by decide, by decide, by decide⟩, fun before rest hbefore _ => ?_⟩
      have hskip : skipSpace (before ++ ("null".toList ++ rest)) =
          'n' :: (['u', 'l', 'l'] ++ rest) :=
        skipSpace_append hbefore (by decide) _
      rw [Reader.optional, hskip]
      exact word_append none ['u', 'l', 'l'] rest
  | some h =>
      obtain ⟨hread, hhead⟩ := h
      refine ⟨hread.starts, fun before rest hbefore hrest => ?_⟩
      obtain ⟨c, tail, rfl, hspace, _⟩ := hread.starts
      have hitem := hread.read [] rest isBlank_nil hrest
      rw [List.nil_append, List.cons_append] at hitem
      rw [Reader.optional, List.cons_append, skipSpace_append hbefore hspace]
      split
      · rename_i heq
        exact absurd heq (List.cons_ne_nil _ _)
      · rename_i heq
        cases (List.cons.inj heq).1
        exact absurd rfl hhead
      · simp only [hitem, bind, Except.bind]

theorem reads_table {σ : Type} {item : Reader α} (add : String → α → σ → σ) {depth : Nat}
    {members : List (String × α × List Char)} {text : List Char}
    (htext : IsObject IsQuoted (members.map fun member => (member.1, member.2.2)) text)
    (hitems : ∀ member ∈ members, Reads (item depth) member.2.2 member.2.1) (start : σ) :
    Reads (Reader.table item add start (depth + 1)) text
      ((members.map fun member => (member.1, member.2.1)).foldl
        (fun state member => add member.1 member.2 state) start) := by
  obtain ⟨parts, hparts, htext⟩ := htext
  obtain ⟨tail, rfl, hread⟩ := htext.members (steps_entries add hparts hitems start)
  refine ⟨⟨'{', tail, rfl, by decide, by decide, by decide⟩, fun before rest hbefore _ => ?_⟩
  rw [List.cons_append, Reader.table, skipSpace_append hbefore (by decide)]
  exact hread rest

/-- A whole text is read, with white space around it. -/
theorem read_eq_ok {reader : Reader α} {a : α} {text : String} {before body after : List Char}
    (htext : text.toList = before ++ (body ++ after)) (hbefore : IsBlank before)
    (hafter : IsBlank after) (h : Reads (reader maxDepth) body a) : read reader text = .ok a := by
  have hstops : Stops after := by
    cases after with
    | nil => exact fun _ hc => nomatch hc
    | cons c after =>
        exact stops_cons (List.mem_append_left [',', ']', '}', ':'] (hafter c List.mem_cons_self)) _
  have hempty : skipSpace after = [] :=
    List.dropWhile_eq_nil_iff.mpr fun c hc => isSpace_iff.mpr (hafter c hc)
  simp only [read, htext, h.read before after hbefore hstops, bind, Except.bind, hempty]
  rfl

/-! ## Members -/

namespace Member

/-- The names under which a member may be written. -/
def names (member : Member ρ) : List String :=
  member.name :: member.spelling?.toList

@[simp] theorem isNamed_iff {member : Member ρ} {name : String} :
    member.isNamed name = true ↔ name ∈ member.names := by
  simp only [isNamed, names, Bool.or_eq_true, decide_eq_true_eq, List.mem_cons,
    Option.mem_toList, eq_comm (a := some name)]

/-- What a member changes of a record: its value as it is written, or nothing if it is left out. -/
def Makes (depth : Nat) (members : List (String × List Char)) (start : ρ) (member : Member ρ)
    (change : ρ → ρ) : Prop :=
  Has members member.names (fun text => Reads (member.reader depth) text change) ∨
    valuesOf member.names members = [] ∧ member.required = false ∧ change start = start

variable {depth : Nat} {members : List (String × List Char)} {start : ρ} {item : Reader α}
  {set : α → ρ → ρ} {a : α} {name : String}

theorem makes_needed (h : Has members [name] fun text => Reads (item depth) text a) :
    (needed name item set).Makes depth members start (set a) := by
  obtain ⟨text, htext, hread⟩ := h
  exact Or.inl ⟨text, htext, reads_map hread set⟩

theorem makes_defaulted
    (h : MayHave members [name] (fun text => Reads (item depth) text a) (set a start = start)) :
    (defaulted name item set).Makes depth members start (set a) := by
  rcases h with ⟨text, htext, hread⟩ | ⟨hnone, hstart⟩
  · exact Or.inl ⟨text, htext, reads_map hread set⟩
  · exact Or.inr ⟨hnone, rfl, hstart⟩

theorem makes_orSpelled {spelling : String}
    (h : MayHave members [name, spelling] (fun text => Reads (item depth) text a)
      (set a start = start)) :
    ((defaulted name item set).orSpelled spelling).Makes depth members start (set a) := by
  rcases h with ⟨text, htext, hread⟩ | ⟨hnone, hstart⟩
  · exact Or.inl ⟨text, htext, reads_map hread set⟩
  · exact Or.inr ⟨hnone, rfl, hstart⟩

end Member

/-! ## Records -/

section Records

/-- All names that members may have. -/
def namesOf (changes : List (Member ρ × (ρ → ρ))) : List String :=
  changes.flatMap fun p => p.1.names

/-- Changes that may be made in any order. -/
def Commute (changes : List (Member ρ × (ρ → ρ))) : Prop :=
  ∀ p ∈ changes, ∀ q ∈ changes, ∀ record, p.2 (q.2 record) = q.2 (p.2 record)

/-- All changes, in the order in which they are declared. -/
def makeAll (changes : List (Member ρ × (ρ → ρ))) (record : ρ) : ρ :=
  changes.foldl (fun record p => p.2 record) record

/-- The change of the member that has a name. -/
def changeNamed? (changes : List (Member ρ × (ρ → ρ))) (name : String) :
    Option (Member ρ × (ρ → ρ)) :=
  changes.find? fun p => p.1.isNamed name

variable {changes : List (Member ρ × (ρ → ρ))} {depth : Nat} {start : ρ}
  {members : List (String × List Char)}

/-- No two members have a name in common. -/
theorem eq_of_isNamed (hdistinct : (namesOf changes).Nodup)
    {p q : Member ρ × (ρ → ρ)} (hp : p ∈ changes) (hq : q ∈ changes) {name : String}
    (hpname : p.1.isNamed name = true) (hqname : q.1.isNamed name = true) : p = q := by
  rw [Member.isNamed_iff] at hpname hqname
  induction changes with
  | nil => exact absurd hp List.not_mem_nil
  | cons c changes ih =>
      rw [namesOf, List.flatMap_cons, List.nodup_append] at hdistinct
      obtain ⟨_, hdistinct, hapart⟩ := hdistinct
      rcases List.mem_cons.mp hp with rfl | hp' <;> rcases List.mem_cons.mp hq with rfl | hq'
      · rfl
      · exact absurd rfl (hapart name hpname name (List.mem_flatMap_of_mem hq' hqname))
      · exact absurd rfl (hapart name hqname name (List.mem_flatMap_of_mem hp' hpname))
      · exact ih hdistinct hp' hq'

theorem changeNamed?_eq_some_iff (hdistinct : (namesOf changes).Nodup)
    {p : Member ρ × (ρ → ρ)} {name : String} :
    changeNamed? changes name = some p ↔ p ∈ changes ∧ p.1.isNamed name = true := by
  constructor
  · exact fun h => ⟨List.mem_of_find?_eq_some h, by simpa using List.find?_some h⟩
  · rintro ⟨hp, hname⟩
    cases hfound : changeNamed? changes name with
    | none =>
        have hno := List.find?_eq_none.mp hfound p hp
        exact absurd hname (by simpa using hno)
    | some q =>
        have hq := List.mem_of_find?_eq_some hfound
        have hqname := List.find?_some hfound
        rw [eq_of_isNamed hdistinct hq hp (by simpa using hqname) hname]

/-- What changes nothing at first changes nothing later. -/
theorem makeAll_filter (hcommute : Commute changes) (test : Member ρ × (ρ → ρ) → Bool)
    (hidle : ∀ p ∈ changes, test p = false → p.2 start = start) :
    makeAll (changes.filter test) start = makeAll changes start := by
  induction changes generalizing start with
  | nil => rfl
  | cons p changes ih =>
      have hcommute' : Commute changes := fun q hq r hr =>
        hcommute q (List.mem_cons_of_mem p hq) r (List.mem_cons_of_mem p hr)
      have hkept : ∀ q ∈ changes, test q = false → q.2 (p.2 start) = p.2 start := by
        intro q hq htest
        rw [hcommute q (List.mem_cons_of_mem p hq) p List.mem_cons_self,
          hidle q (List.mem_cons_of_mem p hq) htest]
      cases htest : test p with
      | true =>
          rw [List.filter_cons_of_pos htest]
          exact ih hcommute' hkept
      | false =>
          have hidle' := hidle p List.mem_cons_self htest
          rw [hidle'] at hkept
          rw [List.filter_cons_of_neg (by simp [htest]), ih hcommute' hkept]
          show _ = makeAll changes (p.2 start)
          rw [hidle']

/-- The changes that some members of an object make, in their order. -/
def changesOf (changes : List (Member ρ × (ρ → ρ))) (members : List (String × List Char)) :
    List (Member ρ × (ρ → ρ)) :=
  members.filterMap fun member => changeNamed? changes member.1

@[simp] theorem changesOf_cons (member : String × List Char) (members : List (String × List Char)) :
    changesOf changes (member :: members) =
      (changeNamed? changes member.1).toList ++ changesOf changes members := by
  rw [changesOf, List.filterMap_cons]
  cases changeNamed? changes member.1 <;> rfl

@[simp] theorem valuesOf_cons (names : List String) (member : String × List Char)
    (members : List (String × List Char)) :
    valuesOf names (member :: members) =
      if member.1 ∈ names then member.2 :: valuesOf names members else valuesOf names members := by
  by_cases h : member.1 ∈ names <;> simp [valuesOf, h]

theorem mem_valuesOf {names : List String} {value : List Char} :
    value ∈ valuesOf names members ↔ ∃ name ∈ names, (name, value) ∈ members := by
  simp [valuesOf, and_comm]

/-- No member of a record is written twice. -/
def AtMostOnce (changes : List (Member ρ × (ρ → ρ))) (members : List (String × List Char)) : Prop :=
  ∀ p ∈ changes, (valuesOf p.1.names members).length ≤ 1

theorem AtMostOnce.tail {member : String × List Char} (h : AtMostOnce changes (member :: members)) :
    AtMostOnce changes members := by
  intro p hp
  have hlength := h p hp
  by_cases hname : member.1 ∈ p.1.names
  · have hnone : valuesOf p.1.names members = [] := by simpa [hname] using hlength
    simp [hnone]
  · simpa [hname] using hlength

/-- What is written first is not written again. -/
theorem AtMostOnce.valuesOf_eq_nil {member : String × List Char}
    (h : AtMostOnce changes (member :: members)) {p : Member ρ × (ρ → ρ)} (hp : p ∈ changes)
    (hname : p.1.isNamed member.1 = true) : valuesOf p.1.names members = [] := by
  have hlength := h p hp
  rw [Member.isNamed_iff] at hname
  simpa [hname] using hlength

theorem mem_changesOf_iff (hdistinct : (namesOf changes).Nodup)
    {p : Member ρ × (ρ → ρ)} :
    p ∈ changesOf changes members ↔ p ∈ changes ∧ valuesOf p.1.names members ≠ [] := by
  rw [changesOf, List.mem_filterMap]
  simp only [changeNamed?_eq_some_iff hdistinct, Member.isNamed_iff]
  constructor
  · rintro ⟨⟨name, value⟩, hmember, hp, hname⟩
    exact ⟨hp, List.ne_nil_of_mem (mem_valuesOf.mpr ⟨name, hname, hmember⟩)⟩
  · rintro ⟨hp, hvalues⟩
    obtain ⟨value, hvalue⟩ := List.exists_mem_of_ne_nil _ hvalues
    obtain ⟨name, hname, hmember⟩ := mem_valuesOf.mp hvalue
    exact ⟨_, hmember, hp, hname⟩

theorem nodup_changesOf (hdistinct : (namesOf changes).Nodup)
    (honce : AtMostOnce changes members) : (changesOf changes members).Nodup := by
  induction members with
  | nil => exact List.nodup_nil
  | cons member members ih =>
      have htail := ih honce.tail
      cases hfound : changeNamed? changes member.1 with
      | none => simpa [hfound] using htail
      | some p =>
          obtain ⟨hp, hname⟩ := (changeNamed?_eq_some_iff hdistinct).mp hfound
          have hnew : p ∉ changesOf changes members := fun hmem =>
            ((mem_changesOf_iff hdistinct).mp hmem).2 (honce.valuesOf_eq_nil hp hname)
          simp [hfound, hnew, htail]

theorem nodup_of_distinct (hdistinct : (namesOf changes).Nodup) :
    changes.Nodup := by
  induction changes with
  | nil => exact List.nodup_nil
  | cons p changes ih =>
      rw [namesOf, List.flatMap_cons, List.nodup_append] at hdistinct
      obtain ⟨_, hdistinct, hapart⟩ := hdistinct
      refine List.nodup_cons.mpr ⟨fun hmem => ?_, ih hdistinct⟩
      have hname : p.1.name ∈ p.1.names := List.mem_cons_self
      exact hapart _ hname _ (List.mem_flatMap_of_mem hmem hname) rfl

/-- In whatever order members are written, they make the same record. -/
theorem makeAll_changesOf (hdistinct : (namesOf changes).Nodup)
    (hcommute : Commute changes) (honce : AtMostOnce changes members)
    (hidle : ∀ p ∈ changes, valuesOf p.1.names members = [] → p.2 start = start) :
    makeAll (changesOf changes members) start = makeAll changes start := by
  let isWritten (p : Member ρ × (ρ → ρ)) : Bool := decide (valuesOf p.1.names members ≠ [])
  have hperm : (changesOf changes members).Perm (changes.filter isWritten) := by
    refine (List.perm_ext_iff_of_nodup (nodup_changesOf hdistinct honce)
      ((nodup_of_distinct hdistinct).filter _)).mpr fun p => ?_
    rw [mem_changesOf_iff hdistinct, List.mem_filter, decide_eq_true_eq]
  have hleftOut : ∀ p ∈ changes, isWritten p = false → p.2 start = start :=
    fun p hp htest => hidle p hp (by simpa [isWritten] using htest)
  rw [← makeAll_filter hcommute isWritten hleftOut]
  refine List.Perm.foldl_eq' hperm (fun p hp q hq record => ?_) start
  exact hcommute q ((mem_changesOf_iff hdistinct).mp hq).1 p
    ((mem_changesOf_iff hdistinct).mp hp).1 record

/-- The draft of a record after some members. -/
def draftAfter (changes : List (Member ρ × (ρ → ρ))) (members : List (String × List Char))
    (draft : Record.Draft ρ) : Record.Draft ρ :=
  { record := makeAll (changesOf changes members) draft.record
    given := ((changesOf changes members).map fun p => p.1.name).reverse ++ draft.given }

theorem find?_isNamed (name : String) :
    (changes.map Prod.fst).find? (Member.isNamed name) =
      (changeNamed? changes name).map Prod.fst := by
  rw [List.find?_map]
  rfl

theorem reads_otherMember {member : String × List Char} {part : List Char}
    (hfound : changeNamed? changes member.1 = none) (hvalue : IsGrammatical member.2)
    (hpart : IsMember IsQuoted member part) (draft : Record.Draft ρ) :
    Reads (oneMember (memberName true) (Record.readMember (changes.map Prod.fst) depth) draft) part
      draft := by
  refine hpart.reads fun before after rest hbefore hafter hrest => ?_
  simp only [Record.readMember, String.ofList_toList, find?_isNamed, hfound, Option.map_none,
    colon_append hbefore, bind, Except.bind, hvalue.reads_skip.read after rest hafter hrest]

theorem reads_knownMember {member : String × List Char} {part : List Char}
    {p : Member ρ × (ρ → ρ)} (hfound : changeNamed? changes member.1 = some p)
    (hvalue : Reads (p.1.reader depth) member.2 p.2) (hpart : IsMember IsQuoted member part)
    {draft : Record.Draft ρ} (hnew : p.1.name ∉ draft.given) :
    Reads (oneMember (memberName true) (Record.readMember (changes.map Prod.fst) depth) draft) part
      ⟨p.2 draft.record, p.1.name :: draft.given⟩ := by
  refine hpart.reads fun before after rest hbefore hafter hrest => ?_
  simp only [Record.readMember, String.ofList_toList, find?_isNamed, hfound, Option.map_some,
    if_neg hnew, colon_append hbefore, bind, Except.bind, hvalue.read after rest hafter hrest]

/-- Member by member, a record is drafted from what is written. -/
theorem steps_readMember (hdistinct : (namesOf changes).Nodup)
    (honce : AtMostOnce changes members)
    (hread : ∀ member ∈ members, ∀ p ∈ changes, p.1.isNamed member.1 = true →
      Reads (p.1.reader depth) member.2 p.2)
    (hothers : ∀ member ∈ members, changeNamed? changes member.1 = none → IsGrammatical member.2)
    {parts : List (List Char)} (hparts : List.Forall₂ (IsMember IsQuoted) members parts)
    {draft : Record.Draft ρ}
    (hgiven : ∀ p ∈ changes, p.1.name ∈ draft.given → valuesOf p.1.names members = []) :
    Steps (oneMember (memberName true) (Record.readMember (changes.map Prod.fst) depth)) draft parts
      (draftAfter changes members draft) := by
  induction hparts generalizing draft with
  | nil => exact .nil
  | @cons member part members parts hpart _ ih =>
      obtain ⟨hfirst, hread⟩ := List.forall_mem_cons.mp hread
      obtain ⟨hother, hothers⟩ := List.forall_mem_cons.mp hothers
      have hleft : ∀ p ∈ changes, p.1.name ∈ draft.given → valuesOf p.1.names members = [] := by
        intro p hp hname
        have hnone := hgiven p hp hname
        by_cases hfirst : member.1 ∈ p.1.names
        · simp [hfirst] at hnone
        · simpa [hfirst] using hnone
      cases hfound : changeNamed? changes member.1 with
      | none =>
          have hdraft : draftAfter changes (member :: members) draft =
              draftAfter changes members draft := by
            simp [draftAfter, hfound]
          rw [hdraft]
          exact .cons (reads_otherMember hfound (hother hfound) hpart draft)
            (ih honce.tail hread hothers hleft)
      | some p =>
          obtain ⟨hp, hname⟩ := (changeNamed?_eq_some_iff hdistinct).mp hfound
          have hdraft : draftAfter changes (member :: members) draft =
              draftAfter changes members ⟨p.2 draft.record, p.1.name :: draft.given⟩ := by
            simp [draftAfter, makeAll, hfound]
          have hnew : p.1.name ∉ draft.given := by
            intro hmem
            have hnone := hgiven p hp hmem
            simp [Member.isNamed_iff.mp hname] at hnone
          rw [hdraft]
          refine .cons (reads_knownMember hfound (hfirst p hp hname) hpart hnew)
            (ih honce.tail hread hothers fun q hq hmem => ?_)
          rcases List.mem_cons.mp hmem with hsame | hmem
          · have heq : q = p := eq_of_isNamed hdistinct hq hp
              (Member.isNamed_iff.mpr List.mem_cons_self)
              (Member.isNamed_iff.mpr (hsame ▸ List.mem_cons_self))
            exact heq ▸ honce.valuesOf_eq_nil hp hname
          · exact hleft q hq hmem

theorem Member.Makes.length_le {member : Member ρ} {change : ρ → ρ}
    (h : member.Makes depth members start change) : (valuesOf member.names members).length ≤ 1 := by
  rcases h with ⟨text, htext, _⟩ | ⟨hnone, _⟩
  · rw [htext]
    exact Nat.le_refl 1
  · rw [hnone]
    exact Nat.zero_le 1

/-- Nothing is missing from a record with its required members. -/
theorem finish_draftAfter (hdistinct : (namesOf changes).Nodup)
    (hmakes : ∀ p ∈ changes, p.1.Makes depth members start p.2) :
    Record.finish (changes.map Prod.fst) (draftAfter changes members ⟨start, []⟩) =
      .ok (makeAll (changesOf changes members) start) := by
  have hnone : (changes.map Prod.fst).find? (fun member =>
      member.required &&
        !(draftAfter changes members ⟨start, []⟩).given.contains member.name) = none := by
    rw [List.find?_eq_none]
    intro member hmember
    obtain ⟨p, hp, rfl⟩ := List.mem_map.mp hmember
    rcases hmakes p hp with ⟨text, htext, _⟩ | ⟨_, hrequired, _⟩
    · have hwritten : p ∈ changesOf changes members :=
        (mem_changesOf_iff hdistinct).mpr ⟨hp, by simp [htext]⟩
      have hgiven : p.1.name ∈ (draftAfter changes members ⟨start, []⟩).given := by
        rw [draftAfter, List.append_nil, List.mem_reverse]
        exact List.mem_map_of_mem hwritten
      simp [hgiven]
    · simp [hrequired]
  rw [Record.finish, hnone]
  rfl

/-- A record is read as what its members make of it, each with its change. -/
theorem reads_recordOf (hdistinct : (namesOf changes).Nodup)
    (hcommute : Commute changes)
    (hmakes : ∀ p ∈ changes, p.1.Makes depth members start p.2) {text : List Char}
    (h : IsRecord (namesOf changes) members text) :
    Reads (Reader.record start (changes.map Prod.fst) (depth + 1)) text
      (makeAll changes start) := by
  obtain ⟨⟨parts, hparts, htext⟩, hothers⟩ := h
  have honce : AtMostOnce changes members := fun p hp => (hmakes p hp).length_le
  have hread : ∀ member ∈ members, ∀ p ∈ changes, p.1.isNamed member.1 = true →
      Reads (p.1.reader depth) member.2 p.2 := by
    intro member hmember p hp hname
    have hmem : member.2 ∈ valuesOf p.1.names members :=
      mem_valuesOf.mpr ⟨member.1, Member.isNamed_iff.mp hname, hmember⟩
    rcases hmakes p hp with ⟨text, htext, hread⟩ | ⟨hnone, _⟩
    · rw [htext] at hmem
      rwa [List.mem_singleton.mp hmem]
    · rw [hnone] at hmem
      exact absurd hmem List.not_mem_nil
  have hidle : ∀ p ∈ changes, valuesOf p.1.names members = [] → p.2 start = start := by
    intro p hp hnone
    rcases hmakes p hp with ⟨text, htext, _⟩ | ⟨_, _, hstart⟩
    · rw [hnone] at htext
      cases htext
    · exact hstart
  have hskipped : ∀ member ∈ members, changeNamed? changes member.1 = none →
      IsGrammatical member.2 := by
    intro member hmember hnone
    refine hothers member hmember fun hname => ?_
    obtain ⟨p, hp, hname⟩ := List.mem_flatMap.mp hname
    exact List.find?_eq_none.mp hnone p hp (Member.isNamed_iff.mpr hname)
  have hsteps := @steps_readMember _ _ _ _ hdistinct honce hread hskipped _ hparts ⟨start, []⟩
    fun _ _ hmem => absurd hmem List.not_mem_nil
  obtain ⟨tail, rfl, hobject⟩ := htext.members hsteps
  refine ⟨⟨'{', tail, rfl, by decide, by decide, by decide⟩, fun before rest hbefore _ => ?_⟩
  rw [List.cons_append, Reader.record, skipSpace_append hbefore (by decide)]
  simp only [Record.ofObject, hobject rest, bind, Except.bind, finish_draftAfter hdistinct hmakes,
    makeAll_changesOf hdistinct hcommute honce hidle]

end Records

/-- A record is read as what its members make of it. -/
theorem reads_record {declared : List (Member ρ)} {changes : List (ρ → ρ)} {depth : Nat}
    {start target : ρ} {members : List (String × List Char)} {text : List Char}
    (h : IsRecord (declared.flatMap Member.names) members text)
    (hmakes : List.Forall₂ (Member.Makes depth members start) declared changes)
    (htarget : changes.foldl (fun record change => change record) start = target)
    (hdistinct : (declared.flatMap Member.names).Nodup)
    (hcommute : ∀ change ∈ changes, ∀ other ∈ changes, ∀ record,
      change (other record) = other (change record)) :
    Reads (Reader.record start declared (depth + 1)) text target := by
  obtain ⟨pairs, rfl, rfl, hpairs⟩ : ∃ pairs : List (Member ρ × (ρ → ρ)),
      pairs.map Prod.fst = declared ∧ pairs.map Prod.snd = changes ∧
        ∀ p ∈ pairs, p.1.Makes depth members start p.2 := by
    clear hdistinct hcommute h htarget
    induction hmakes with
    | nil => exact ⟨[], rfl, rfl, fun _ hp => absurd hp List.not_mem_nil⟩
    | cons hmake _ ih =>
        obtain ⟨pairs, rfl, rfl, hpairs⟩ := ih
        exact ⟨(_, _) :: pairs, rfl, rfl, List.forall_mem_cons.mpr ⟨hmake, hpairs⟩⟩
  rw [List.flatMap_map] at hdistinct h
  rw [← htarget, List.foldl_map]
  refine reads_recordOf hdistinct (fun p hp q hq record => ?_) hpairs h
  exact hcommute p.2 (List.mem_map_of_mem hp) q.2 (List.mem_map_of_mem hq) record

end Json
end Workflow
