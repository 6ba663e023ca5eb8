import Workflow.Proofs.Json.Scalars

/-!
# Reading containers

The loops over elements and members read the parts of a container one by one
(`Enclosed.elements`, `Enclosed.members`), if each part can be read where it stands.
-/

namespace Workflow

namespace Json

variable {α σ κ : Type}

/-! ## Lengths -/

theorem Joined.length_lt {closing : Char} {parts : List (List Char)} {text : List Char}
    (h : Joined closing parts text) : ∀ part ∈ parts, part.length < text.length := by
  induction h with
  | last hbefore hafter =>
      intro part hpart
      cases List.mem_singleton.mp hpart
      simp only [List.length_append, List.length_singleton]
      omega
  | more hbefore hafter h ih =>
      intro other hother
      simp only [List.length_append, List.length_cons]
      rcases List.mem_cons.mp hother with rfl | hother
      · omega
      · have := ih other hother
        omega

/-- A part of a container is shorter than the container, by its first and its last character. -/
theorem Enclosed.length_lt {opening closing : Char} {parts : List (List Char)} {text : List Char}
    (h : Enclosed opening closing parts text) : ∀ part ∈ parts, part.length + 1 < text.length := by
  cases h with
  | empty h => exact fun part hpart => absurd hpart List.not_mem_nil
  | parts h =>
      intro part hpart
      have := h.length_lt part hpart
      rw [List.length_cons]
      omega

theorem Enclosed.length_pos {opening closing : Char} {parts : List (List Char)} {text : List Char}
    (h : Enclosed opening closing parts text) : 0 < text.length := by
  cases h <;> exact Nat.succ_pos _

theorem IsMember.length_le {names : κ → List Char → Prop} {member : κ × List Char}
    {part : List Char} (h : IsMember names member part) : member.2.length ≤ part.length := by
  cases h
  simp only [List.length_append, List.length_cons]
  omega

theorem exists_part_of_mem {names : κ → List Char → Prop} {members : List (κ × List Char)}
    {parts : List (List Char)} (h : List.Forall₂ (IsMember names) members parts)
    {member : κ × List Char} (hmember : member ∈ members) :
    ∃ part ∈ parts, IsMember names member part := by
  induction h with
  | nil => exact absurd hmember List.not_mem_nil
  | cons hpart _ ih =>
      rcases List.mem_cons.mp hmember with rfl | hmember
      · exact ⟨_, List.mem_cons_self, hpart⟩
      · obtain ⟨part, hmem, hfound⟩ := ih hmember
        exact ⟨part, List.mem_cons_of_mem _ hmem, hfound⟩

/-! ## Loops -/

/-- Parts that are joined start, behind any space, with the first of them. -/
theorem Joined.skipSpace_append {closing : Char} {parts : List (List Char)} {text : List Char}
    (h : Joined closing parts text) (hparts : ∀ part ∈ parts, Starts part) :
    ∃ c tail, Joined closing parts (c :: tail) ∧ c ≠ ']' ∧ c ≠ '}' ∧
      ∀ rest, skipSpace (text ++ rest) = c :: (tail ++ rest) := by
  cases h with
  | @last before part after hbefore hafter =>
      obtain ⟨c, tail, rfl, hc, hlist, hobject⟩ := hparts part List.mem_cons_self
      refine ⟨c, _, @Joined.last _ [] _ _ isBlank_nil hafter, hlist, hobject, fun rest => ?_⟩
      rw [List.append_assoc, List.append_assoc, List.cons_append,
        Json.skipSpace_append hbefore hc]
      exact congrArg (List.cons c) (List.append_assoc _ _ _).symm
  | @more before part after text parts hbefore hafter h =>
      obtain ⟨c, tail, rfl, hc, hlist, hobject⟩ := hparts part List.mem_cons_self
      refine ⟨c, _, @Joined.more _ [] _ _ _ _ isBlank_nil hafter h, hlist, hobject, fun rest => ?_⟩
      rw [List.append_assoc, List.append_assoc, List.cons_append,
        Json.skipSpace_append hbefore hc]
      exact congrArg (List.cons c) (List.append_assoc _ _ _).symm

theorem Joined.length_le {closing : Char} {parts : List (List Char)} {text : List Char}
    (h : Joined closing parts text) : parts.length ≤ text.length := by
  induction h with
  | last hbefore hafter => simp; omega
  | more hbefore hafter h ih => simp; omega

theorem starts_of_reads {element : Scan α} {parts : List (List Char)} {items : List α}
    (h : List.Forall₂ (Reads element) parts items) : ∀ part ∈ parts, Starts part := by
  induction h with
  | nil => exact fun _ hpart => absurd hpart List.not_mem_nil
  | cons hread _ ih => exact List.forall_mem_cons.mpr ⟨hread.starts, ih⟩

theorem elementsFrom_joined {element : Scan α} {parts : List (List Char)} {text : List Char}
    (h : Joined ']' parts text) {items : List α}
    (hparts : List.Forall₂ (Reads element) parts items) {rounds : Nat}
    (hrounds : parts.length ≤ rounds) (rest : List Char) :
    elementsFrom element rounds (text ++ rest) = .ok (items, rest) := by
  induction h generalizing items rounds with
  | @last before part after hbefore hafter =>
      obtain ⟨item, rfl, hread⟩ : ∃ item, items = [item] ∧ Reads element part item := by
        cases hparts with
        | cons hread hnil => cases hnil; exact ⟨_, rfl, hread⟩
      obtain ⟨rounds, rfl⟩ := Nat.exists_eq_add_of_le' hrounds
      have hfirst :=
        hread.read before (after ++ ']' :: rest) hbefore (hafter.stops (by decide) rest)
      rw [List.length_singleton, elementsFrom]
      simp only [List.append_assoc, List.singleton_append, hfirst, bind, Except.bind,
        Json.skipSpace_append hafter (show isSpace ']' = false by decide)]
  | @more before part after text parts hbefore hafter h ih =>
      obtain ⟨item, others, rfl, hread, hothers⟩ : ∃ item others, items = item :: others ∧
          Reads element part item ∧ List.Forall₂ (Reads element) parts others := by
        cases hparts with
        | cons hread hothers => exact ⟨_, _, rfl, hread, hothers⟩
      obtain ⟨rounds, rfl⟩ := Nat.exists_eq_add_of_le' (Nat.le_trans (by simp) hrounds : 1 ≤ rounds)
      have hfirst := hread.read before (after ++ ',' :: (text ++ rest)) hbefore
        (hafter.stops (by decide) _)
      have hrest := ih hothers (Nat.le_of_succ_le_succ hrounds)
      rw [elementsFrom]
      simp only [List.append_assoc, List.cons_append, hfirst, bind, Except.bind,
        Json.skipSpace_append hafter (show isSpace ',' = false by decide), hrest]

/-- The elements of a list are read. -/
theorem Enclosed.elements {element : Scan α} {parts : List (List Char)} {text : List Char}
    (h : Enclosed '[' ']' parts text) {items : List α}
    (hparts : List.Forall₂ (Reads element) parts items) :
    ∃ tail, text = '[' :: tail ∧
      ∀ rest, Json.elements element (tail ++ rest) = .ok (items, rest) := by
  cases h with
  | empty hblank =>
      cases hparts
      refine ⟨_, rfl, fun rest => ?_⟩
      rw [List.append_assoc, List.singleton_append, Json.elements,
        skipSpace_append hblank (by decide)]
      rfl
  | parts h =>
      obtain ⟨c, tail, hjoined, hlist, _, hskip⟩ := h.skipSpace_append (starts_of_reads hparts)
      refine ⟨_, rfl, fun rest => ?_⟩
      have hrounds : parts.length ≤ (c :: (tail ++ rest)).length + 1 := by
        have := hjoined.length_le
        simp only [List.length_cons, List.length_append] at this ⊢
        omega
      rw [Json.elements, hskip]
      split
      · rename_i heq
        exact absurd (List.cons.inj heq).1 hlist
      · exact elementsFrom_joined hjoined hparts hrounds rest

/-- Reads one member of an object, with its name. -/
def oneMember (name : Scan κ) (member : κ → σ → Scan σ) (state : σ) : Scan σ := fun text => do
  let (key, text) ← name text
  member key state text

/-- One part after the other takes a state to the next. -/
inductive Steps (step : σ → Scan σ) : σ → List (List Char) → σ → Prop where
  | nil {state : σ} : Steps step state [] state
  | cons {state next last : σ} {part : List Char} {parts : List (List Char)}
      (h : Reads (step state) part next) (hrest : Steps step next parts last) :
      Steps step state (part :: parts) last

section Members

variable {name : Scan κ} {member : κ → σ → Scan σ}

theorem Steps.starts {step : σ → Scan σ} {state last : σ} {parts : List (List Char)}
    (h : Steps step state parts last) : ∀ part ∈ parts, Starts part := by
  induction h with
  | nil => exact fun _ hpart => absurd hpart List.not_mem_nil
  | cons hread _ ih => exact List.forall_mem_cons.mpr ⟨hread.starts, ih⟩

theorem membersFrom_succ (rounds : Nat) (state : σ) (text : List Char) :
    membersFrom name member (rounds + 1) state text =
      (do
        let (state, text) ← oneMember name member state text
        match skipSpace text with
        | '}' :: text => .ok (state, text)
        | ',' :: text => membersFrom name member rounds state text
        | [] => .error .cutOff
        | _ => .error .malformed) := by
  rw [membersFrom, oneMember]
  cases name text with
  | error e => rfl
  | ok read => rfl

theorem membersFrom_joined {parts : List (List Char)} {text : List Char} (h : Joined '}' parts text)
    {state last : σ} (hparts : Steps (oneMember name member) state parts last) {rounds : Nat}
    (hrounds : parts.length ≤ rounds) (rest : List Char) :
    membersFrom name member rounds state (text ++ rest) = .ok (last, rest) := by
  induction h generalizing state rounds with
  | @last before part after hbefore hafter =>
      have hread : Reads (oneMember name member state) part last := by
        cases hparts with
        | cons hread hnil => cases hnil; exact hread
      obtain ⟨rounds, rfl⟩ := Nat.exists_eq_add_of_le' hrounds
      have hfirst :=
        hread.read before (after ++ '}' :: rest) hbefore (hafter.stops (by decide) rest)
      rw [List.length_singleton, membersFrom_succ]
      simp only [List.append_assoc, List.singleton_append, hfirst, bind, Except.bind,
        Json.skipSpace_append hafter (show isSpace '}' = false by decide)]
  | @more before part after text parts hbefore hafter h ih =>
      obtain ⟨next, hread, hothers⟩ : ∃ next, Reads (oneMember name member state) part next ∧
          Steps (oneMember name member) next parts last := by
        cases hparts with
        | cons hread hothers => exact ⟨_, hread, hothers⟩
      obtain ⟨rounds, rfl⟩ := Nat.exists_eq_add_of_le' (Nat.le_trans (by simp) hrounds : 1 ≤ rounds)
      have hfirst := hread.read before (after ++ ',' :: (text ++ rest)) hbefore
        (hafter.stops (by decide) _)
      have hrest := ih hothers (Nat.le_of_succ_le_succ hrounds)
      rw [membersFrom_succ]
      simp only [List.append_assoc, List.cons_append, hfirst, bind, Except.bind,
        Json.skipSpace_append hafter (show isSpace ',' = false by decide), hrest]

/-- The members of an object are read. -/
theorem Enclosed.members {parts : List (List Char)} {text : List Char}
    (h : Enclosed '{' '}' parts text) {state last : σ}
    (hparts : Steps (oneMember name member) state parts last) :
    ∃ tail, text = '{' :: tail ∧
      ∀ rest, Json.members name member state (tail ++ rest) = .ok (last, rest) := by
  cases h with
  | empty hblank =>
      cases hparts
      refine ⟨_, rfl, fun rest => ?_⟩
      rw [List.append_assoc, List.singleton_append, Json.members,
        skipSpace_append hblank (by decide)]
      rfl
  | parts h =>
      obtain ⟨c, tail, hjoined, _, hobject, hskip⟩ := h.skipSpace_append hparts.starts
      refine ⟨_, rfl, fun rest => ?_⟩
      have hrounds : parts.length ≤ (c :: (tail ++ rest)).length + 1 := by
        have := hjoined.length_le
        simp only [List.length_cons, List.length_append] at this ⊢
        omega
      rw [Json.members, hskip]
      split
      · rename_i heq
        exact absurd (List.cons.inj heq).1 hobject
      · exact membersFrom_joined hjoined hparts hrounds rest

/-- A member is read if its name is, and then what stands behind it. -/
theorem reads_oneMember {P : κ → Prop} {quoted before after value : List Char}
    (hquoted : ∃ tail, quoted = '"' :: tail)
    (hname : ∀ blank rest, IsBlank blank →
      ∃ key, name (blank ++ (quoted ++ rest)) = .ok (key, rest) ∧ P key)
    {state next : σ}
    (hmember : ∀ key rest, P key → Stops rest →
      member key state (before ++ ':' :: (after ++ (value ++ rest))) = .ok (next, rest)) :
    Reads (oneMember name member state) (quoted ++ (before ++ ':' :: (after ++ value))) next := by
  obtain ⟨tail, rfl⟩ := hquoted
  refine ⟨⟨'"', _, rfl, by decide, by decide, by decide⟩, fun blank rest hblank hrest => ?_⟩
  obtain ⟨key, hkey, hP⟩ := hname blank (before ++ ':' :: (after ++ (value ++ rest))) hblank
  have hvalue := hmember key rest hP hrest
  simp only [List.append_assoc, List.cons_append] at hkey ⊢
  rw [oneMember, hkey]
  exact hvalue

end Members

theorem IsMember.reads {key : String} {value part : List Char}
    (h : IsMember IsQuoted (key, value) part) {member : List Char → σ → Scan σ} {state next : σ}
    (hmember : ∀ before after rest, IsBlank before → IsBlank after → Stops rest →
      member key.toList state (before ++ ':' :: (after ++ (value ++ rest))) = .ok (next, rest)) :
    Reads (oneMember (memberName true) member state) part next := by
  cases h with
  | @mk _ _ before after _ hname hbefore hafter =>
      obtain ⟨tail, htail, _⟩ := hname.stringBody
      refine reads_oneMember (P := fun read => read = key.toList) ⟨tail, htail⟩
        (fun blank rest hblank => ⟨_, hname.memberName hblank rest, rfl⟩) ?_
      rintro _ rest rfl hrest
      exact hmember before after rest hbefore hafter hrest

theorem IsMember.reads_loosely {quoted value part : List Char}
    (h : IsMember Eq (quoted, value) part) (hquoted : IsLooselyQuoted quoted)
    {member : List Char → σ → Scan σ} {state next : σ}
    (hmember : ∀ key before after rest, IsBlank before → IsBlank after → Stops rest →
      member key state (before ++ ':' :: (after ++ (value ++ rest))) = .ok (next, rest)) :
    Reads (oneMember (memberName false) member state) part next := by
  cases h with
  | @mk _ _ before after _ hsame hbefore hafter =>
      subst hsame
      obtain ⟨tail, htail, _⟩ := hquoted.stringBody
      refine reads_oneMember (P := fun _ => True) ⟨tail, htail⟩ ?_
        fun key rest _ hrest => hmember key before after rest hbefore hafter hrest
      intro blank rest hblank
      obtain ⟨key, hkey⟩ := hquoted.memberName hblank rest
      exact ⟨key, hkey, trivial⟩

theorem entry_append {item : Scan α} {add : String → α → σ → σ} {value : List Char} {a : α}
    (h : Reads item value a) (key : String) (state : σ) {before after rest : List Char}
    (hbefore : IsBlank before) (hafter : IsBlank after) (hrest : Stops rest) :
    entry item add key.toList state (before ++ ':' :: (after ++ (value ++ rest))) =
      .ok (add key a state, rest) := by
  simp only [entry, colon_append hbefore, bind, Except.bind, h.read after rest hafter hrest,
    String.ofList_toList]

/-- The members of an object with values of one kind are added one after the other. -/
theorem steps_entries {item : Scan α} (add : String → α → σ → σ)
    {members : List (String × α × List Char)} {parts : List (List Char)}
    (hparts : List.Forall₂ (IsMember IsQuoted)
      (members.map fun member => (member.1, member.2.2)) parts)
    (hitems : ∀ member ∈ members, Reads item member.2.2 member.2.1) (state : σ) :
    Steps (oneMember (memberName true) (entry item add)) state parts
      ((members.map fun member => (member.1, member.2.1)).foldl
        (fun state member => add member.1 member.2 state) state) := by
  induction members generalizing parts state with
  | nil =>
      cases hparts
      exact .nil
  | cons member members ih =>
      obtain ⟨key, a, value⟩ := member
      cases hparts with
      | cons hpart hparts =>
          have hitem := hitems _ List.mem_cons_self
          refine .cons (hpart.reads ?_)
            (ih hparts (fun other hother => hitems other (List.mem_cons_of_mem _ hother)) _)
          exact fun before after rest hbefore hafter hrest =>
            entry_append hitem key state hbefore hafter hrest

end Json
end Workflow
