import Workflow.Proofs.Template.Places
import Workflow.Proofs.Token.Split
import Workflow.Reference

/-!
# Taking tokens apart

The outcomes of taking a token apart are told by a grammar (`Reference.IsParsed`), which says of every
token which reference it is or what it lacks first.  The token of a reference is taken apart into that
reference just if its parts keep clear of the delimiters (`Reference.IsWellFormed`).  Taking apart and
putting together again changes a token only where zeros lead its index
(`Reference.parse_eq_iff_isParsed`).
-/

namespace Workflow

@[simp] theorem Template.any_not_isPlain_iff {text : List Char} :
    (text.any fun c => !isPlain c) = true ↔ '{' ∈ text ∨ '}' ∈ text := by
  simp [isPlain, and_or_left, exists_or]

namespace Reference

/-! ## The grammar of tokens -/

/-- What taking a token apart comes to.  An index is split off at the end, a producer at the first
point of what remains, and the first thing that is wrong is the outcome. -/
inductive IsParsed (token : String) : Except TokenError Reference → Prop
  | empty (h : token = "") : IsParsed token (.error .empty)
  | nestedDelimiter (hne : token ≠ "") (h : '{' ∈ token.toList ∨ '}' ∈ token.toList) :
      IsParsed token (.error (.nestedDelimiter token))
  | missingProducer {base : String} {index? : Option Nat} (htoken : Template.IsToken token.toList)
      (hsplit : Token.IsSplit token base index?) (h : base = "" ∨ ∃ rest, base = "." ++ rest) :
      IsParsed token (.error (.missingProducer token))
  | missingField {base : String} {index? : Option Nat} (htoken : Template.IsToken token.toList)
      (hsplit : Token.IsSplit token base index?) (hne : base ≠ "")
      (h : '.' ∉ base.toList ∨
        ∃ producer, producer ≠ "" ∧ '.' ∉ producer.toList ∧ base = producer ++ ".") :
      IsParsed token (.error (.missingField token))
  | reference {producer field : String} {index? : Option Nat}
      (htoken : Template.IsToken token.toList)
      (hsplit : Token.IsSplit token (Token.path producer field) index?) (hproducer : producer ≠ "")
      (hpoint : '.' ∉ producer.toList) (hfield : field ≠ "") :
      IsParsed token (.ok { producer, field, index? })

section Stages

variable {token base : String} {index? : Option Nat} (htoken : Template.IsToken token.toList)
  (hsplit : Token.IsSplit token base index?)

include htoken hsplit

/-- A token without a point before its index lacks a producer or a field. -/
theorem parse_of_notMem (hpoint : '.' ∉ base.toList) :
    parse token =
      .error (if base.isEmpty then .missingProducer token else .missingField token) := by
  have hne : token ≠ "" := by simpa using htoken.1
  have hplain : ¬(token.toList.any fun c => !Template.isPlain c) = true := by
    simpa using htoken.2
  rw [parse, if_neg (by simpa using hne), if_neg hplain, Token.splitIndex_eq_iff.mpr hsplit]
  simp only [Text.cutFirst_eq_none hpoint]

/-- A token with a point is a reference unless nothing stands on one side of the first point. -/
theorem parse_of_path {producer field : String} (hpoint : '.' ∉ producer.toList)
    (hbase : base = Token.path producer field) :
    parse token =
      if producer = "" then .error (.missingProducer token)
      else if field = "" then .error (.missingField token)
      else .ok { producer, field, index? } := by
  have hne : token ≠ "" := by simpa using htoken.1
  have hplain : ¬(token.toList.any fun c => !Template.isPlain c) = true := by
    simpa using htoken.2
  have hcut : Text.cutFirst '.' base.toList = some (producer.toList, field.toList) := by
    rw [hbase, ← Text.cutFirst_append field.toList hpoint]
    simp [Token.path]
  rw [parse, if_neg (by simpa using hne), if_neg hplain, Token.splitIndex_eq_iff.mpr hsplit]
  simp only [hcut, List.isEmpty_iff, String.toList_eq_nil_iff, String.ofList_toList]

end Stages

theorem isParsed_parse (token : String) : IsParsed token (parse token) := by
  by_cases hempty : token = ""
  · subst hempty
    exact .empty rfl
  · by_cases hplain : ∀ c ∈ token.toList, Template.isPlain c = true
    · have htoken : Template.IsToken token.toList := ⟨by simpa using hempty, hplain⟩
      have hsplit := Token.splitIndex_eq_iff.mp (Prod.eta (Token.splitIndex token)).symm
      by_cases hpoint : '.' ∈ (Token.splitIndex token).1.toList
      · obtain ⟨before, after, hcut, hbefore⟩ := List.eq_append_cons_of_mem hpoint
        have hproducer : '.' ∉ (String.ofList before).toList := by simpa using hbefore
        have hbase : (Token.splitIndex token).1 =
            Token.path (String.ofList before) (String.ofList after) := by
          apply String.toList_inj.mp
          simp [Token.path, hcut]
        rw [parse_of_path htoken hsplit hproducer hbase]
        split
        · rename_i hnone
          refine .missingProducer htoken hsplit (Or.inr ⟨String.ofList after, ?_⟩)
          rw [hbase, hnone, Token.path, String.empty_append]
        · rename_i hsome
          split
          · rename_i hnone
            have hne : (Token.splitIndex token).1 ≠ "" := by
              intro h
              simp [h] at hpoint
            refine .missingField htoken hsplit hne (Or.inr ⟨_, hsome, hproducer, ?_⟩)
            rw [hbase, hnone, Token.path, String.append_empty]
          · rename_i hfield
            exact .reference htoken (hbase ▸ hsplit) hsome hproducer hfield
      · rw [parse_of_notMem htoken hsplit hpoint]
        split
        · rename_i hnone
          exact .missingProducer htoken hsplit (Or.inl (by simpa using hnone))
        · rename_i hsome
          exact .missingField htoken hsplit (by simpa using hsome) (Or.inl hpoint)
    · have hbraces : token.toList.any (fun c => !Template.isPlain c) = true := by
        simpa using hplain
      rw [parse, if_neg (by simpa using hempty), if_pos hbraces]
      exact .nestedDelimiter hempty (Template.any_not_isPlain_iff.mp hbraces)

theorem IsParsed.parse_eq {token : String} {outcome : Except TokenError Reference}
    (h : IsParsed token outcome) : parse token = outcome := by
  cases h with
  | empty h => rw [h]; rfl
  | nestedDelimiter hne h =>
      rw [parse, if_neg (by simpa using hne), if_pos (Template.any_not_isPlain_iff.mpr h)]
  | missingProducer htoken hsplit h =>
      rcases h with rfl | ⟨rest, rfl⟩
      · rw [parse_of_notMem htoken hsplit (by simp)]
        rfl
      · have hbase : "." ++ rest = Token.path "" rest := by rw [Token.path, String.empty_append]
        rw [parse_of_path htoken hsplit List.not_mem_nil hbase]
        rfl
  | missingField htoken hsplit hne h =>
      rcases h with hpoint | ⟨producer, hproducer, hpoint, rfl⟩
      · rw [parse_of_notMem htoken hsplit hpoint, if_neg (by simpa using hne)]
      · have hbase : producer ++ "." = Token.path producer "" := by
          rw [Token.path, String.append_empty]
        rw [parse_of_path htoken hsplit hpoint hbase, if_neg hproducer]
        rfl
  | reference htoken hsplit hproducer hpoint hfield =>
      rw [parse_of_path htoken hsplit hpoint rfl, if_neg hproducer, if_neg hfield]

theorem parse_eq_iff {token : String} {outcome : Except TokenError Reference} :
    parse token = outcome ↔ IsParsed token outcome :=
  ⟨fun h => h ▸ isParsed_parse token, IsParsed.parse_eq⟩

theorem toList_path (r : Reference) :
    r.path.toList = r.producer.toList ++ '.' :: r.field.toList := by
  simp [path, Token.path]

theorem parse_eq_ok_iff {token : String} {r : Reference} :
    parse token = .ok r ↔
      (∀ c ∈ token.toList, Template.isPlain c = true) ∧ '.' ∉ r.producer.toList ∧
        r.producer ≠ "" ∧ r.field ≠ "" ∧ Token.splitIndex token = (r.path, r.index?) := by
  rw [parse_eq_iff]
  constructor
  · intro h
    cases h with
    | reference htoken hsplit hproducer hpoint hfield =>
        exact ⟨htoken.2, hpoint, hproducer, hfield, Token.splitIndex_eq_iff.mpr hsplit⟩
  · rintro ⟨hplain, hpoint, hproducer, hfield, hsplit⟩
    have hne : token.toList ≠ [] := by
      intro h
      obtain rfl := String.toList_eq_nil_iff.mp h
      have hempty : Token.splitIndex "" = ("", none) := by decide
      rw [hempty, Prod.mk.injEq] at hsplit
      have hlist := congrArg String.toList hsplit.1
      rw [toList_path] at hlist
      simp at hlist
    exact .reference ⟨hne, hplain⟩ (Token.splitIndex_eq_iff.mp hsplit) hproducer hpoint hfield

/-- A token of a node can be taken apart into the node and one of its fields just if it has no
brace, the id has no point, and neither the id nor the field is empty. -/
theorem parse_path_iff {id field : String} :
    (∃ r, parse (Token.path id field) = .ok r ∧ r.producer = id) ↔
      (∀ c ∈ (Token.path id field).toList, Template.isPlain c = true) ∧
        '.' ∉ id.toList ∧ id ≠ "" ∧ (Token.splitIndex field).1 ≠ "" := by
  simp only [parse_eq_ok_iff, Token.splitIndex_path, Prod.mk.injEq]
  constructor
  · rintro ⟨r, ⟨hplain, hpoint, hproducer, hfield, hpath, _⟩, rfl⟩
    have hsame : (Token.splitIndex field).1 = r.field := by
      simpa [path, Token.path] using hpath
    exact ⟨hplain, hpoint, hproducer, hsame ▸ hfield⟩
  · rintro ⟨hplain, hpoint, hid, hfield⟩
    exact ⟨⟨id, (Token.splitIndex field).1, (Token.splitIndex field).2⟩,
      ⟨hplain, hpoint, hid, hfield, rfl, rfl⟩, rfl⟩

/-! ## Tokens of references -/

/-- The parts of a reference keep clear of the delimiters that its token puts between them. -/
structure IsWellFormed (r : Reference) : Prop where
  producer_ne : r.producer ≠ ""
  producer_plain : ∀ c ∈ r.producer.toList, c ≠ '.' ∧ c ≠ '{' ∧ c ≠ '}'
  field_ne : r.field ≠ ""
  field_plain : ∀ c ∈ r.field.toList, c ≠ '{' ∧ c ≠ '}'
  index_lt : ∀ index, r.index? = some index → index < Token.indexBound
  /-- Without an index, the end of the field must not be taken for one. -/
  field_index : r.index? = none → ¬Token.HasIndex r.field

theorem token_of_none {r : Reference} (h : r.index? = none) : r.token = r.path := by
  rw [token, h]

theorem token_of_some {r : Reference} {index : Nat} (h : r.index? = some index) :
    r.token = Token.element r.path index := by
  rw [token, h]

/-- The index in a token is written in digits, so that a brace can only come from the other parts. -/
theorem isPlain_token_iff {r : Reference} :
    (∀ c ∈ r.token.toList, Template.isPlain c = true) ↔
      (∀ c ∈ r.producer.toList, Template.isPlain c = true) ∧
        ∀ c ∈ r.field.toList, Template.isPlain c = true := by
  have hpath : (∀ c ∈ r.path.toList, Template.isPlain c = true) ↔
      (∀ c ∈ r.producer.toList, Template.isPlain c = true) ∧
        ∀ c ∈ r.field.toList, Template.isPlain c = true := by
    rw [toList_path, List.forall_mem_append, List.forall_mem_cons]
    simp [Template.isPlain]
  cases hindex : r.index? with
  | none => rw [token_of_none hindex, hpath]
  | some index =>
      have hdigits : ∀ c ∈ (Nat.repr index).toList, Template.isPlain c = true := by
        intro c hc
        rw [Nat.toList_repr] at hc
        have hdigit := Nat.isDigit_of_mem_toDigits (by decide) (by decide) hc
        have hplain : c ≠ '{' ∧ c ≠ '}' :=
          ⟨fun h => absurd (h ▸ hdigit) (by decide), fun h => absurd (h ▸ hdigit) (by decide)⟩
        simp [Template.isPlain, hplain]
      have hlist : r.token.toList = r.path.toList ++ '#' :: (Nat.repr index).toList := by
        simp [token_of_some hindex, Token.element]
      rw [hlist, List.forall_mem_append, List.forall_mem_cons, hpath]
      exact and_iff_left ⟨by decide, hdigits⟩

/-- The token of a reference is split into its path and its index. -/
theorem splitIndex_token_iff {r : Reference} :
    Token.splitIndex r.token = (r.path, r.index?) ↔
      (∀ index, r.index? = some index → index < Token.indexBound) ∧
        (r.index? = none → ¬Token.HasIndex r.field) := by
  cases hindex : r.index? with
  | none =>
      rw [token_of_none hindex, Token.splitIndex_eq_none_iff]
      simp only [reduceCtorEq, false_implies, implies_true, true_and, true_implies]
      exact not_congr ⟨Token.hasIndex_of_path, Token.hasIndex_path r.producer⟩
  | some index =>
      rw [token_of_some hindex]
      simp only [Option.some.injEq, forall_eq', reduceCtorEq, false_implies, and_true]
      constructor
      · intro h
        obtain ⟨digits, _, hdigits⟩ := Token.splitIndex_eq_some_iff.mp h
        exact hdigits.2.2.2
      · exact Token.splitIndex_element r.path

/-- Taking its token apart gives a reference again just if it is well formed. -/
@[simp] theorem parse_token_iff {r : Reference} : parse r.token = .ok r ↔ r.IsWellFormed := by
  rw [parse_eq_ok_iff, isPlain_token_iff, splitIndex_token_iff]
  constructor
  · rintro ⟨⟨hproducer, hfield⟩, hpoint, hne, hne', hbound, hindex⟩
    refine ⟨hne, fun c hc => ⟨fun h => hpoint (h ▸ hc), ?_⟩, hne', fun c hc => ?_, hbound, hindex⟩
    · simpa [Template.isPlain] using hproducer c hc
    · simpa [Template.isPlain] using hfield c hc
  · intro h
    have hproducer : ∀ c ∈ r.producer.toList, Template.isPlain c = true := fun c hc => by
      simpa [Template.isPlain] using (h.producer_plain c hc).2
    have hfield : ∀ c ∈ r.field.toList, Template.isPlain c = true := fun c hc => by
      simpa [Template.isPlain] using h.field_plain c hc
    have hpoint : '.' ∉ r.producer.toList := fun hmem => (h.producer_plain _ hmem).1 rfl
    exact ⟨⟨hproducer, hfield⟩, hpoint, h.producer_ne, h.field_ne, h.index_lt, h.field_index⟩

/-- A reference that a token was taken apart into is well formed. -/
theorem isWellFormed_of_parse {token : String} {r : Reference} (h : parse token = .ok r) :
    r.IsWellFormed := by
  obtain ⟨hplain, hpoint, hproducer, hfield, hsplit⟩ := parse_eq_ok_iff.mp h
  have hmem : ∀ c ∈ r.path.toList, c ∈ token.toList := by
    rcases Token.splitIndex_eq_iff.mp hsplit with ⟨digits, _, _, rfl, _⟩ | ⟨_, hpath, _⟩
    · simp +contextual
    · exact hpath ▸ fun _ => id
  have hplain' : ∀ c ∈ r.path.toList, c ≠ '{' ∧ c ≠ '}' := fun c hc => by
    simpa [Template.isPlain] using hplain c (hmem c hc)
  rw [toList_path, List.forall_mem_append, List.forall_mem_cons] at hplain'
  obtain ⟨hproducer', _, hfield'⟩ := hplain'
  refine ⟨hproducer, fun c hc => ⟨fun hc' => hpoint (hc' ▸ hc), hproducer' c hc⟩, hfield, hfield',
    fun index hindex => ?_, fun hindex => ?_⟩
  · rw [hindex] at hsplit
    obtain ⟨_, _, hdigits⟩ := Token.splitIndex_eq_some_iff.mp hsplit
    exact hdigits.2.2.2
  · rw [hindex] at hsplit
    exact fun hfield => (Token.splitIndex_eq_none_iff.mp hsplit).2
      ((Token.splitIndex_eq_none_iff.mp hsplit).1 ▸ Token.hasIndex_path r.producer hfield)

/-- The producer of a token is that of its reference. -/
theorem producer_of_parse {token : String} {r : Reference} (h : parse token = .ok r) :
    Token.producer token = r.producer := by
  obtain ⟨_, hpoint, _, _, hsplit⟩ := parse_eq_ok_iff.mp h
  rcases Token.splitIndex_eq_iff.mp hsplit with ⟨digits, _, _, rfl, _⟩ | ⟨_, hpath, _⟩
  · have hpath : r.path ++ "#" ++ digits = Token.path r.producer (r.field ++ "#" ++ digits) := by
      simp [path, Token.path, String.append_assoc]
    rw [hpath, Token.producer_path hpoint]
  · rw [← hpath]
    exact Token.producer_path hpoint r.field

/-- A token that was taken apart is put together again but for zeros that lead its index. -/
theorem token_eq_iff_of_parse {token : String} {r : Reference} (h : parse token = .ok r) :
    r.token = token ↔ ∀ base digits index, token = base ++ "#" ++ digits →
      Token.IsIndex digits index → ¬Token.HasLeadingZero digits := by
  obtain ⟨_, _, _, _, hsplit⟩ := parse_eq_ok_iff.mp h
  rcases Token.splitIndex_eq_iff.mp hsplit with
    ⟨digits, index, hindex, htoken, hdigits⟩ | ⟨hindex, hpath, hno⟩
  · have hsame : r.token = token ↔ ¬Token.HasLeadingZero digits := by
      rw [token_of_some hindex, htoken, Token.element, String.append_right_inj, hdigits.repr_eq_iff]
    rw [hsame]
    constructor
    · intro hzero base digits' index' htoken' hdigits'
      rw [Token.splitIndex_eq_some_iff.mpr ⟨digits', htoken', hdigits'⟩] at hsplit
      obtain rfl : base = r.path := (Prod.mk.inj hsplit).1
      obtain rfl : digits = digits' := (String.append_right_inj _).mp (htoken.symm.trans htoken')
      exact hzero
    · exact fun hall => hall r.path digits index htoken hdigits
  · refine iff_of_true (by rw [token_of_none hindex, hpath]) ?_
    exact fun base digits index htoken hdigits => absurd ⟨base, digits, index, htoken, hdigits⟩ hno

/-- **Taking apart and putting together.**  A token comes to what the grammar says.  Putting a
reference together and taking it apart gives it again just if it is well formed.  So what a token was
taken apart into is given again by its own token, which can stand in a marker; it has the producer of
the token; and it gives the token again unless zeros lead the index. -/
theorem parse_eq_iff_isParsed :
    (∀ token outcome, parse token = outcome ↔ IsParsed token outcome) ∧
    (∀ r : Reference, parse r.token = .ok r ↔ r.IsWellFormed) ∧
    ∀ (token : String) (r : Reference), parse token = .ok r →
      parse r.token = .ok r ∧ r.producer = Token.producer token ∧
        Template.tokens r.marker = [r.token] ∧
        (r.token = token ↔ ∀ base digits index, token = base ++ "#" ++ digits →
          Token.IsIndex digits index → ¬Token.HasLeadingZero digits) := by
  refine ⟨fun _ _ => parse_eq_iff, fun _ => parse_token_iff, fun token r h => ?_⟩
  have hagain := parse_token_iff.mpr (isWellFormed_of_parse h)
  refine ⟨hagain, (producer_of_parse h).symm, ?_, token_eq_iff_of_parse h⟩
  cases parse_eq_iff.mp hagain with
  | reference htoken => exact Template.tokens_wrap htoken

/-- Zeros lead the index of a token, and the field ends in a number sign and digits. -/
theorem parse_eq_iff_isParsed_leading_zero :
    let token := "start.a.b#1#007"
    let r : Reference := { producer := "start", field := "a.b#1", index? := some 7 }
    parse token = .ok r ∧ parse "start.a.b#1#7" = .ok r ∧ r.producer = Token.producer token ∧
      Template.tokens r.marker = ["start.a.b#1#7"] ∧ r.token ≠ token := by
  intro token r
  have hplain : ∀ c ∈ token.toList, Template.isPlain c = true := List.all_eq_true.mp (by decide)
  have h : parse token = .ok r :=
    parse_eq_ok_iff.mpr ⟨hplain, by decide, by decide, by decide, by decide⟩
  have htoken : r.token = "start.a.b#1#7" := by decide
  obtain ⟨hagain, hproducer, htokens, hsame⟩ := parse_eq_iff_isParsed.2.2 token r h
  rw [htoken] at hagain htokens
  refine ⟨h, hagain, hproducer, htokens, fun heq => ?_⟩
  have hdigits : Token.IsIndex "007" 7 := Token.index?_eq_some_iff.mp (by decide)
  exact hsame.mp heq "start.a.b#1" "007" 7 (by decide) hdigits ⟨"07", by decide, by decide⟩

end Reference
end Workflow
