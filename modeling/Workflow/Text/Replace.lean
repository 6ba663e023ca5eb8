/-!
# Replacing a word

`replaceWord` puts some text in place of each occurrence of a word.  It looks from left to right and
goes on behind an occurrence, so that what it has put in is not replaced again.  The word is given by
its first character and the others, since there is no going on behind an empty one.
-/

namespace Workflow
namespace Text

section Replacing

variable (w : Char) (word new : List Char)

/-- The text with `new` in place of each occurrence of the word `w :: word`, while `skip` characters
of the occurrence before are still to be passed over. -/
def replaceBehind : (skip : Nat) → List Char → List Char
  | _, [] => []
  | skip + 1, _ :: rest => replaceBehind skip rest
  | 0, c :: rest =>
      if (w :: word).isPrefixOf (c :: rest) then
        new ++ replaceBehind word.length rest
      else
        c :: replaceBehind 0 rest

/-- The text with `new` in place of each occurrence of the word `w :: word`. -/
def replaceWord (text : List Char) : List Char :=
  replaceBehind w word new 0 text

/-- What is to be passed over has no say in what comes behind it. -/
@[simp] theorem replaceBehind_append (passed rest : List Char) :
    replaceBehind w word new passed.length (passed ++ rest) = replaceWord w word new rest := by
  induction passed with
  | nil => rfl
  | cons c passed ih => exact ih

/-- The word is replaced where it stands, and the search goes on behind it. -/
@[simp] theorem replaceWord_append (after : List Char) :
    replaceWord w word new (w :: word ++ after) = new ++ replaceWord w word new after := by
  have hstart : (w :: word).isPrefixOf (w :: (word ++ after)) = true :=
    List.isPrefixOf_iff_prefix.mpr ⟨after, rfl⟩
  simp [replaceWord, replaceBehind, hstart]

variable {w word}

/-- A character at which the word does not start is kept. -/
theorem replaceWord_cons {c : Char} {rest : List Char} (h : ¬(w :: word) <+: c :: rest) :
    replaceWord w word new (c :: rest) = c :: replaceWord w word new rest := by
  rw [replaceWord, replaceBehind, if_neg (mt List.isPrefixOf_iff_prefix.mp h), replaceWord]

/-- What does not hold the first character of the word is kept. -/
theorem replaceWord_append_of_notMem {before : List Char} (h : w ∉ before) (rest : List Char) :
    replaceWord w word new (before ++ rest) = before ++ replaceWord w word new rest := by
  induction before with
  | nil => rfl
  | cons c before ih =>
      obtain ⟨hc, hbefore⟩ := not_or.mp (mt List.mem_cons.mpr h)
      have hstart : ¬(w :: word) <+: c :: (before ++ rest) := fun hstart =>
        hc (List.cons_prefix_cons.mp hstart).1
      rw [List.cons_append, replaceWord_cons new hstart, ih hbefore, List.cons_append]

end Replacing

end Text
end Workflow
