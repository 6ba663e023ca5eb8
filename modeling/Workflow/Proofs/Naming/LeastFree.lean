import Mathlib.Data.Finset.Card
import Mathlib.Data.List.TakeWhile
import Mathlib.Order.Interval.Finset.Nat
import Workflow.Naming
import Workflow.Text.Digits

/-!
# Least free names

A proposed name that is taken gives way to its stem with a number behind it.  A name has one stem
(`isStem_iff`), and the number is the least from two upwards that makes the name free
(`exists_firstFree`).  As different numbers make different names (`numbered_inj`), no more numbers are
passed over than names are taken (`IsLeastFree.le_card`).

The search is also told as a loop that counts in 64 bits: an attempt is made turn after turn until its
name is free.  Each attempt has at most one next one, so all runs are parts of one run
(`Turns.eq_of_eq`, `Turns.le_of_free`).  With a taken name for each turn the run ends before the
counter does (`isChosen_autoName`).
-/

namespace Workflow
namespace Naming

/-- A name is a stem with digits behind it, and the stem does not end in a digit. -/
structure IsStem (name base : String) : Prop where
  digits : ∃ digits, name = base ++ digits ∧ ∀ c ∈ digits.toList, c.isDigit = true
  last : ∀ c, base.toList.getLast? = some c → c.isDigit = false

theorem isStem_stem (name : String) : IsStem name (stem name) := by
  refine ⟨⟨String.ofList (name.toList.reverse.takeWhile Char.isDigit).reverse, ?_, ?_⟩, ?_⟩
  · rw [stem, ← String.ofList_append, ← List.reverse_append, List.takeWhile_append_dropWhile,
      List.reverse_reverse, String.ofList_toList]
  · intro c hc
    rw [String.toList_ofList, List.mem_reverse] at hc
    exact List.mem_takeWhile_imp hc
  · intro c hc
    rw [stem, String.toList_ofList, List.getLast?_reverse] at hc
    have hnot := List.head?_dropWhile_not Char.isDigit name.toList.reverse
    rw [hc] at hnot
    exact hnot

/-- A name has one stem. -/
theorem isStem_iff {name base : String} : IsStem name base ↔ base = stem name := by
  constructor
  · rintro ⟨⟨digits, rfl, hdigits⟩, hlast⟩
    have hdrop : base.toList.reverse.dropWhile Char.isDigit = base.toList.reverse := by
      cases hbase : base.toList.reverse with
      | nil => rfl
      | cons c rest =>
          have hc : c.isDigit = false := by
            apply hlast
            rw [← List.head?_reverse, hbase, List.head?_cons]
          rw [List.dropWhile_cons, hc]
          rfl
    have hall : ∀ c ∈ digits.toList.reverse, c.isDigit = true :=
      fun c hc => hdigits c (List.mem_reverse.mp hc)
    rw [stem, String.toList_append, List.reverse_append, List.dropWhile_append_of_pos hall, hdrop,
      List.reverse_reverse, String.ofList_toList]
  · rintro rfl
    exact isStem_stem name

@[simp] theorem numbered_inj {base : String} {m n : Nat} :
    numbered base m = numbered base n ↔ m = n := by
  constructor
  · intro h
    have hlist : Nat.toDigits 10 m = Nat.toDigits 10 n := by
      simpa [numbered] using congrArg String.toList h
    simpa using congrArg Text.natOfDigits hlist
  · rintro rfl
    rfl

/-- Of the numbers from `least` upwards the first one that makes a free name. -/
structure IsLeastFree (taken : List String) (base : String) (least found : Nat) : Prop where
  le : least ≤ found
  free : numbered base found ∉ taken
  taken_of_lt : ∀ number, least ≤ number → number < found → numbered base number ∈ taken

theorem exists_firstFree (base : String) (least : Nat) (taken : List String) :
    ∃ found, IsLeastFree taken base least found ∧
      firstFree base least taken = numbered base found := by
  fun_induction firstFree base least taken with
  | case1 least taken htaken ih =>
      obtain ⟨found, hfound, hname⟩ := ih
      have hle : least + 1 ≤ found := hfound.le
      -- The name that is struck off is no later candidate.
      have hne : numbered base found ≠ numbered base least := by
        simp only [ne_eq, numbered_inj]
        omega
      refine ⟨found, ⟨by omega, ?_, fun number hnumber hlt => ?_⟩, hname⟩
      · rw [← List.mem_erase_of_ne hne]
        exact hfound.free
      · rcases Nat.eq_or_lt_of_le hnumber with rfl | hlater
        · exact htaken
        · exact List.mem_of_mem_erase (hfound.taken_of_lt number hlater hlt)
  | case2 least taken hfree =>
      exact ⟨least, ⟨Nat.le_refl least, hfree, fun number hle hlt => by omega⟩, rfl⟩

/-- Each number that is passed over stands for a taken name of its own. -/
theorem IsLeastFree.le_card {taken : List String} {base : String} {least found : Nat}
    (h : IsLeastFree taken base least found) : found ≤ least + taken.toFinset.card := by
  have hmaps : ∀ number ∈ Finset.Ico least found, numbered base number ∈ taken.toFinset := by
    intro number hnumber
    obtain ⟨hle, hlt⟩ := Finset.mem_Ico.mp hnumber
    exact List.mem_toFinset.mpr (h.taken_of_lt number hle hlt)
  have hinj : Set.InjOn (numbered base) (Finset.Ico least found) :=
    fun _ _ _ _ heq => numbered_inj.mp heq
  have hcard := Finset.card_le_card_of_injOn (numbered base) hmaps hinj
  rw [Nat.card_Ico] at hcard
  omega

/-- What a counter of 64 bits cannot reach. -/
def counterBound : Nat :=
  Nat.pow 2 64

/-- A name to try, and the number that has been counted to. -/
@[ext]
structure Attempt where
  counter : Nat
  name : String

/-- The name of an attempt is taken, so the next one puts the next number behind the stem. -/
structure Turn (taken : List String) (base : String) (attempt next : Attempt) : Prop where
  taken : attempt.name ∈ taken
  counted : next.counter = attempt.counter + 1
  inBound : next.counter < counterBound
  named : next.name = numbered base next.counter

/-- Some number of turns leads from one attempt to another. -/
inductive Turns (taken : List String) (base : String) (start : Attempt) : Nat → Attempt → Prop where
  | none : Turns taken base start 0 start
  | snoc {turns : Nat} {attempt next : Attempt} :
      Turns taken base start turns attempt → Turn taken base attempt next →
      Turns taken base start (turns + 1) next

section Turns

variable {taken : List String} {base : String} {start attempt next other : Attempt} {turns more : Nat}

theorem Turn.eq_of_eq (h : Turn taken base attempt next) (h' : Turn taken base attempt other) :
    next = other := by
  have hcounter : next.counter = other.counter := by rw [h.counted, h'.counted]
  have hname : next.name = other.name := by rw [h.named, h'.named, hcounter]
  exact Attempt.ext hcounter hname

/-- As many turns lead to the same attempt. -/
theorem Turns.eq_of_eq (h : Turns taken base start turns attempt)
    (h' : Turns taken base start turns other) : attempt = other := by
  induction h generalizing other with
  | none =>
      cases h'
      rfl
  | snoc _ hturn ih =>
      cases h' with
      | snoc hrun hturn' =>
          obtain rfl := ih hrun
          exact hturn.eq_of_eq hturn'

theorem Turns.counter_eq (h : Turns taken base start turns attempt) :
    attempt.counter = start.counter + turns := by
  induction h with
  | none => rfl
  | snoc _ hturn ih =>
      rw [hturn.counted, ih]
      rfl

/-- A longer run goes on from where a shorter one has got. -/
theorem Turns.taken_of_lt (h : Turns taken base start turns attempt)
    (h' : Turns taken base start more other) (hlt : turns < more) : attempt.name ∈ taken := by
  induction h' with
  | none => exact absurd hlt (Nat.not_lt_zero turns)
  | snoc hrun hturn ih =>
      rcases Nat.eq_or_lt_of_le (Nat.le_of_lt_succ hlt) with rfl | hlt
      · rw [h.eq_of_eq hrun]
        exact hturn.taken
      · exact ih hlt

/-- No run is longer than one that has come to a free name. -/
theorem Turns.le_of_free (h : Turns taken base start turns attempt) (hfree : attempt.name ∉ taken)
    (h' : Turns taken base start more other) : more ≤ turns :=
  Nat.le_of_not_lt fun hlt => hfree (h.taken_of_lt h' hlt)

/-- Names that are taken one after the other are passed over. -/
theorem turns_of_taken (hstart : start.name ∈ taken) (hbound : start.counter + turns + 1 < counterBound)
    (htaken : ∀ number, start.counter < number → number ≤ start.counter + turns →
      numbered base number ∈ taken) :
    Turns taken base start (turns + 1)
      ⟨start.counter + turns + 1, numbered base (start.counter + turns + 1)⟩ := by
  induction turns with
  | zero => exact Turns.none.snoc ⟨hstart, rfl, hbound, rfl⟩
  | succ turns ih =>
      have hrun := ih (by omega) fun number hlt hle => htaken number hlt (by omega)
      exact hrun.snoc ⟨htaken _ (by omega) (by omega), rfl, hbound, rfl⟩

end Turns

/-- The name that is found for a proposed one with a stem, and how the search for it goes: a proposed
name that is free is kept, and one that is taken gets the least number that frees it.  The loop comes
to the name within a turn for each taken name and one more, goes no further, and counts on without
leaving its 64 bits as long as the name it tries is taken. -/
structure IsChosen (taken : List String) (proposed base name : String) : Prop where
  free : name ∉ taken
  kept : proposed ∉ taken → name = proposed
  least : proposed ∈ taken →
    ∃ number, IsLeastFree taken base 2 number ∧ name = numbered base number ∧
      number ≤ taken.toFinset.card + 2
  ends : ∃ turns, Turns taken base ⟨1, proposed⟩ turns ⟨turns + 1, name⟩
  bounded : ∀ turns attempt, Turns taken base ⟨1, proposed⟩ turns attempt →
    turns ≤ taken.toFinset.card + 1
  counts : ∀ turns attempt, Turns taken base ⟨1, proposed⟩ turns attempt →
    attempt.name ∈ taken → attempt.counter + 1 < counterBound

variable {taken : List String} {proposed : String}

/-- A name that is taken gets the least number that frees it. -/
theorem autoName_of_mem (h : proposed ∈ taken) :
    ∃ number, IsLeastFree taken (stem proposed) 2 number ∧
      autoName taken proposed = numbered (stem proposed) number ∧
      number ≤ taken.toFinset.card + 2 := by
  obtain ⟨number, hleast, hname⟩ := exists_firstFree (stem proposed) 2 taken
  refine ⟨number, hleast, ?_, ?_⟩
  · rw [autoName, if_pos h, hname]
  · rw [Nat.add_comm]
    exact hleast.le_card

theorem autoName_of_notMem (h : proposed ∉ taken) : autoName taken proposed = proposed :=
  if_neg h

/-- The name that is found is free. -/
theorem autoName_notMem (taken : List String) (proposed : String) :
    autoName taken proposed ∉ taken := by
  by_cases h : proposed ∈ taken
  · obtain ⟨number, hleast, hname, -⟩ := autoName_of_mem h
    rw [hname]
    exact hleast.free
  · rw [autoName_of_notMem h]
    exact h

/-- The loop comes to the name that is found, within a turn for each taken name and one more. -/
theorem exists_turns_autoName (proposed : String)
    (hcard : taken.toFinset.card < counterBound - 2) :
    ∃ turns, turns ≤ taken.toFinset.card + 1 ∧
      Turns taken (stem proposed) ⟨1, proposed⟩ turns ⟨turns + 1, autoName taken proposed⟩ := by
  by_cases h : proposed ∈ taken
  · obtain ⟨number, hleast, hname, hle⟩ := autoName_of_mem h
    obtain ⟨turns, rfl⟩ := Nat.exists_eq_add_of_le hleast.le
    have hrun : Turns taken (stem proposed) ⟨1, proposed⟩ (turns + 1)
        ⟨1 + turns + 1, numbered (stem proposed) (1 + turns + 1)⟩ := by
      refine turns_of_taken h ?_ fun number hlt hnumber => ?_
      · show 1 + turns + 1 < counterBound
        omega
      · have hlt : 1 < number := hlt
        have hnumber : number ≤ 1 + turns := hnumber
        exact hleast.taken_of_lt number hlt (by omega)
    have hcounter : 1 + turns + 1 = 2 + turns := by omega
    have hturns : turns + 1 + 1 = 2 + turns := by omega
    rw [hcounter, ← hname] at hrun
    refine ⟨turns + 1, by omega, ?_⟩
    rw [hturns]
    exact hrun
  · refine ⟨0, Nat.zero_le _, ?_⟩
    rw [autoName_of_notMem h]
    exact Turns.none

theorem isChosen_autoName (hcard : taken.toFinset.card < counterBound - 2) :
    IsChosen taken proposed (stem proposed) (autoName taken proposed) := by
  obtain ⟨turns, hturns, hrun⟩ := exists_turns_autoName proposed hcard
  have hfree := autoName_notMem taken proposed
  refine ⟨hfree, autoName_of_notMem, autoName_of_mem, ⟨turns, hrun⟩, ?_, ?_⟩
  · intro more attempt h
    exact Nat.le_trans (hrun.le_of_free hfree h) hturns
  · intro more attempt h htaken
    have hle := hrun.le_of_free hfree h
    have hne : more ≠ turns := by
      rintro rfl
      rw [h.eq_of_eq hrun] at htaken
      exact hfree htaken
    have hcounter : attempt.counter = 1 + more := h.counter_eq
    omega

end Naming
end Workflow
