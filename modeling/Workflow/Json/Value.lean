import Workflow.Keyed

/-!
# JSON values

Numbers written as integers between `-2 ^ 63` and `2 ^ 64 - 1` are kept exactly, all others as
doubles.  The members of an object stand in ascending order of their names.
-/

namespace Workflow
namespace Json

inductive Value where
  | null
  | bool (b : Bool)
  | int (i : Int)
  | real (x : Float)
  | str (s : String)
  | arr (items : List Value)
  | obj (members : List (String × Value))
  deriving Inhabited

namespace Value

def str? : Value → Option String
  | str s => some s
  | _ => none

def arr? : Value → Option (List Value)
  | arr items => some items
  | _ => none

def member? (name : String) : Value → Option Value
  | obj members => Keyed.find? name members
  | _ => none

mutual

/-- Every string inside a value, depth first; the names of members are no part of it. -/
def texts : Value → List String
  | str s => [s]
  | arr items => textsOfItems items
  | obj members => textsOfMembers members
  | _ => []

def textsOfItems : List Value → List String
  | [] => []
  | item :: items => item.texts ++ textsOfItems items

def textsOfMembers : List (String × Value) → List String
  | [] => []
  | (_, value) :: members => value.texts ++ textsOfMembers members

end

/-- A property holds of every value if it holds of the values that are no containers, and of each
container that has it for what it contains. -/
@[elab_as_elim, induction_eliminator]
theorem induct {motive : Value → Prop} (null : motive null) (bool : ∀ b, motive (bool b))
    (int : ∀ i, motive (int i)) (real : ∀ x, motive (real x)) (str : ∀ s, motive (str s))
    (arr : ∀ items, (∀ item ∈ items, motive item) → motive (arr items))
    (obj : ∀ members, (∀ name value, (name, value) ∈ members → motive value) →
      motive (obj members))
    (value : Value) : motive value := by
  refine Value.rec (motive_1 := motive) (motive_2 := fun items => ∀ item ∈ items, motive item)
    (motive_3 := fun members => ∀ name value, (name, value) ∈ members → motive value)
    (motive_4 := fun member => motive member.2) null bool int real str arr obj ?_ ?_ ?_ ?_ ?_ value
  · exact fun item h => absurd h List.not_mem_nil
  · intro item items hitem hitems other hmem
    rcases List.mem_cons.mp hmem with rfl | hmem
    · exact hitem
    · exact hitems other hmem
  · exact fun name value h => absurd h List.not_mem_nil
  · intro member members hmember hmembers name value hmem
    rcases List.mem_cons.mp hmem with rfl | hmem
    · exact hmember
    · exact hmembers name value hmem
  · exact fun name value h => h

@[simp] theorem texts_arr (items : List Value) : (arr items).texts = items.flatMap texts := by
  show textsOfItems items = _
  induction items with
  | nil => rfl
  | cons item rest ih => rw [textsOfItems, ih, List.flatMap_cons]

@[simp] theorem texts_obj (members : List (String × Value)) :
    (obj members).texts = members.flatMap fun member => member.2.texts := by
  show textsOfMembers members = _
  induction members with
  | nil => rfl
  | cons member rest ih => rw [textsOfMembers, ih, List.flatMap_cons]

end Value
end Json
end Workflow
