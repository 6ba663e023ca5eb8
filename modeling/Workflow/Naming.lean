/-!
# Names for new nodes

A new node keeps the name that is proposed for it if no other node has it.  Otherwise the digits at
its end give way to the least number from two upwards that makes the name free.  Each name that is
taken is struck off the list of taken names, which is why the search ends.
-/

namespace Workflow
namespace Naming

/-- A name without the digits at its end. -/
def stem (name : String) : String :=
  String.ofList (name.toList.reverse.dropWhile Char.isDigit).reverse

def numbered (stem : String) (number : Nat) : String :=
  stem ++ Nat.repr number

/-- The first of the names with numbers from `number` upwards that is not taken. -/
def firstFree (stem : String) (number : Nat) (taken : List String) : String :=
  if numbered stem number ∈ taken then
    firstFree stem (number + 1) (taken.erase (numbered stem number))
  else
    numbered stem number
termination_by taken.length
decreasing_by
  rename_i h
  have := List.length_pos_of_mem h
  rw [List.length_erase_of_mem h]
  omega

/-- A name that is not taken, as close to the proposed one as can be. -/
def autoName (taken : List String) (proposed : String) : String :=
  if proposed ∈ taken then firstFree (stem proposed) 2 taken else proposed

end Naming
end Workflow
