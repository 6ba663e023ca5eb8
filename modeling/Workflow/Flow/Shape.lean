import Workflow.Flow.Basic

/-!
# Shapes of parameters

How much a parameter offers depends on its kind and on its value.  A list of texts offers its
elements; a parameter with records offers the records that have a key (`Param.records?`); any other
parameter offers itself.
-/

namespace Workflow

/-- The key of a record, if it has one that is a text. -/
def recordKey? (record : Json.Value) : Option String :=
  (record.member? "key").bind Json.Value.str?

theorem recordKey?_eq_some_iff {record : Json.Value} {key : String} :
    recordKey? record = some key ↔ record.member? "key" = some (.str key) := by
  unfold recordKey?
  cases record.member? "key" with
  | none => simp
  | some value => cases value <;> simp [Json.Value.str?]

def recordLabel? (record : Json.Value) : Option String :=
  (record.member? "label").bind Json.Value.str?

namespace Param

/-- The elements of a parameter's value, if it is an array. -/
def items (param : Param) : List Json.Value :=
  param.value.arr?.getD []

/-- The records of a parameter, if it has records.  A form or the outputs of a program always have
them, and a plain variable has them as soon as its value is an array with an element. -/
def records? (param : Param) : Option (List Json.Value) :=
  match param.kind with
  | .form => some param.items
  | .codeOutput => some param.items
  | .var => if param.items.isEmpty then none else some param.items
  | _ => none

theorem items_of_value {param : Param} {items : List Json.Value} (h : param.value = .arr items) :
    param.items = items := by
  rw [Param.items, h]
  rfl

theorem value_of_mem_items {param : Param} {item : Json.Value} (h : item ∈ param.items) :
    param.value = .arr param.items := by
  unfold items at h ⊢
  cases hvalue : param.value with
  | arr items => rfl
  | _ => simp [hvalue, Json.Value.arr?] at h

end Param

/-- Whether an element of a list of texts can be referred to: it is a text and not empty. -/
def isListed (item : Json.Value) : Bool :=
  match item.str? with
  | some s => !s.isEmpty
  | none => false

theorem isListed_iff {item : Json.Value} :
    isListed item = true ↔ ∃ text, item = .str text ∧ text ≠ "" := by
  cases item <;> simp [isListed, Json.Value.str?]

end Workflow
