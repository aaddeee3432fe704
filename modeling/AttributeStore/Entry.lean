import AttributeStore.Fragment
import AttributeStore.Program
import AttributeStore.Schema.Key

/-!
# Staged writes

An entry is an item to write together with what is expected of the item that it replaces. Checks
that need no store come first: the names of the expectations and the key of the item.
-/

namespace AttributeStore

/-- What is expected of an attribute before a write. -/
inductive Precondition
  | present
  | absent
  | equals (value : Value)
deriving DecidableEq

def Precondition.fragment (name : String) (precondition : Precondition) :
    Except CodecError Fragment := do
  let placeholder := "#e_" ++ name
  let names := Named.singleton placeholder name
  match precondition with
  | .present => return ⟨"attribute_exists(" ++ placeholder ++ ")", names, ∅⟩
  | .absent => return ⟨"attribute_not_exists(" ++ placeholder ++ ")", names, ∅⟩
  | .equals value =>
    let encoded ← value.encode
    let operand := ":e_" ++ name
    return ⟨placeholder ++ " = " ++ operand, names, Named.singleton operand encoded⟩

/-- Expectations in the order in which they were stated, one for each attribute. -/
abbrev Expectations := Roster (Prod.fst : String × Precondition → String)

/-- A staged write. -/
structure Entry where
  item : WireItem
  expected : Expectations := ∅
deriving DecidableEq

namespace Entry

/-- Refuses an entry whose expectations cannot be written or whose item has no proper key. -/
def validate (schema : TableSchema) (entry : Entry) : Except ValidationError Unit := do
  entry.expected.names.forM checkAttributeName
  let _ ← schema.keyOf entry.item
  return

/-- All expectations joined by AND. -/
def condition (entry : Entry) : Except CodecError Fragment := do
  let fragments ← entry.expected.members.mapM fun (name, precondition) =>
    precondition.fragment name
  return Fragment.joinAll " AND " fragments

def putRequest (entry : Entry) (table : String) : Except CodecError Wire.PutItem := do
  let condition ← entry.condition
  return {
    tableName := some table
    item := some entry.item
    conditionExpression := condition.text?
    names := condition.names.present
    values := condition.values.present }

end Entry

def deleteRequest (key : WireItem) (table : String) : Wire.DeleteItem :=
  { tableName := some table, key := some key }

end AttributeStore
