import AttributeStore.Condition
import AttributeStore.Roster

/-!
# Selections

What a query or scan asks for: conditions on keys, conditions on what is read, and how to read.
For each attribute and role the first condition counts; one more is remembered as rejected, and
makes rendering fail.
-/

namespace AttributeStore

/-- What a query or scan asks for. -/
structure Selection where
  keyConditions : Roster Condition.name := ∅
  filterConditions : Roster Condition.name := ∅
  /-- Attributes and roles for which a condition came too late. -/
  rejected : List (String × Role) := []
  /-- The index to read, or the table itself. -/
  indexName : Option String := none
  /-- How many items are evaluated at most. -/
  limit : Option Int := none
  consistentRead : Option Bool := none
  descending : Bool := false
  /-- The key after which to begin. -/
  startKey : Option Item := none
  /-- The attributes to return; all when there are none. -/
  projection : List String := []
deriving DecidableEq

namespace Selection

def conditions (selection : Selection) : Role → Roster Condition.name
  | .key => selection.keyConditions
  | .filter => selection.filterConditions

def add (selection : Selection) (condition : Condition) : Selection :=
  if (selection.conditions condition.role).contains condition.name then
    { selection with rejected := selection.rejected ++ [(condition.name, condition.role)] }
  else match condition.role with
    | .key => { selection with keyConditions := selection.keyConditions.add condition }
    | .filter => { selection with filterConditions := selection.filterConditions.add condition }

def compare (selection : Selection) (role : Role) (name : String) (comparison : Comparison) :
    Selection :=
  selection.add { name, comparison, role }

end Selection

end AttributeStore
