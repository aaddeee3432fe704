import AttributeStore.Schema
import AttributeStore.Selection

/-!
# Rendered selections

A selection as the expressions and placeholders of a request. A query keeps its key conditions
apart and needs one; a scan takes them as one more filter, with the filter in parentheses where
an OR of it would otherwise reach too far.
-/

namespace AttributeStore

inductive ReadKind
  | query
  | scan
deriving DecidableEq, Repr

/-- The expressions and placeholders of a read; what is empty is absent. -/
structure Rendering where
  keyCondition : Option String := none
  filter : Option String := none
  projection : Option String := none
  names : Option (Named String) := none
  values : Option (Named Attribute) := none
deriving DecidableEq

/-- The conditions of one role as an expression, each joined to those before it as it says. -/
def conditionsFragment (attributes : Catalog) (conditions : List Condition) :
    Except CodecError Fragment :=
  conditions.foldlM (fun before condition => do
    let declared := (attributes.get? condition.name).map (·.wireType)
    return before.join condition.connective.text (← condition.fragment declared))
    Fragment.empty

namespace Selection

/-- Refuses a selection in which a condition came too late, a key condition is joined by OR, or
a name cannot be part of a placeholder. -/
def check (selection : Selection) : Except ValidationError Unit := do
  if let (name, role) :: _ := selection.rejected then
    throw (.duplicateCondition name role.name)
  if let some condition := selection.keyConditions.members.find? (·.connective = .or) then
    throw (.orInKeyCondition condition.name)
  (selection.keyConditions.names ++ selection.filterConditions.names ++
    selection.projection).forM checkAttributeName

/-- Whether the filter holds an OR outside of parentheses. -/
def filterHasOr (selection : Selection) : Bool :=
  (selection.filterConditions.members.drop 1).any (·.connective = .or)

/-- The key conditions and the filter of a scan as one filter. -/
def scanFilter (selection : Selection) (key filter : Fragment) : Fragment :=
  key.join Connective.and.text
    (if selection.filterHasOr && !key.isEmpty then filter.parenthesize else filter)

def assemble (selection : Selection) (key filter : Fragment) : Rendering :=
  let projection := Fragment.projection selection.projection
  { keyCondition := key.text?
    filter := filter.text?
    projection := projection.text?
    names := ((key.names.union filter.names).union projection.names).present
    values := ((key.values.union filter.values).union projection.values).present }

def render (selection : Selection) (kind : ReadKind) (attributes : Catalog) :
    Except Error Rendering := do
  selection.check.mapError Error.validation
  let key ←
    (conditionsFragment attributes selection.keyConditions.members).mapError Error.codec
  let filter ←
    (conditionsFragment attributes selection.filterConditions.members).mapError Error.codec
  match kind with
  | .query =>
    if key.isEmpty then throw (.validation .noCondition)
    return selection.assemble key filter
  | .scan => return selection.assemble Fragment.empty (selection.scanFilter key filter)

end Selection

end AttributeStore
