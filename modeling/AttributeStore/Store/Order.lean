import AttributeStore.Store.Sort
import AttributeStore.Value

/-!
# The order of attributes

How the store compares attributes: numbers by the floating numbers nearest to them, strings by
code points, bytes from the left. Other attributes have no order, but equal ones are equal.
Sorting uses that order on a hash key and then a range key, an item without the attribute coming
first, and what has no order counting as equal. Attributes of different types can therefore make it
no weak order, of which the sort may panic.
-/

namespace AttributeStore.Store

/-- The order of two attributes, if they have one. -/
def compareAttributes? : Attribute → Attribute → Option Ordering
  | .leaf (.number left), .leaf (.number right) => do
    let left ← Number.toDouble? ⟨left⟩
    let right ← Number.toDouble? ⟨right⟩
    Decimal.Binary.compare? .double left right
  | .leaf (.string left), .leaf (.string right) => some (compare left right)
  | .leaf (.binary left), .leaf (.binary right) =>
    some (compare (left.map UInt8.toNat) (right.map UInt8.toNat))
  | left, right => if left = right then some .eq else none

/-- The order of two attributes that may be missing. -/
def compareOptional : Option Attribute → Option Attribute → Ordering
  | some left, some right => (compareAttributes? left right).getD .eq
  | none, some _ => .lt
  | some _, none => .gt
  | none, none => .eq

structure KeyNames where
  hashKey : String
  rangeKey : Option String
deriving DecidableEq, Repr

def compareItems (keys : KeyNames) (descending : Bool) (left right : WireItem) : Ordering :=
  let byHash := compareOptional (left.get? keys.hashKey) (right.get? keys.hashKey)
  let ordering := byHash.then <| match keys.rangeKey with
    | none => .eq
    | some rangeKey => compareOptional (left.get? rangeKey) (right.get? rangeKey)
  if descending then ordering.swap else ordering

/-- Items in the order of a key, unless the sort panics. -/
def sortItems? (keys : KeyNames) (descending : Bool) (items : List WireItem) :
    Option (List WireItem) :=
  -- What is sorted are references, so an element is known to be one of the items.
  (sortBy (fun left right => compareItems keys descending left.1 right.1 = .lt) items.attach).map
    (·.map Subtype.val)

end AttributeStore.Store
