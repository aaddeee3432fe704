import AttributeStore.Error
import AttributeStore.Value

/-!
# Expression fragments

A piece of the store's expression language together with the placeholders to which it refers:
names that stand for attributes and values that stand for operands.
-/

namespace AttributeStore

/-- Refuses an attribute name that cannot be part of a placeholder. -/
def checkAttributeName (name : String) : Except ValidationError Unit :=
  if name.isEmpty || !name.toList.all (fun c => c.isAlphanum || c = '_') then
    .error (.invalidAttributeName name)
  else .ok ()

/-- Expression text with its placeholders. -/
structure Fragment where
  text : String
  names : Named String
  values : Named Attribute

/-- Two texts with an operator between them, or the other one when one is empty. -/
def joinText (operator left right : String) : String :=
  if left.isEmpty then right
  else if right.isEmpty then left
  else left ++ operator ++ right

namespace Fragment

def empty : Fragment := ⟨"", ∅, ∅⟩

def isEmpty (fragment : Fragment) : Bool :=
  fragment.text.isEmpty

def join (left : Fragment) (operator : String) (right : Fragment) : Fragment where
  text := joinText operator left.text right.text
  names := left.names.union right.names
  values := left.values.union right.values

def parenthesize (fragment : Fragment) : Fragment :=
  { fragment with text := "(" ++ fragment.text ++ ")" }

def joinAll (operator : String) (fragments : List Fragment) : Fragment :=
  fragments.foldl (fun before fragment => before.join operator fragment) empty

/-- The text, unless it is empty. -/
def text? (fragment : Fragment) : Option String :=
  if fragment.isEmpty then none else some fragment.text

/-- The list of attributes to which a read is cut. -/
def projection (names : List String) : Fragment :=
  joinAll ", " (names.map fun name =>
    let placeholder := "#p_" ++ name
    ⟨placeholder, Named.singleton placeholder name, ∅⟩)

end Fragment

end AttributeStore
