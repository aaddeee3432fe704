import AttributeStore.Json
import AttributeStore.Json.Numeral
import AttributeStore.Json.Spelling
import AttributeStore.Text.Base64
import AttributeStore.WireType

/-!
# Shapes of replies

What a reply may hold, member by member. A value that does not have its shape spoils the whole
reply, also in a member that nobody reads, in one that a later member of its name replaces, and
below a limit of nesting. Members that a shape does not name are passed over. `Shape.conform?`
gives the reply with only the named members, its numbers and strings in their plain form.
-/

namespace AttributeStore.Wire

open Decimal (Binary IntegerKind)
open Json (Spelling Numeral unescape?)

/-- What a value looks like. -/
inductive Shape
  | text
  | flag
  | integer (kind : IntegerKind)
  /-- A floating number: a finite one as a number, any other as text. -/
  | real
  /-- A point in time, counted in seconds. -/
  | time
  /-- Bytes in base 64, written without escapes. -/
  | bytes
  | list (element : Shape)
  /-- An object whose members have names of their own. -/
  | map (value : Shape)
  /-- An object with members of these names; others may stand beside them. -/
  | record (members : List (String × Shape))
  /-- An attribute: an object with the tag of a type as its one member. -/
  | attributeValue

namespace Shape

def int64 : Shape := integer .int64

def int32 : Shape := integer ⟨true, 32⟩

/-- How deep arrays and objects of known shape may stand within each other. -/
def depthLimit : Nat := 128

/-- How deep arrays and objects may stand within each other in a value that is passed over. -/
def passedDepthLimit : Nat := 512

def isFiniteNumber (digits : List Char) : Bool :=
  (Numeral.ofText? digits).any Numeral.isFinite

def isNonFiniteText (text : String) : Bool :=
  (Binary.ofText? .double text.toList).any fun value => !value.isFinite .double

/-- The shape of the value under a type's tag in an attribute. -/
def ofWireType : WireType → Shape
  | .string | .number => text
  | .binary => bytes
  | .bool | .null => flag
  | .list => list attributeValue
  | .map => map attributeValue
  | .stringSet | .numberSet => list text
  | .binarySet => list bytes

def isPassable (value : Spelling) : Bool :=
  value.height ≤ passedDepthLimit

/-- A value without parts in its plain form. -/
def conformLeaf? : Shape → Spelling → Option Json
  | text, .string inside => (unescape? inside).map .string
  | flag, .bool value => some (.bool value)
  | integer kind, .number digits => do
    return .ofInt (← (← Numeral.ofText? digits).toInteger? kind)
  | real, .number digits | time, .number digits =>
    if isFiniteNumber digits then some (.number (String.ofList digits)) else none
  | real, .string inside => do
    let text ← unescape? inside
    if isNonFiniteText text then some (.string text) else none
  | bytes, .string inside =>
    (Text.ofBase64? inside).map fun _ => .string (String.ofList inside)
  | _, _ => none

mutual

/-- A value of a shape in its plain form, with room for so many arrays and objects within each
other. Null has every shape. -/
def conform? (shape : Shape) (room : Nat) : Spelling → Option Json
  | .null => some .null
  | .array elements =>
    match room, shape with
    | room + 1, list element => (conformElements? element room elements).map .array
    | _, _ => none
  | .object members =>
    match room, shape with
    | room + 1, map value => (conformEntries? value room members).map .object
    | room + 1, record known => (conformMembers? known room members).map .object
    | room + 1, attributeValue =>
      (conformVariant? none room members).map fun found => .object [found]
    | _, _ => none
  | leaf => shape.conformLeaf? leaf

/-- The elements of a list, none of which is null. -/
def conformElements? (shape : Shape) (room : Nat) : List Spelling → Option (List Json)
  | [] => some []
  | .null :: _ => none
  | element :: rest => do
    let value ← shape.conform? room element
    return value :: (← conformElements? shape room rest)

/-- The members of a map, none of which is null. -/
def conformEntries? (shape : Shape) (room : Nat) :
    List (List Char × Spelling) → Option (List (String × Json))
  | [] => some []
  | (_, .null) :: _ => none
  | (name, member) :: rest => do
    let name ← unescape? name
    let value ← shape.conform? room member
    return (name, value) :: (← conformEntries? shape room rest)

/-- The members of a record that its shape names. -/
def conformMembers? (known : List (String × Shape)) (room : Nat) :
    List (List Char × Spelling) → Option (List (String × Json))
  | [] => some []
  | (name, member) :: rest => do
    let name ← unescape? name
    match known.lookup name with
    | some shape => do
      let value ← shape.conform? room member
      return (name, value) :: (← conformMembers? known room rest)
    | none => if isPassable member then conformMembers? known room rest else none

/-- The one member of an attribute that is not null, besides one found before. Below a tag of no
type stands whatever may be passed over. -/
def conformVariant? (found : Option (String × Json)) (room : Nat) :
    List (List Char × Spelling) → Option (String × Json)
  | [] => found
  | (_, .null) :: rest => conformVariant? found room rest
  | (name, member) :: rest => do
    let tag ← unescape? name
    if tag = "__type" then
      if isPassable member then conformVariant? found room rest else none
    else if found.isSome then none
    else match WireType.ofTag? tag with
      | some type => do
        let value ← (ofWireType type).conform? room member
        conformVariant? (some (tag, value)) room rest
      | none =>
        if isPassable member then conformVariant? (some (tag, .bool true)) room rest else none

end

end Shape

end AttributeStore.Wire
