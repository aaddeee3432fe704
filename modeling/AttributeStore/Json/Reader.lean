import AttributeStore.Decimal.Integer
import AttributeStore.Document
import AttributeStore.Json

/-!
# Reading JSON values

Small readers from which those of structures are made. A reader gives none for a value of the
wrong kind. Null counts as absent, in a member as well as in a list.
-/

namespace AttributeStore.Json

def text? : Json → Option String
  | string text => some text
  | _ => none

def bool? : Json → Option Bool
  | bool flag => some flag
  | _ => none

/-- The size of a decimal literal that stands for an integer of at most twenty digits. -/
def integerSize? (literal : Decimal.Literal) : Option Nat :=
  let place := literal.exponent + (Decimal.digits literal.significand).length
  if literal.significand = 0 then some 0
  else if place ≤ 0 ∨ 20 < place then none
  else if 0 ≤ literal.exponent then
    some (literal.significand * Decimal.tenTo literal.exponent.toNat)
  else
    let divisor := Decimal.tenTo (-literal.exponent).toNat
    if literal.significand % divisor = 0 then some (literal.significand / divisor) else none

/-- The value of a number that is an integer of at most twenty digits, however it is spelled. -/
def integer? : Json → Option Int
  | number text => do
    let literal ← Decimal.Literal.parse text.toList
    let size ← integerSize? literal
    some (if literal.negative then -(size : Int) else size)
  | _ => none

def integerOf? (kind : Decimal.IntegerKind) (value : Json) : Option Int := do
  let integer ← value.integer?
  if kind.Fits integer then some integer else none

def list? {α : Type} (read : Json → Option α) : Json → Option (List α)
  | array elements =>
    (elements.filter fun | null => false | _ => true).mapM read
  | _ => none

def entries? {α : Type} (read : Json → Option α) : Json → Option (List (String × α))
  | object members =>
    (members.filter fun | (_, null) => false | _ => true).mapM fun (name, value) => do
      return (name, ← read value)
  | _ => none

/-- The members of an object as a map, a later one over an earlier one of its name. -/
def named? {α : Type} (read : Json → Option α) (value : Json) : Option (Named α) :=
  (value.entries? read).map Named.ofList

def optional {α : Type} (value : Json) (name : String) (read : Json → Option α) :
    Option (Option α) :=
  match value.member? name with
  | none => some none
  | some present => (read present).map some

def withDefault {α : Type} (value : Json) (name : String) (default : α)
    (read : Json → Option α) : Option α :=
  match value.member? name with
  | none => some default
  | some present => read present

def object? : Json → Option Json
  | object members => some (object members)
  | _ => none

mutual

/-- A document as JSON, lists and maps each in an object of one member. -/
def ofDocument {α : Type} (listTag mapTag : String) (leaf : α → Json) : Document α → Json
  | .leaf x => leaf x
  | .list xs => object [(listTag, array (ofMembersOf listTag mapTag leaf xs))]
  | .map es => object [(mapTag, object (ofEntriesOf listTag mapTag leaf es))]

def ofMembersOf {α : Type} (listTag mapTag : String) (leaf : α → Json) :
    List (Document α) → List Json
  | [] => []
  | x :: xs => ofDocument listTag mapTag leaf x :: ofMembersOf listTag mapTag leaf xs

def ofEntriesOf {α : Type} (listTag mapTag : String) (leaf : α → Json) :
    List (String × Document α) → List (String × Json)
  | [] => []
  | (name, x) :: es =>
    (name, ofDocument listTag mapTag leaf x) :: ofEntriesOf listTag mapTag leaf es

end

def ofNamed {α : Type} (write : α → Json) (map : Named α) : Json :=
  object (map.entries.map fun (name, value) => (name, write value))

end AttributeStore.Json
