import AttributeStore.Error
import AttributeStore.Value

/-!
# The codec of values

Values in wire form and back. The store refuses sets that are empty or hold a member twice, so
encoding refuses them too; decoding takes every attribute, reading as null what it does not know.
A declared type bends a value only between numbers and strings.
-/

namespace AttributeStore

/-- The first member of a list that an earlier one or one of `seen` equals. -/
def firstRepeat {α : Type} [DecidableEq α] (seen : List α) : List α → Option α
  | [] => none
  | member :: rest => if member ∈ seen then some member else firstRepeat (member :: seen) rest

/-- Refuses a set that is empty or holds a member twice. -/
def checkSet {α : Type} [DecidableEq α] (set : WireType) (describe : α → String)
    (members : List α) : Except CodecError Unit :=
  if members.isEmpty then .error (.emptySet set)
  else match firstRepeat [] members with
    | some member => .error (.duplicateSetMember set (describe member))
    | none => .ok ()

/-- Bytes as messages show them. -/
def bytesText (bytes : List UInt8) : String :=
  "[" ++ ", ".intercalate (bytes.map fun byte => toString byte.toNat) ++ "]"

def Atom.encode : Atom → Except CodecError WireAtom
  | string text => .ok (.string text)
  | number n => .ok (.number n.text)
  | binary bytes => .ok (.binary bytes)
  | bool flag => .ok (.bool flag)
  | null => .ok (.null true)
  | stringSet members => do
    checkSet .stringSet id members
    return .stringSet members
  | numberSet members => do
    checkSet .numberSet Number.text members
    return .numberSet (members.map Number.text)
  | binarySet members => do
    checkSet .binarySet bytesText members
    return .binarySet members

def WireAtom.decode : WireAtom → Atom
  | string text => .string text
  | number text => .number ⟨text⟩
  | binary bytes => .binary bytes
  | bool flag => .bool flag
  | null _ | unknown => .null
  | stringSet members => .stringSet members
  | numberSet members => .numberSet (members.map Number.mk)
  | binarySet members => .binarySet members

/-- The wire form of a value by its own kind. -/
def Value.encode (value : Value) : Except CodecError Attribute :=
  value.traverse Atom.encode

def Attribute.decode (wire : Attribute) : Value :=
  wire.mapLeaves WireAtom.decode

/-- The wire form of a value as a declared type: a number as a string is its text, a string as a
number has to be decimal text, and any other value has to be of the declared type already. -/
def Value.encodeAs (declared : WireType) (value : Value) : Except CodecError Attribute :=
  match declared, value with
  | .string, .leaf (.number number) => .ok (.leaf (.string number.text))
  | .number, .leaf (.string text) =>
    match Number.ofText? text with
    | some number => .ok (.leaf (.number number.text))
    | none => .error (.invalidNumber text)
  | declared, value =>
    if declared = value.wireType then value.encode
    else .error (.typeMismatch declared value.wireType)

/-- The wire form of a value as its declared type, or by its own kind without one. -/
def Value.encodeWith (declared : Option WireType) (value : Value) :
    Except CodecError Attribute :=
  match declared with
  | some declared => value.encodeAs declared
  | none => value.encode

def Item.encode (item : Item) : Except CodecError WireItem :=
  item.traverse Atom.encode

def WireItem.decode (item : WireItem) : Item :=
  item.mapLeaves WireAtom.decode

end AttributeStore
