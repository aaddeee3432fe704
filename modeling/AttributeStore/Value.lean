import AttributeStore.Document
import AttributeStore.Number
import AttributeStore.WireType

/-!
# Values and attributes

A value is what callers hold and an attribute what the store holds. Both are documents; they
differ in their leaves, since the store writes a null with a flag and a number as bare text, and
may send an attribute of a kind that this library does not know.
-/

namespace AttributeStore

/-- A value that is neither list nor map. -/
inductive Atom
  | string (text : String)
  | number (number : Number)
  | binary (bytes : List UInt8)
  | bool (flag : Bool)
  | null
  | stringSet (members : List String)
  | numberSet (members : List Number)
  | binarySet (members : List (List UInt8))
deriving DecidableEq, Repr

abbrev Value := Document Atom

abbrev Item := Named Value

/-- An attribute that is neither list nor map. -/
inductive WireAtom
  | string (text : String)
  | number (text : String)
  | binary (bytes : List UInt8)
  | bool (flag : Bool)
  | null (flag : Bool)
  | stringSet (members : List String)
  | numberSet (members : List String)
  | binarySet (members : List (List UInt8))
  | unknown
deriving DecidableEq, Repr

abbrev Attribute := Document WireAtom

abbrev WireItem := Named Attribute

/-- Whatever decides membership in a list of items uses this one instance. -/
instance : LawfulBEq WireItem := inferInstance

def Atom.wireType : Atom → WireType
  | string _ => .string
  | number _ => .number
  | binary _ => .binary
  | bool _ => .bool
  | null => .null
  | stringSet _ => .stringSet
  | numberSet _ => .numberSet
  | binarySet _ => .binarySet

/-- The wire type of an atom in wire form; what is not known counts as null. -/
def WireAtom.wireType : WireAtom → WireType
  | string _ => .string
  | number _ => .number
  | binary _ => .binary
  | bool _ => .bool
  | null _ | unknown => .null
  | stringSet _ => .stringSet
  | numberSet _ => .numberSet
  | binarySet _ => .binarySet

/-- The wire type to which a value encodes by itself. -/
def Value.wireType : Value → WireType
  | .leaf atom => atom.wireType
  | .list _ => .list
  | .map _ => .map

def Attribute.wireType : Attribute → WireType
  | .leaf atom => atom.wireType
  | .list _ => .list
  | .map _ => .map

end AttributeStore
