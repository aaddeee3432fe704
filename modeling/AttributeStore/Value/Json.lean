import AttributeStore.Wire.Attribute

/-!
# Values as JSON

A dynamic value as an object with one member, whose name is the kind of the value; null is a bare
text. Numbers keep their text.
-/

namespace AttributeStore

open Wire (Blob)

def Atom.toJson (blob : Blob) : Atom → Json
  | string text => .object [("String", .string text)]
  | number n => .object [("Number", .string n.text)]
  | binary bytes => .object [("Binary", blob.toJson bytes)]
  | bool flag => .object [("Bool", .bool flag)]
  | null => .string "Null"
  | stringSet members => .object [("StringSet", .array (members.map .string))]
  | numberSet members => .object [("NumberSet", .array (members.map fun n => .string n.text))]
  | binarySet members => .object [("BinarySet", .array (members.map blob.toJson))]

def Value.toJson (blob : Blob) : Value → Json :=
  Json.ofDocument "List" "Map" (Atom.toJson blob)

def Item.toJson (blob : Blob) : Item → Json :=
  Json.ofNamed (Value.toJson blob)

end AttributeStore
