import AttributeStore.Json.Reader
import AttributeStore.Text.Base64
import AttributeStore.Value

/-!
# Attributes as JSON

An attribute is an object with one member, whose name is the tag of its type. Bytes are text in a
form that the caller chooses. A reader takes an object without such a member as absent, a member
of another name as an attribute of unknown kind, and refuses two kinds at once.
-/

namespace AttributeStore.Wire

open Text (toHex ofHex? toBase64 ofBase64?)

/-- A way to write bytes as text. -/
structure Blob where
  write : List UInt8 → List Char
  read : List Char → Option (List UInt8)

/-- Bytes in base 64, as the store exchanges them. -/
def Blob.base64 : Blob := ⟨toBase64, ofBase64?⟩

def Blob.hex : Blob := ⟨toHex, ofHex?⟩

namespace Blob

def toJson (blob : Blob) (bytes : List UInt8) : Json :=
  .string (String.ofList (blob.write bytes))

def ofJson? (blob : Blob) : Json → Option (List UInt8)
  | .string text => blob.read text.toList
  | _ => none

end Blob

def atomToJson (blob : Blob) : WireAtom → Json
  | .string text => .object [("S", .string text)]
  | .number text => .object [("N", .string text)]
  | .binary bytes => .object [("B", blob.toJson bytes)]
  | .bool flag => .object [("BOOL", .bool flag)]
  | .null flag => .object [("NULL", .bool flag)]
  | .stringSet members => .object [("SS", .array (members.map .string))]
  | .numberSet members => .object [("NS", .array (members.map .string))]
  | .binarySet members => .object [("BS", .array (members.map blob.toJson))]
  | .unknown => .string "Unknown"

def attributeToJson (blob : Blob) : Attribute → Json :=
  Json.ofDocument "L" "M" (atomToJson blob)

def itemToJson (blob : Blob) : WireItem → Json :=
  Json.ofNamed (attributeToJson blob)

def atomOfTag? (blob : Blob) (tag : String) (value : Json) : Option WireAtom :=
  match WireType.ofTag? tag with
  | some .string => value.text?.map .string
  | some .number => value.text?.map .number
  | some .binary => (blob.ofJson? value).map .binary
  | some .bool => value.bool?.map .bool
  | some .null => value.bool?.map .null
  | some .stringSet => (value.list? Json.text?).map .stringSet
  | some .numberSet => (value.list? Json.text?).map .numberSet
  | some .binarySet => (value.list? blob.ofJson?).map .binarySet
  | some .list | some .map => none
  | none => some .unknown

mutual

/-- The attribute of a JSON value, if it is one, or nothing if it is absent. -/
def attributeOfJson? (blob : Blob) : Json → Option (Option Attribute)
  | .null => some none
  | .object members => attributeOfMembers? blob none members
  | _ => none

/-- The attribute that the members of an object give, besides one found before them. -/
def attributeOfMembers? (blob : Blob) (found : Option Attribute) :
    List (String × Json) → Option (Option Attribute)
  | [] => some found
  | (tag, value) :: rest =>
    match value with
    | .null => attributeOfMembers? blob found rest
    | value =>
      if tag = "__type" then attributeOfMembers? blob found rest
      else if found.isSome then none
      else do
        let read ← attributeOfTag? blob tag value
        attributeOfMembers? blob (some read) rest

def attributeOfTag? (blob : Blob) (tag : String) : Json → Option Attribute
  | .array elements =>
    if tag = "L" then (attributesOfElements? blob elements).map .list
    else (atomOfTag? blob tag (.array elements)).map .leaf
  | .object members =>
    if tag = "M" then
      (attributesOfMembers? blob members).map fun entries => .map (Named.ofList entries).entries
    else (atomOfTag? blob tag (.object members)).map .leaf
  | value => (atomOfTag? blob tag value).map .leaf

/-- The attributes of a list, without those that are absent. -/
def attributesOfElements? (blob : Blob) : List Json → Option (List Attribute)
  | [] => some []
  | element :: rest => do
    let read ← attributeOfJson? blob element
    let others ← attributesOfElements? blob rest
    return read.toList ++ others

def attributesOfMembers? (blob : Blob) : List (String × Json) → Option (List (String × Attribute))
  | [] => some []
  | (name, value) :: rest => do
    let read ← attributeOfJson? blob value
    let others ← attributesOfMembers? blob rest
    return (read.toList.map fun found => (name, found)) ++ others

end

def itemOfJson? (blob : Blob) : Json → Option WireItem
  | .object members => (attributesOfMembers? blob members).map Named.ofList
  | _ => none

end AttributeStore.Wire
