import AttributeStore.Error
import AttributeStore.Value.Codec

/-!
# Reading records

Readers that turn attributes into typed values. A structure is read field by field: the fields it
knows with their readers, all others as plain data, which can fail too, and only then is a
missing field an error.
-/

namespace AttributeStore

open Decimal (IntegerKind readInteger Binary)

/-- Plain data that is neither list nor map. -/
inductive PlainAtom
  | integer (value : Int)
  /-- An integer that does not fit a signed one of sixty-four bits. -/
  | large (value : Int)
  | float (value : Binary)
  | text (chars : String)
  | bool (flag : Bool)
  | bytes (content : List UInt8)
  | nothing
deriving DecidableEq

/-- Plain data: an attribute without its wire types, sets having become lists. -/
abbrev Plain := Document PlainAtom

namespace PlainAtom

/-- The number of a text: an integer if it fits, or else the nearest floating number. -/
def ofNumber (text : String) : Except ConversionError PlainAtom :=
  let chars := text.toList
  match readInteger .int64 chars, readInteger .nat64 chars, Binary.ofText? .double chars with
  | .ok value, _, _ => .ok (integer value)
  | .error _, .ok value, _ => .ok (large value)
  | .error _, .error _, some value => .ok (float value)
  | .error _, .error _, none => .error (.badFloat text)

def describe : PlainAtom → String
  | integer value | large value => "integer \x60" ++ Decimal.integerText value ++ "\x60"
  | float value =>
    let text := value.text .double
    let point := if value.isFinite .double && !text.contains '.' then ".0" else ""
    "floating point \x60" ++ text ++ point ++ "\x60"
  | text chars => "string " ++ Text.quoted chars
  | bool flag => "boolean \x60" ++ toString flag ++ "\x60"
  | bytes _ => "byte array"
  | nothing => "unit value"

end PlainAtom

def WireAtom.toPlain : WireAtom → Except ConversionError Plain
  | string text => .ok (.leaf (.text text))
  | number text => do return .leaf (← PlainAtom.ofNumber text)
  | binary bytes => .ok (.leaf (.bytes bytes))
  | bool flag => .ok (.leaf (.bool flag))
  | null true => .ok (.leaf .nothing)
  | null false => .error (.expected "unit")
  | stringSet members => .ok (.list (members.map fun text => .leaf (.text text)))
  | numberSet members => do
    return .list (← members.mapM fun text => do return .leaf (← PlainAtom.ofNumber text))
  | binarySet members => .ok (.list (members.map fun bytes => .leaf (.bytes bytes)))
  | unknown => .error (.other "unknown attribute")

namespace Attribute

mutual

def toPlain : Attribute → Except ConversionError Plain
  | .leaf atom => atom.toPlain
  | .list members => do return .list (← toPlainMembers members)
  | .map entries => do return .map (← toPlainEntries entries)

def toPlainMembers : List Attribute → Except ConversionError (List Plain)
  | [] => .ok []
  | member :: rest => do
    let first ← toPlain member
    let others ← toPlainMembers rest
    return first :: others

def toPlainEntries : List (String × Attribute) → Except ConversionError (List (String × Plain))
  | [] => .ok []
  | (name, value) :: rest => do
    let first ← toPlain value
    let others ← toPlainEntries rest
    return (name, first) :: others

end

def toInteger (kind : IntegerKind) : Attribute → Except ConversionError Int
  | .leaf (.number text) =>
    match readInteger kind text.toList with
    | .ok value => .ok value
    | .error cause => .error (.badInteger text cause)
  | _ => .error (.expected "num")

def toText : Attribute → Except ConversionError String
  | .leaf (.string text) => .ok text
  | _ => .error (.expected "string")

/-- A value that may be absent, which a null says. -/
def toOption {α : Type} (read : Attribute → Except ConversionError α) :
    Attribute → Except ConversionError (Option α)
  | .leaf (.null true) => .ok none
  | value => (read value).map some

/-- The text that plain data holds; bytes may be text too. -/
def memberText : PlainAtom → Except ConversionError String
  | .text chars => .ok chars
  | .bytes content =>
    match String.fromUTF8? ⟨content.toArray⟩ with
    | some chars => .ok chars
    | none => .error (.other "invalid value: byte array, expected a string")
  | atom => .error (.invalidType atom.describe "a string")

/-- A list of texts, from a list or from a set. -/
def toTexts : Attribute → Except ConversionError (List String)
  | .list members => members.mapM toText
  | .leaf (.stringSet members) => .ok members
  | .leaf (.numberSet members) =>
    members.mapM fun text => do memberText (← PlainAtom.ofNumber text)
  | .leaf (.binarySet members) => members.mapM fun bytes => memberText (.bytes bytes)
  | _ => .error (.expected "seq")

end Attribute

namespace WireItem

def field? {α : Type} (item : WireItem) (name : String)
    (read : Attribute → Except ConversionError α) : Except ConversionError (Option α) :=
  (item.get? name).mapM read

def require {α : Type} (name : String) (field : Option α) : Except ConversionError α :=
  match field with
  | some value => .ok value
  | none => .error (.missingField name)

/-- Reads every field that a structure does not know, and forgets it. -/
def skipOthers (item : WireItem) (known : List String) : Except ConversionError Unit :=
  (item.entries.filter fun entry => entry.1 ∉ known).forM fun entry => do
    let _ ← Attribute.toPlain entry.2
    return

def toPlain (item : WireItem) : Except ConversionError Plain := do
  return .map (← Attribute.toPlainEntries item.entries)

end WireItem

/-- The records that rows stand for; the first row that stands for none is an error. -/
def decodeRows {α : Type} (read : WireItem → Except ConversionError α) (rows : List WireItem) :
    Except Error (List α) :=
  rows.zipIdx.mapM fun (row, place) => (read row).mapError (Error.decode place)

def Item.toRecord {α : Type} (read : WireItem → Except ConversionError α) (item : Item) :
    Except CodecError α := do
  (read (← item.encode)).mapError CodecError.conversion

end AttributeStore
