import AttributeStore.Error
import AttributeStore.Value

/-!
# Records

The records of callers, described by the data model to which they serialise, and the attributes
that they become. Numbers become decimal text, wrappers are transparent, and a variant with
content becomes a map with its name as the only member. The names of a map have to be text, truth
values or integers. Sets are left out: the data model has none, and what writes them is a wrapper
that the format's library knows by a name of its own.
-/

namespace AttributeStore

/-- A record as it serialises, without wrappers that turn a sequence into a set. -/
inductive Record
  | integer (value : Int)
  /-- An integer of more than sixty-four bits. -/
  | wideInteger (value : Int)
  | double (value : Decimal.Binary)
  | single (value : Decimal.Binary)
  /-- A text, a character, or a variant without content. -/
  | text (chars : String)
  | bool (flag : Bool)
  /-- Nothing: an absent option, a unit, or an empty structure. -/
  | nothing
  | bytes (content : List UInt8)
  /-- An option that is there; only its content is written. -/
  | present (content : Record)
  /-- A structure around one value; only its content is written. -/
  | wrapper (content : Record)
  | sequence (elements : List Record)
  | map (entries : List (Record × Record))
  | fields (members : List (String × Record))
  | variant (name : String) (content : Record)

namespace Record

/-- The name that a key of a map gives. -/
def keyText : Record → Except ConversionError String
  | integer value | wideInteger value => .ok (Decimal.integerText value)
  | text chars => .ok chars
  | bool flag => .ok (if flag then "true" else "false")
  | wrapper content => content.keyText
  | _ => .error .keyNotText

mutual

def toAttribute : Record → Except ConversionError Attribute
  | integer value => .ok (.leaf (.number (Decimal.integerText value)))
  | wideInteger _ => .error .tooWide
  | double value => .ok (.leaf (.number (value.text .double)))
  | single value => .ok (.leaf (.number (value.text .single)))
  | text chars => .ok (.leaf (.string chars))
  | bool flag => .ok (.leaf (.bool flag))
  | nothing => .ok (.leaf (.null true))
  | bytes content => .ok (.leaf (.binary content))
  | present content | wrapper content => toAttribute content
  | sequence elements => do return .list (← toAttributes elements)
  | map entries => do return .map (Named.ofList (← toEntries entries)).entries
  | fields members => do return .map (Named.ofList (← toFields members)).entries
  | variant name content => do return .map [(name, ← toAttribute content)]

def toAttributes : List Record → Except ConversionError (List Attribute)
  | [] => .ok []
  | element :: rest => do
    let first ← toAttribute element
    let others ← toAttributes rest
    return first :: others

def toEntries : List (Record × Record) → Except ConversionError (List (String × Attribute))
  | [] => .ok []
  | (key, value) :: rest => do
    let name ← key.keyText
    let first ← toAttribute value
    let others ← toEntries rest
    return (name, first) :: others

def toFields : List (String × Record) → Except ConversionError (List (String × Attribute))
  | [] => .ok []
  | (name, value) :: rest => do
    let first ← toAttribute value
    let others ← toFields rest
    return (name, first) :: others

end

/-- The item that a record becomes; it has to serialise to a map. -/
def toWireItem (record : Record) : Except ConversionError WireItem := do
  match ← record.toAttribute with
  | .map entries => return Named.ofList entries
  | _ => throw .notMap

end Record

end AttributeStore
