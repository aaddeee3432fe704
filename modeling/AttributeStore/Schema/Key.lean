import AttributeStore.Schema
import AttributeStore.Value.Codec

/-!
# Primary keys

The key of an item comes about in two ways: from values that a caller gives, encoded as the key
attributes declare, and from an item that has them, which must be of the declared types.
-/

namespace AttributeStore

structure KeyPart where
  definition : AttributeDefinition
  value : Value
deriving DecidableEq

structure PrimaryKey where
  partitionKey : KeyPart
  sortKey : Option KeyPart
deriving DecidableEq

namespace PrimaryKey

/-- The key in wire form, each part as its attribute declares. -/
def encode (key : PrimaryKey) : Except CodecError WireItem := do
  let hash ← key.partitionKey.value.encodeAs key.partitionKey.definition.wireType
  let wire := Named.singleton key.partitionKey.definition.name hash
  match key.sortKey with
  | none => return wire
  | some part =>
    let range ← part.value.encodeAs part.definition.wireType
    return wire.insert part.definition.name range

end PrimaryKey

namespace TableSchema

/-- The definitions of the key attributes, the hash key first. -/
def keyDefinitions (schema : TableSchema) : List AttributeDefinition :=
  schema.hashKey :: schema.rangeKey.toList

/-- The key of given values; a range value has to be given exactly for a table with a range
key. -/
def keys (schema : TableSchema) (hash : Value) (range : Option Value) :
    Except ValidationError PrimaryKey :=
  match schema.rangeKey, range with
  | some definition, some value => .ok ⟨⟨schema.hashKey, hash⟩, some ⟨definition, value⟩⟩
  | some definition, none => .error (.missingKey schema.name definition.name)
  | none, some _ => .error (.unexpectedRangeKey schema.name)
  | none, none => .ok ⟨⟨schema.hashKey, hash⟩, none⟩

/-- The attribute of an item that a definition declares, if it has the declared type. -/
def keyAttribute (schema : TableSchema) (item : WireItem) (definition : AttributeDefinition) :
    Except ValidationError Attribute :=
  match item.get? definition.name with
  | none => .error (.missingKey schema.name definition.name)
  | some found =>
    let actual := found.wireType
    if actual = definition.wireType then .ok found
    else .error (.keyType schema.name definition.name definition.wireType actual)

def keyOf (schema : TableSchema) (item : WireItem) : Except ValidationError WireItem := do
  let hash ← schema.keyAttribute item schema.hashKey
  let key := Named.singleton schema.hashKey.name hash
  match schema.rangeKey with
  | none => return key
  | some definition =>
    let range ← schema.keyAttribute item definition
    return key.insert definition.name range

end TableSchema

end AttributeStore
