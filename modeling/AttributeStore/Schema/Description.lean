import AttributeStore.Schema
import AttributeStore.Wire.Operation

/-!
# Schemas on the wire

The request that creates a table of a schema, and the schema that a table description tells. A
description is consistent when every key attribute that it names is defined; what it leaves out
has a default.
-/

namespace AttributeStore

open Wire

def Projection.toWire : Projection → ProjectionElement
  | .all => ⟨some "ALL", none⟩
  | .keysOnly => ⟨some "KEYS_ONLY", none⟩
  | .listed names => ⟨some "INCLUDE", some names⟩

/-- The projection that a description tells; an unknown one counts as all attributes. -/
def Projection.ofWire (projection : Option ProjectionElement) : Projection :=
  match projection with
  | none => .all
  | some projection =>
    if projection.projectionType = some "KEYS_ONLY" then .keysOnly
    else if projection.projectionType = some "INCLUDE" then
      .listed (projection.nonKeyAttributes.getD [])
    else .all

def keySchema (hashKey : String) (rangeKey : Option String) : List KeyElement :=
  ⟨hashKey, hashPart⟩ :: rangeKey.toList.map fun name => ⟨name, rangePart⟩

/-- The first attribute that has a part in a key. -/
def keyName? (part : String) (elements : List KeyElement) : Option String :=
  (elements.find? fun element => element.keyType = part).map KeyElement.name

def Index.toWire (index : Index) : LocalIndex where
  name := index.name
  keySchema := keySchema index.hashKey index.rangeKey
  projection := some index.projection.toWire

def describedThroughput (description : Option ThroughputDescription) : Throughput :=
  match description with
  | none => Throughput.default
  | some told =>
    ⟨told.read.getD Throughput.default.read, told.write.getD Throughput.default.write⟩

def AttributeDefinition.ofWire (element : AttributeElement) :
    Except SchemaError AttributeDefinition :=
  match WireType.ofTag? element.attributeType with
  | some wireType => .ok ⟨element.name, wireType⟩
  | none => .error (.unknownAttributeType element.name element.attributeType)

/-- The catalog of described attributes, a later definition in the place of an earlier one. -/
def Catalog.ofWire (elements : List AttributeElement) : Except SchemaError Catalog := do
  return Roster.ofList (← elements.mapM AttributeDefinition.ofWire)

/-- The definition of a name to which a key of `owner` refers. -/
def Catalog.lookup (catalog : Catalog) (owner name : String) :
    Except SchemaError AttributeDefinition :=
  match catalog.get? name with
  | some definition => .ok definition
  | none => .error (.undefinedAttribute owner name)

/-- A described local index; without a hash key it has that of its table. -/
def Index.ofLocal (tableHashKey : String) (description : LocalIndexDescription) : Index where
  name := description.name.getD ""
  kind := .localIndex
  hashKey := (keyName? hashPart (description.keySchema.getD [])).getD tableHashKey
  rangeKey := keyName? rangePart (description.keySchema.getD [])
  projection := .ofWire description.projection
  throughput := none

def Index.ofGlobal (description : GlobalIndexDescription) : Except SchemaError Index :=
  let name := description.name.getD ""
  match keyName? hashPart (description.keySchema.getD []) with
  | none => .error (.missingHashKey name)
  | some hashKey => .ok {
      name, kind := .globalIndex, hashKey
      rangeKey := keyName? rangePart (description.keySchema.getD [])
      projection := .ofWire description.projection
      throughput := some (describedThroughput description.throughput) }

/-- Refuses an index whose key refers to an attribute without definition. -/
def Index.check (catalog : Catalog) (index : Index) : Except SchemaError Unit := do
  let _ ← catalog.lookup index.name index.hashKey
  match index.rangeKey with
  | none => return
  | some rangeKey =>
    let _ ← catalog.lookup index.name rangeKey
    return

namespace TableSchema

def toCreateRequest (schema : TableSchema) (namePrefix : String) : CreateTable where
  tableName := some (schema.fullName namePrefix)
  attributeDefinitions := some (schema.attributes.members.map fun definition =>
    ⟨definition.name, definition.wireType.tag⟩)
  keySchema := some (keySchema schema.hashKey.name (schema.rangeKey.map (·.name)))
  localIndexes := presentList (schema.localIndexes.map Index.toWire)
  globalIndexes := presentList (schema.globalIndexes.map fun index =>
    { index.toWire with throughput := some (index.throughput.getD Throughput.default) })
  throughput := some schema.throughput

/-- The name of a table without a prefix that stands in front of it. -/
def shortName (namePrefix fullName : String) : String :=
  let start := namePrefix.toList
  let full := fullName.toList
  if start.isPrefixOf full then String.ofList (full.drop start.length) else fullName

def ofDescription (description : TableDescription) (namePrefix : String) :
    Except SchemaError TableSchema := do
  let name := shortName namePrefix (description.tableName.getD "")
  let attributes ← Catalog.ofWire (description.attributeDefinitions.getD [])
  let elements := description.keySchema.getD []
  let hashName ← match keyName? hashPart elements with
    | some hashName => pure hashName
    | none => throw (.missingHashKey name)
  let hashKey ← attributes.lookup name hashName
  let rangeKey ← (keyName? rangePart elements).mapM (attributes.lookup name)
  let localIndexes := (description.localIndexes.getD []).map (Index.ofLocal hashKey.name)
  let globalIndexes ← (description.globalIndexes.getD []).mapM Index.ofGlobal
  (localIndexes ++ globalIndexes).forM (Index.check attributes)
  return {
    name, hashKey, rangeKey, localIndexes, globalIndexes, attributes
    throughput := describedThroughput description.throughput
    status := description.status
    itemCount := description.itemCount.getD 0
    decreasesToday := (description.throughput.bind (·.decreasesToday)).getD 0 }

end TableSchema

end AttributeStore
