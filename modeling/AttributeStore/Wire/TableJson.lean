import AttributeStore.Json.Reader
import AttributeStore.Wire.Table

/-!
# Tables as JSON

The parts of table requests and descriptions as JSON and back. A required text that is missing
reads as empty, a required kind as one that nobody knows.
-/

namespace AttributeStore.Wire

open Json (ofMembers optional withDefault)
open Decimal (IntegerKind)

/-- The kind that stands for one that is missing. -/
def unsetKind : String := "no value was set"

def textsToJson (texts : List String) : Json :=
  .array (texts.map .string)

def textsOfJson? (value : Json) : Option (List String) :=
  value.list? Json.text?

def int64OfJson? (value : Json) : Option Int :=
  value.integerOf? .int64

def int32OfJson? (value : Json) : Option Int :=
  value.integerOf? ⟨true, 32⟩

def KeyElement.toJson (element : KeyElement) : Json :=
  .object [("AttributeName", .string element.name), ("KeyType", .string element.keyType)]

def KeyElement.ofJson? (value : Json) : Option KeyElement := do
  let value ← value.object?
  return {
    name := ← withDefault value "AttributeName" "" Json.text?
    keyType := ← withDefault value "KeyType" unsetKind Json.text? }

def AttributeElement.toJson (element : AttributeElement) : Json :=
  .object [("AttributeName", .string element.name),
    ("AttributeType", .string element.attributeType)]

def AttributeElement.ofJson? (value : Json) : Option AttributeElement := do
  let value ← value.object?
  return {
    name := ← withDefault value "AttributeName" "" Json.text?
    attributeType := ← withDefault value "AttributeType" unsetKind Json.text? }

def Throughput.toJson (throughput : Throughput) : Json :=
  .object [("ReadCapacityUnits", .ofInt throughput.read),
    ("WriteCapacityUnits", .ofInt throughput.write)]

def Throughput.ofJson? (value : Json) : Option Throughput := do
  let value ← value.object?
  return {
    read := ← withDefault value "ReadCapacityUnits" 0 int64OfJson?
    write := ← withDefault value "WriteCapacityUnits" 0 int64OfJson? }

def ThroughputDescription.toJson (throughput : ThroughputDescription) : Json :=
  ofMembers [("ReadCapacityUnits", throughput.read.map .ofInt),
    ("WriteCapacityUnits", throughput.write.map .ofInt),
    ("NumberOfDecreasesToday", throughput.decreasesToday.map .ofInt)]

def ThroughputDescription.ofJson? (value : Json) : Option ThroughputDescription := do
  let value ← value.object?
  return {
    read := ← optional value "ReadCapacityUnits" int64OfJson?
    write := ← optional value "WriteCapacityUnits" int64OfJson?
    decreasesToday := ← optional value "NumberOfDecreasesToday" int64OfJson? }

def ProjectionElement.toJson (projection : ProjectionElement) : Json :=
  ofMembers [("ProjectionType", projection.projectionType.map .string),
    ("NonKeyAttributes", projection.nonKeyAttributes.map textsToJson)]

def ProjectionElement.ofJson? (value : Json) : Option ProjectionElement := do
  let value ← value.object?
  return {
    projectionType := ← optional value "ProjectionType" Json.text?
    nonKeyAttributes := ← optional value "NonKeyAttributes" textsOfJson? }

def keySchemaToJson (elements : List KeyElement) : Json :=
  .array (elements.map KeyElement.toJson)

def keySchemaOfJson? (value : Json) : Option (List KeyElement) :=
  value.list? KeyElement.ofJson?

def LocalIndex.members (index : LocalIndex) : List (String × Option Json) :=
  [("IndexName", some (.string index.name)), ("KeySchema", some (keySchemaToJson index.keySchema)),
    ("Projection", index.projection.map ProjectionElement.toJson)]

def LocalIndex.toJson (index : LocalIndex) : Json :=
  ofMembers index.members

def LocalIndex.ofJson? (value : Json) : Option LocalIndex := do
  let value ← value.object?
  return {
    name := ← withDefault value "IndexName" "" Json.text?
    keySchema := ← withDefault value "KeySchema" [] keySchemaOfJson?
    projection := ← optional value "Projection" ProjectionElement.ofJson? }

def GlobalIndex.toJson (index : GlobalIndex) : Json :=
  ofMembers (index.members ++
    [("ProvisionedThroughput", index.throughput.map Throughput.toJson)])

def GlobalIndex.ofJson? (value : Json) : Option GlobalIndex := do
  return { ← LocalIndex.ofJson? value with
    throughput := ← optional value "ProvisionedThroughput" Throughput.ofJson? }

def LocalIndexDescription.members (index : LocalIndexDescription) : List (String × Option Json) :=
  [("IndexName", index.name.map .string), ("KeySchema", index.keySchema.map keySchemaToJson),
    ("Projection", index.projection.map ProjectionElement.toJson)]

def LocalIndexDescription.toJson (index : LocalIndexDescription) : Json :=
  ofMembers index.members

def LocalIndexDescription.ofJson? (value : Json) : Option LocalIndexDescription := do
  let value ← value.object?
  return {
    name := ← optional value "IndexName" Json.text?
    keySchema := ← optional value "KeySchema" keySchemaOfJson?
    projection := ← optional value "Projection" ProjectionElement.ofJson? }

def GlobalIndexDescription.toJson (index : GlobalIndexDescription) : Json :=
  ofMembers (index.members ++
    [("ProvisionedThroughput", index.throughput.map ThroughputDescription.toJson),
      ("IndexStatus", index.status.map .string)])

def GlobalIndexDescription.ofJson? (value : Json) : Option GlobalIndexDescription := do
  return { ← LocalIndexDescription.ofJson? value with
    throughput := ← optional value "ProvisionedThroughput" ThroughputDescription.ofJson?
    status := ← optional value "IndexStatus" Json.text? }

def TableDescription.toJson (table : TableDescription) : Json :=
  ofMembers [("TableName", table.tableName.map .string),
    ("AttributeDefinitions",
      table.attributeDefinitions.map fun list => .array (list.map AttributeElement.toJson)),
    ("KeySchema", table.keySchema.map keySchemaToJson),
    ("LocalSecondaryIndexes",
      table.localIndexes.map fun list => .array (list.map LocalIndexDescription.toJson)),
    ("GlobalSecondaryIndexes",
      table.globalIndexes.map fun list => .array (list.map GlobalIndexDescription.toJson)),
    ("ProvisionedThroughput", table.throughput.map ThroughputDescription.toJson),
    ("TableStatus", table.status.map .string),
    ("ItemCount", table.itemCount.map .ofInt)]

def TableDescription.ofJson? (value : Json) : Option TableDescription := do
  let value ← value.object?
  return {
    tableName := ← optional value "TableName" Json.text?
    attributeDefinitions :=
      ← optional value "AttributeDefinitions" (Json.list? AttributeElement.ofJson?)
    keySchema := ← optional value "KeySchema" keySchemaOfJson?
    localIndexes :=
      ← optional value "LocalSecondaryIndexes" (Json.list? LocalIndexDescription.ofJson?)
    globalIndexes :=
      ← optional value "GlobalSecondaryIndexes" (Json.list? GlobalIndexDescription.ofJson?)
    throughput := ← optional value "ProvisionedThroughput" ThroughputDescription.ofJson?
    status := ← optional value "TableStatus" Json.text?
    itemCount := ← optional value "ItemCount" int64OfJson? }

end AttributeStore.Wire
