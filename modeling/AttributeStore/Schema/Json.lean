import AttributeStore.Json
import AttributeStore.Schema

/-!
# Schemas as JSON

A schema as it is shown to people and tools, with its catalog in the order of registration.
-/

namespace AttributeStore

/-- An attribute definition as a pair of name and tag. -/
def AttributeDefinition.toJson (definition : AttributeDefinition) : Json :=
  .array [.string definition.name, .string definition.wireType.tag]

def throughputJson (throughput : Wire.Throughput) : Json :=
  .object [("read", .ofInt throughput.read), ("write", .ofInt throughput.write)]

def Projection.toJson : Projection → Json
  | all => .string "ALL"
  | keysOnly => .string "KEYS_ONLY"
  | listed names => .object [("INCLUDE", .array (names.map .string))]

def IndexKind.name : IndexKind → String
  | localIndex => "local"
  | globalIndex => "global"

def Index.toJson (index : Index) : Json :=
  .object [("name", .string index.name), ("kind", .string index.kind.name),
    ("hash_key", .string index.hashKey), ("range_key", .ofText? index.rangeKey),
    ("projection", index.projection.toJson),
    ("throughput", .orNull throughputJson index.throughput)]

def TableSchema.toJson (schema : TableSchema) : Json :=
  .object [("name", .string schema.name), ("hash_key", schema.hashKey.toJson),
    ("range_key", .orNull AttributeDefinition.toJson schema.rangeKey),
    ("local_indexes", .array (schema.localIndexes.map Index.toJson)),
    ("global_indexes", .array (schema.globalIndexes.map Index.toJson)),
    ("attributes", .array (schema.attributes.members.map fun definition =>
      .array [.string definition.name, .string definition.name,
        .string definition.wireType.tag])),
    ("throughput", throughputJson schema.throughput), ("status", .ofText? schema.status),
    ("item_count", .ofInt schema.itemCount), ("decreases_today", .ofInt schema.decreasesToday)]

end AttributeStore
