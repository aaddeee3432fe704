import AttributeStore.Selection.Rendering
import AttributeStore.Value.Json
import AttributeStore.Wire.OperationJson

/-!
# Selections as JSON

A selection and its rendering as they are shown to people and tools.
-/

namespace AttributeStore

open Wire (Blob)

def Condition.toJson (blob : Blob) (condition : Condition) : Json :=
  .object [("name", .string condition.name), ("comparison", .string condition.comparison.symbol),
    ("operands", .array (condition.comparison.operands.map (Value.toJson blob))),
    ("role", .string condition.role.name), ("operator", .string condition.connective.text)]

def Selection.toJson (blob : Blob) (selection : Selection) : Json :=
  .object [
    ("key_conditions", .array (selection.keyConditions.members.map (Condition.toJson blob))),
    ("filter_conditions", .array (selection.filterConditions.members.map (Condition.toJson blob))),
    ("index_name", .ofText? selection.indexName), ("limit", .orNull .ofInt selection.limit),
    ("consistent_read", .orNull .bool selection.consistentRead),
    ("descending", .bool selection.descending),
    ("start_key", .orNull (Item.toJson blob) selection.startKey),
    ("projection", .array (selection.projection.map .string))]

def Rendering.toJson (blob : Blob) (rendering : Rendering) : Json :=
  .object [("key_condition_expression", .ofText? rendering.keyCondition),
    ("filter_expression", .ofText? rendering.filter),
    ("projection_expression", .ofText? rendering.projection),
    ("names", .orNull Wire.namesToJson rendering.names),
    ("values", .orNull (Wire.itemToJson blob) rendering.values)]

end AttributeStore
