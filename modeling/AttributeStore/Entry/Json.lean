import AttributeStore.Batch
import AttributeStore.Entry
import AttributeStore.Value.Json

/-!
# Staged writes as JSON

An entry as it is shown to people and tools, its expectations in their order.
-/

namespace AttributeStore

open Wire (Blob)

def Precondition.toJson (blob : Blob) : Precondition → Json
  | present => .string "Exists"
  | absent => .string "NotExists"
  | equals value => .object [("Equals", value.toJson blob)]

def Entry.toJson (blob : Blob) (entry : Entry) : Json :=
  .object [("item", Wire.itemToJson blob entry.item),
    ("expected", .array (entry.expected.members.map fun (name, wanted) =>
      .array [.string name, wanted.toJson blob]))]

/-- A write of a batch as JSON: what is done, and with which item or key. -/
def Write.toJson (blob : Blob) : Write → Json
  | put item => .array [.string "put", Wire.itemToJson blob item]
  | delete key => .array [.string "delete", Wire.itemToJson blob key]

end AttributeStore
