/-!
# Tables on the wire

The parts of which requests to create tables and descriptions of tables are made. A description
may lack any of its parts. Key types, attribute types, projection types and statuses are open
texts on the wire; their reading is left to those who need it.
-/

namespace AttributeStore.Wire

/-- A key attribute and its part in the key. -/
structure KeyElement where
  name : String
  keyType : String
deriving DecidableEq, Repr

structure AttributeElement where
  name : String
  attributeType : String
deriving DecidableEq, Repr

structure Throughput where
  read : Int
  write : Int
deriving DecidableEq, Repr

/-- The capacity of a table or index that sets none. -/
def Throughput.default : Throughput := ⟨1, 1⟩

structure ThroughputDescription where
  read : Option Int
  write : Option Int
  /-- How often the capacity was lowered today. -/
  decreasesToday : Option Int
deriving DecidableEq, Repr

structure ProjectionElement where
  projectionType : Option String
  nonKeyAttributes : Option (List String)
deriving DecidableEq, Repr

structure LocalIndex where
  name : String
  keySchema : List KeyElement
  projection : Option ProjectionElement
deriving DecidableEq, Repr

structure GlobalIndex extends LocalIndex where
  throughput : Option Throughput
deriving DecidableEq, Repr

structure LocalIndexDescription where
  name : Option String
  keySchema : Option (List KeyElement)
  projection : Option ProjectionElement
deriving DecidableEq, Repr

structure GlobalIndexDescription extends LocalIndexDescription where
  throughput : Option ThroughputDescription
  status : Option String
deriving DecidableEq, Repr

structure TableDescription where
  tableName : Option String
  attributeDefinitions : Option (List AttributeElement)
  keySchema : Option (List KeyElement)
  localIndexes : Option (List LocalIndexDescription)
  globalIndexes : Option (List GlobalIndexDescription)
  throughput : Option ThroughputDescription
  status : Option String
  itemCount : Option Int
deriving DecidableEq, Repr

def presentList {α : Type} (list : List α) : Option (List α) :=
  if list.isEmpty then none else some list

/-- The status of a table that can be used and changed. -/
def activeStatus : String := "ACTIVE"

/-- The part of the first attribute of a key. -/
def hashPart : String := "HASH"

/-- The part of the second attribute of a key. -/
def rangePart : String := "RANGE"

/-- The text that asks a read for its count alone. -/
def countSelect : String := "COUNT"

end AttributeStore.Wire
