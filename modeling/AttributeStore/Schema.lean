import AttributeStore.Error
import AttributeStore.Roster
import AttributeStore.Wire.Table

/-!
# Table schemas

A schema names the key attributes of a table and of its indexes, and keeps a catalog of every
attribute that some key refers to. It grows step by step from its hash key; a step that fails
gives no schema.
-/

namespace AttributeStore

open Wire (Throughput)

structure AttributeDefinition where
  name : String
  wireType : WireType
deriving DecidableEq, Repr

/-- Attributes in the order of their registration, no two of one name. -/
abbrev Catalog := Roster AttributeDefinition.name

inductive Projection
  | all
  | keysOnly
  | listed (names : List String)
deriving DecidableEq, Repr

/-- Whether an index shares the hash key of its table or has one of its own. -/
inductive IndexKind
  | localIndex
  | globalIndex
deriving DecidableEq, Repr

structure Index where
  name : String
  kind : IndexKind
  /-- The name of the hash key attribute. -/
  hashKey : String
  /-- The name of the range key attribute. -/
  rangeKey : Option String
  projection : Projection
  /-- The capacity, for global indexes. -/
  throughput : Option Throughput
deriving DecidableEq, Repr

structure TableSchema where
  /-- The name of the table without the prefix of its registry. -/
  name : String
  hashKey : AttributeDefinition
  rangeKey : Option AttributeDefinition
  localIndexes : List Index
  globalIndexes : List Index
  attributes : Catalog
  throughput : Throughput
  /-- The status that the store last told. -/
  status : Option String
  /-- The number of items that the store last told. -/
  itemCount : Int
  /-- How often the capacity was lowered today, as the store last told. -/
  decreasesToday : Int
deriving DecidableEq

namespace TableSchema

/-- A schema whose only attribute is its hash key. -/
def withHashKey (name : String) (hashKey : AttributeDefinition) : TableSchema where
  name := name
  hashKey := hashKey
  rangeKey := none
  localIndexes := []
  globalIndexes := []
  attributes := Roster.empty.add hashKey
  throughput := Throughput.default
  status := none
  itemCount := 0
  decreasesToday := 0

/-- The schema with an attribute registered, unless one of its name is. -/
def addAttribute (schema : TableSchema) (definition : AttributeDefinition) : TableSchema :=
  { schema with attributes := schema.attributes.add definition }

def addRangeKey (schema : TableSchema) (rangeKey : AttributeDefinition) : TableSchema :=
  { schema.addAttribute rangeKey with rangeKey := some rangeKey }

def setThroughput (schema : TableSchema) (throughput : Throughput) : TableSchema :=
  { schema with throughput }

/-- The schema with an index that shares the table's hash key; the table has to have a range
key. -/
def addLocalIndex (schema : TableSchema) (name : String) (rangeKey : AttributeDefinition) :
    Except SchemaError TableSchema :=
  if schema.rangeKey.isNone then .error (.localIndexWithoutRangeKey name)
  else
    let index : Index :=
      { name, kind := .localIndex, hashKey := schema.hashKey.name, rangeKey := rangeKey.name,
        projection := .all, throughput := none }
    .ok { schema.addAttribute rangeKey with localIndexes := schema.localIndexes ++ [index] }

/-- The schema with an index that has a hash key of its own and perhaps a range key. -/
def addGlobalIndex (schema : TableSchema) (name : String) (keys : List AttributeDefinition) :
    Except SchemaError TableSchema :=
  match keys with
  | [hashKey] =>
    let index : Index :=
      { name, kind := .globalIndex, hashKey := hashKey.name, rangeKey := none,
        projection := .all, throughput := some Throughput.default }
    .ok { schema.addAttribute hashKey with globalIndexes := schema.globalIndexes ++ [index] }
  | [hashKey, rangeKey] =>
    let index : Index :=
      { name, kind := .globalIndex, hashKey := hashKey.name, rangeKey := some rangeKey.name,
        projection := .all, throughput := some Throughput.default }
    .ok { (schema.addAttribute hashKey).addAttribute rangeKey with
      globalIndexes := schema.globalIndexes ++ [index] }
  | _ => .error (.indexKeyCount name keys.length)

/-- The index of a name, a local one before a global one. -/
def index? (schema : TableSchema) (name : String) : Option Index :=
  (schema.localIndexes ++ schema.globalIndexes).find? fun index => index.name = name

def modifyFirst (name : String) (change : Index → Index) : List Index → List Index
  | [] => []
  | index :: rest =>
    if index.name = name then change index :: rest
    else index :: modifyFirst name change rest

def modifyIndex? (schema : TableSchema) (name : String) (change : Index → Index) :
    Option TableSchema :=
  if schema.localIndexes.any fun index => index.name = name then
    some { schema with localIndexes := modifyFirst name change schema.localIndexes }
  else if schema.globalIndexes.any fun index => index.name = name then
    some { schema with globalIndexes := modifyFirst name change schema.globalIndexes }
  else none

def fullName (schema : TableSchema) (namePrefix : String) : String :=
  namePrefix ++ schema.name

end TableSchema

end AttributeStore
