import AttributeStore.Value
import AttributeStore.Wire.Table

/-!
# Operations of the store

The ten operations, the request that each takes and the reply that it gives. Members that a
caller may leave unset are optional in requests, and members that the store may leave out are
optional in replies.
-/

namespace AttributeStore.Wire

structure CreateTable where
  tableName : Option String := none
  attributeDefinitions : Option (List AttributeElement) := none
  keySchema : Option (List KeyElement) := none
  localIndexes : Option (List LocalIndex) := none
  globalIndexes : Option (List GlobalIndex) := none
  throughput : Option Throughput := none
  billingMode : Option String := none
  /-- Whether changes are streamed, and in which view. -/
  stream : Option (Bool × Option String) := none
  tags : Option (List (String × String)) := none
  deletionProtection : Option Bool := none
deriving DecidableEq

/-- A request that names only a table. -/
structure TableRequest where
  tableName : Option String := none
deriving DecidableEq

/-- A change of the capacity of a global index. -/
structure GlobalIndexUpdate where
  indexName : String
  throughput : Option Throughput
deriving DecidableEq

structure UpdateTable where
  tableName : Option String := none
  throughput : Option Throughput := none
  globalIndexUpdates : Option (List (Option GlobalIndexUpdate)) := none
  billingMode : Option String := none
  deletionProtection : Option Bool := none
deriving DecidableEq

structure GetItem where
  tableName : Option String := none
  key : Option WireItem := none
  consistentRead : Option Bool := none
  projectionExpression : Option String := none
  names : Option (Named String) := none
  attributesToGet : Option (List String) := none
  returnConsumedCapacity : Option String := none
deriving DecidableEq

structure PutItem where
  tableName : Option String := none
  item : Option WireItem := none
  conditionExpression : Option String := none
  names : Option (Named String) := none
  values : Option (Named Attribute) := none
  returnValues : Option String := none
  returnConsumedCapacity : Option String := none
deriving DecidableEq

structure DeleteItem where
  tableName : Option String := none
  key : Option WireItem := none
  conditionExpression : Option String := none
  names : Option (Named String) := none
  values : Option (Named Attribute) := none
  returnValues : Option String := none
  returnConsumedCapacity : Option String := none
deriving DecidableEq

/-- The members that requests to read many items share. -/
structure ReadMany where
  tableName : Option String := none
  indexName : Option String := none
  filterExpression : Option String := none
  projectionExpression : Option String := none
  names : Option (Named String) := none
  values : Option (Named Attribute) := none
  select : Option String := none
  limit : Option Int := none
  consistentRead : Option Bool := none
  exclusiveStartKey : Option WireItem := none
  attributesToGet : Option (List String) := none
  returnConsumedCapacity : Option String := none
deriving DecidableEq

/-- A request to read the items of one hash key. -/
structure Query extends ReadMany where
  keyConditionExpression : Option String := none
  scanIndexForward : Option Bool := none
deriving DecidableEq

structure Scan extends ReadMany where
  segment : Option Int := none
  totalSegments : Option Int := none
deriving DecidableEq

structure WriteRequest where
  /-- The item to write. -/
  put : Option WireItem := none
  /-- The key of the item to delete. -/
  delete : Option WireItem := none
deriving DecidableEq

structure BatchWrite where
  requestItems : Option (Named (List WriteRequest)) := none
  returnConsumedCapacity : Option String := none
  returnItemCollectionMetrics : Option String := none
deriving DecidableEq

/-- A reply with the description of a table. -/
structure TableReply where
  description : Option TableDescription := none
deriving DecidableEq

structure ItemReply where
  item : Option WireItem := none
deriving DecidableEq

/-- A reply with the item that stood where one was written or deleted. -/
structure WriteReply where
  attributes : Option WireItem := none
deriving DecidableEq

structure PageReply where
  items : Option (List WireItem) := none
  count : Int := 0
  scannedCount : Int := 0
  lastEvaluatedKey : Option WireItem := none
deriving DecidableEq

/-- A reply with the writes of a batch that were left undone. -/
structure BatchReply where
  unprocessed : Option (Named (List WriteRequest)) := none
deriving DecidableEq

inductive Operation
  | createTable
  | describeTable
  | updateTable
  | deleteTable
  | getItem
  | putItem
  | deleteItem
  | query
  | scan
  | batchWriteItem
deriving DecidableEq, Repr

namespace Operation

def all : List Operation :=
  [createTable, describeTable, updateTable, deleteTable, getItem, putItem, deleteItem, query,
    scan, batchWriteItem]

/-- The name of an operation in messages. -/
def name : Operation → String
  | createTable => "create_table"
  | describeTable => "describe_table"
  | updateTable => "update_table"
  | deleteTable => "delete_table"
  | getItem => "get_item"
  | putItem => "put_item"
  | deleteItem => "delete_item"
  | query => "query"
  | scan => "scan"
  | batchWriteItem => "batch_write_item"

def ofName? (text : String) : Option Operation :=
  all.find? fun operation => operation.name = text

def Request : Operation → Type
  | createTable => CreateTable
  | describeTable | deleteTable => TableRequest
  | updateTable => UpdateTable
  | getItem => GetItem
  | putItem => PutItem
  | deleteItem => DeleteItem
  | query => Query
  | scan => Scan
  | batchWriteItem => BatchWrite

def Reply : Operation → Type
  | createTable | describeTable | updateTable | deleteTable => TableReply
  | getItem => ItemReply
  | putItem | deleteItem => WriteReply
  | query | scan => PageReply
  | batchWriteItem => BatchReply

end Operation

end AttributeStore.Wire
