import AttributeStore.Wire.Attribute
import AttributeStore.Wire.Operation
import AttributeStore.Wire.TableJson

/-!
# Requests and replies as JSON

Each request and each reply as a JSON object and back. A member that is unset is left out, one
that is set but empty is written.
-/

namespace AttributeStore.Wire

open Json (ofMembers optional withDefault)

def namesToJson (names : Named String) : Json :=
  Json.ofNamed .string names

def namesOfJson? (value : Json) : Option (Named String) :=
  value.named? Json.text?

def CreateTable.toJson (request : CreateTable) : Json :=
  ofMembers [("TableName", request.tableName.map .string),
    ("AttributeDefinitions",
      request.attributeDefinitions.map fun list => .array (list.map AttributeElement.toJson)),
    ("KeySchema", request.keySchema.map keySchemaToJson),
    ("LocalSecondaryIndexes",
      request.localIndexes.map fun list => .array (list.map LocalIndex.toJson)),
    ("GlobalSecondaryIndexes",
      request.globalIndexes.map fun list => .array (list.map GlobalIndex.toJson)),
    ("ProvisionedThroughput", request.throughput.map Throughput.toJson),
    ("BillingMode", request.billingMode.map .string),
    ("StreamSpecification", request.stream.map fun (enabled, view) =>
      ofMembers [("StreamEnabled", some (.bool enabled)), ("StreamViewType", view.map .string)]),
    ("Tags", request.tags.map fun list => .array (list.map fun (key, value) =>
      .object [("Key", .string key), ("Value", .string value)])),
    ("DeletionProtectionEnabled", request.deletionProtection.map .bool)]

/-- Whether changes are streamed, and in which view. -/
def streamOfJson? (value : Json) : Option (Bool × Option String) := do
  return (← withDefault value "StreamEnabled" false Json.bool?,
    ← optional value "StreamViewType" Json.text?)

def tagOfJson? (value : Json) : Option (String × String) := do
  return (← withDefault value "Key" "" Json.text?, ← withDefault value "Value" "" Json.text?)

def CreateTable.ofJson? (value : Json) : Option CreateTable := do
  return {
    tableName := ← optional value "TableName" Json.text?
    attributeDefinitions :=
      ← optional value "AttributeDefinitions" (Json.list? AttributeElement.ofJson?)
    keySchema := ← optional value "KeySchema" keySchemaOfJson?
    localIndexes := ← optional value "LocalSecondaryIndexes" (Json.list? LocalIndex.ofJson?)
    globalIndexes := ← optional value "GlobalSecondaryIndexes" (Json.list? GlobalIndex.ofJson?)
    throughput := ← optional value "ProvisionedThroughput" Throughput.ofJson?
    billingMode := ← optional value "BillingMode" Json.text?
    stream := ← optional value "StreamSpecification" streamOfJson?
    tags := ← optional value "Tags" (Json.list? tagOfJson?)
    deletionProtection := ← optional value "DeletionProtectionEnabled" Json.bool? }

def TableRequest.toJson (request : TableRequest) : Json :=
  ofMembers [("TableName", request.tableName.map .string)]

def TableRequest.ofJson? (value : Json) : Option TableRequest := do
  return { tableName := ← optional value "TableName" Json.text? }

def GlobalIndexUpdate.toJson (update : GlobalIndexUpdate) : Json :=
  ofMembers [("IndexName", some (.string update.indexName)),
    ("ProvisionedThroughput", update.throughput.map Throughput.toJson)]

def GlobalIndexUpdate.ofJson? (value : Json) : Option GlobalIndexUpdate := do
  return {
    indexName := ← withDefault value "IndexName" "" Json.text?
    throughput := ← optional value "ProvisionedThroughput" Throughput.ofJson? }

def UpdateTable.toJson (request : UpdateTable) : Json :=
  ofMembers [("TableName", request.tableName.map .string),
    ("ProvisionedThroughput", request.throughput.map Throughput.toJson),
    ("GlobalSecondaryIndexUpdates", request.globalIndexUpdates.map fun list =>
      .array (list.map fun update =>
        ofMembers [("Update", update.map GlobalIndexUpdate.toJson)])),
    ("BillingMode", request.billingMode.map .string),
    ("DeletionProtectionEnabled", request.deletionProtection.map .bool)]

def UpdateTable.ofJson? (value : Json) : Option UpdateTable := do
  return {
    tableName := ← optional value "TableName" Json.text?
    throughput := ← optional value "ProvisionedThroughput" Throughput.ofJson?
    globalIndexUpdates := ← optional value "GlobalSecondaryIndexUpdates"
      (Json.list? fun update => optional update "Update" GlobalIndexUpdate.ofJson?)
    billingMode := ← optional value "BillingMode" Json.text?
    deletionProtection := ← optional value "DeletionProtectionEnabled" Json.bool? }

def GetItem.toJson (blob : Blob) (request : GetItem) : Json :=
  ofMembers [("TableName", request.tableName.map .string),
    ("Key", request.key.map (itemToJson blob)),
    ("ConsistentRead", request.consistentRead.map .bool),
    ("ProjectionExpression", request.projectionExpression.map .string),
    ("ExpressionAttributeNames", request.names.map namesToJson),
    ("AttributesToGet", request.attributesToGet.map textsToJson),
    ("ReturnConsumedCapacity", request.returnConsumedCapacity.map .string)]

def GetItem.ofJson? (blob : Blob) (value : Json) : Option GetItem := do
  return {
    tableName := ← optional value "TableName" Json.text?
    key := ← optional value "Key" (itemOfJson? blob)
    consistentRead := ← optional value "ConsistentRead" Json.bool?
    projectionExpression := ← optional value "ProjectionExpression" Json.text?
    names := ← optional value "ExpressionAttributeNames" namesOfJson?
    attributesToGet := ← optional value "AttributesToGet" textsOfJson?
    returnConsumedCapacity := ← optional value "ReturnConsumedCapacity" Json.text? }

def PutItem.toJson (blob : Blob) (request : PutItem) : Json :=
  ofMembers [("TableName", request.tableName.map .string),
    ("Item", request.item.map (itemToJson blob)),
    ("ConditionExpression", request.conditionExpression.map .string),
    ("ExpressionAttributeNames", request.names.map namesToJson),
    ("ExpressionAttributeValues", request.values.map (itemToJson blob)),
    ("ReturnValues", request.returnValues.map .string),
    ("ReturnConsumedCapacity", request.returnConsumedCapacity.map .string)]

def PutItem.ofJson? (blob : Blob) (value : Json) : Option PutItem := do
  return {
    tableName := ← optional value "TableName" Json.text?
    item := ← optional value "Item" (itemOfJson? blob)
    conditionExpression := ← optional value "ConditionExpression" Json.text?
    names := ← optional value "ExpressionAttributeNames" namesOfJson?
    values := ← optional value "ExpressionAttributeValues" (itemOfJson? blob)
    returnValues := ← optional value "ReturnValues" Json.text?
    returnConsumedCapacity := ← optional value "ReturnConsumedCapacity" Json.text? }

def DeleteItem.toJson (blob : Blob) (request : DeleteItem) : Json :=
  ofMembers [("TableName", request.tableName.map .string),
    ("Key", request.key.map (itemToJson blob)),
    ("ConditionExpression", request.conditionExpression.map .string),
    ("ExpressionAttributeNames", request.names.map namesToJson),
    ("ExpressionAttributeValues", request.values.map (itemToJson blob)),
    ("ReturnValues", request.returnValues.map .string),
    ("ReturnConsumedCapacity", request.returnConsumedCapacity.map .string)]

def DeleteItem.ofJson? (blob : Blob) (value : Json) : Option DeleteItem := do
  return {
    tableName := ← optional value "TableName" Json.text?
    key := ← optional value "Key" (itemOfJson? blob)
    conditionExpression := ← optional value "ConditionExpression" Json.text?
    names := ← optional value "ExpressionAttributeNames" namesOfJson?
    values := ← optional value "ExpressionAttributeValues" (itemOfJson? blob)
    returnValues := ← optional value "ReturnValues" Json.text?
    returnConsumedCapacity := ← optional value "ReturnConsumedCapacity" Json.text? }

def ReadMany.members (blob : Blob) (request : ReadMany) : List (String × Option Json) :=
  [("TableName", request.tableName.map .string),
    ("IndexName", request.indexName.map .string),
    ("FilterExpression", request.filterExpression.map .string),
    ("ProjectionExpression", request.projectionExpression.map .string),
    ("ExpressionAttributeNames", request.names.map namesToJson),
    ("ExpressionAttributeValues", request.values.map (itemToJson blob)),
    ("Select", request.select.map .string),
    ("Limit", request.limit.map .ofInt),
    ("ConsistentRead", request.consistentRead.map .bool),
    ("ExclusiveStartKey", request.exclusiveStartKey.map (itemToJson blob)),
    ("AttributesToGet", request.attributesToGet.map textsToJson),
    ("ReturnConsumedCapacity", request.returnConsumedCapacity.map .string)]

def ReadMany.ofJson? (blob : Blob) (value : Json) : Option ReadMany := do
  return {
    tableName := ← optional value "TableName" Json.text?
    indexName := ← optional value "IndexName" Json.text?
    filterExpression := ← optional value "FilterExpression" Json.text?
    projectionExpression := ← optional value "ProjectionExpression" Json.text?
    names := ← optional value "ExpressionAttributeNames" namesOfJson?
    values := ← optional value "ExpressionAttributeValues" (itemOfJson? blob)
    select := ← optional value "Select" Json.text?
    limit := ← optional value "Limit" int32OfJson?
    consistentRead := ← optional value "ConsistentRead" Json.bool?
    exclusiveStartKey := ← optional value "ExclusiveStartKey" (itemOfJson? blob)
    attributesToGet := ← optional value "AttributesToGet" textsOfJson?
    returnConsumedCapacity := ← optional value "ReturnConsumedCapacity" Json.text? }

def Query.toJson (blob : Blob) (request : Query) : Json :=
  ofMembers (request.members blob ++
    [("KeyConditionExpression", request.keyConditionExpression.map .string),
      ("ScanIndexForward", request.scanIndexForward.map .bool)])

def Query.ofJson? (blob : Blob) (value : Json) : Option Query := do
  return { ← ReadMany.ofJson? blob value with
    keyConditionExpression := ← optional value "KeyConditionExpression" Json.text?
    scanIndexForward := ← optional value "ScanIndexForward" Json.bool? }

def Scan.toJson (blob : Blob) (request : Scan) : Json :=
  ofMembers (request.members blob ++
    [("Segment", request.segment.map .ofInt),
      ("TotalSegments", request.totalSegments.map .ofInt)])

def Scan.ofJson? (blob : Blob) (value : Json) : Option Scan := do
  return { ← ReadMany.ofJson? blob value with
    segment := ← optional value "Segment" int32OfJson?
    totalSegments := ← optional value "TotalSegments" int32OfJson? }

def WriteRequest.toJson (blob : Blob) (request : WriteRequest) : Json :=
  ofMembers [("PutRequest", request.put.map fun item => .object [("Item", itemToJson blob item)]),
    ("DeleteRequest", request.delete.map fun key => .object [("Key", itemToJson blob key)])]

/-- One write of a batch; a write without its item or key has an empty one. -/
def WriteRequest.ofJson? (blob : Blob) (value : Json) : Option WriteRequest := do
  let value ← value.object?
  return {
    put := ← optional value "PutRequest" fun put => do
      withDefault (← put.object?) "Item" ∅ (itemOfJson? blob)
    delete := ← optional value "DeleteRequest" fun delete => do
      withDefault (← delete.object?) "Key" ∅ (itemOfJson? blob) }

def writesToJson (blob : Blob) (writes : Named (List WriteRequest)) : Json :=
  Json.ofNamed (fun list => .array (list.map (WriteRequest.toJson blob))) writes

def writesOfJson? (blob : Blob) (value : Json) : Option (Named (List WriteRequest)) :=
  value.named? (Json.list? (WriteRequest.ofJson? blob))

def BatchWrite.toJson (blob : Blob) (request : BatchWrite) : Json :=
  ofMembers [("RequestItems", request.requestItems.map (writesToJson blob)),
    ("ReturnConsumedCapacity", request.returnConsumedCapacity.map .string),
    ("ReturnItemCollectionMetrics", request.returnItemCollectionMetrics.map .string)]

def BatchWrite.ofJson? (blob : Blob) (value : Json) : Option BatchWrite := do
  return {
    requestItems := ← optional value "RequestItems" (writesOfJson? blob)
    returnConsumedCapacity := ← optional value "ReturnConsumedCapacity" Json.text?
    returnItemCollectionMetrics := ← optional value "ReturnItemCollectionMetrics" Json.text? }

def PageReply.toJson (blob : Blob) (reply : PageReply) : Json :=
  ofMembers [("Items", reply.items.map fun list => .array (list.map (itemToJson blob))),
    ("Count", some (.ofInt reply.count)), ("ScannedCount", some (.ofInt reply.scannedCount)),
    ("LastEvaluatedKey", reply.lastEvaluatedKey.map (itemToJson blob))]

def PageReply.ofJson? (blob : Blob) (value : Json) : Option PageReply := do
  return {
    items := ← optional value "Items" (Json.list? (itemOfJson? blob))
    count := ← withDefault value "Count" 0 int32OfJson?
    scannedCount := ← withDefault value "ScannedCount" 0 int32OfJson?
    lastEvaluatedKey := ← optional value "LastEvaluatedKey" (itemOfJson? blob) }

namespace Operation

def requestToJson (blob : Blob) : (operation : Operation) → operation.Request → Json
  | createTable, request => CreateTable.toJson request
  | describeTable, request | deleteTable, request => TableRequest.toJson request
  | updateTable, request => UpdateTable.toJson request
  | getItem, request => GetItem.toJson blob request
  | putItem, request => PutItem.toJson blob request
  | deleteItem, request => DeleteItem.toJson blob request
  | query, request => Query.toJson blob request
  | scan, request => Scan.toJson blob request
  | batchWriteItem, request => BatchWrite.toJson blob request

def requestOfJson? (blob : Blob) : (operation : Operation) → Json → Option operation.Request
  | createTable, value => CreateTable.ofJson? value
  | describeTable, value | deleteTable, value => TableRequest.ofJson? value
  | updateTable, value => UpdateTable.ofJson? value
  | getItem, value => GetItem.ofJson? blob value
  | putItem, value => PutItem.ofJson? blob value
  | deleteItem, value => DeleteItem.ofJson? blob value
  | query, value => Query.ofJson? blob value
  | scan, value => Scan.ofJson? blob value
  | batchWriteItem, value => BatchWrite.ofJson? blob value

/-- A table description in a member of a reply. -/
def tableReplyOfJson? (name : String) (value : Json) : Option TableReply := do
  return { description := ← optional value name TableDescription.ofJson? }

def replyToJson (blob : Blob) : (operation : Operation) → operation.Reply → Json
  | createTable, (reply : TableReply) | updateTable, reply | deleteTable, reply =>
    ofMembers [("TableDescription", reply.description.map TableDescription.toJson)]
  | describeTable, (reply : TableReply) =>
    ofMembers [("Table", reply.description.map TableDescription.toJson)]
  | getItem, (reply : ItemReply) => ofMembers [("Item", reply.item.map (itemToJson blob))]
  | putItem, (reply : WriteReply) | deleteItem, reply =>
    ofMembers [("Attributes", reply.attributes.map (itemToJson blob))]
  | query, (reply : PageReply) | scan, reply => reply.toJson blob
  | batchWriteItem, (reply : BatchReply) =>
    ofMembers [("UnprocessedItems", reply.unprocessed.map (writesToJson blob))]

def replyOfJson? (blob : Blob) : (operation : Operation) → Json → Option operation.Reply
  | createTable, value | updateTable, value | deleteTable, value =>
    tableReplyOfJson? "TableDescription" value
  | describeTable, value => tableReplyOfJson? "Table" value
  | getItem, value => do
    let reply : ItemReply := { item := ← optional value "Item" (itemOfJson? blob) }
    return reply
  | putItem, value | deleteItem, value => do
    let reply : WriteReply := { attributes := ← optional value "Attributes" (itemOfJson? blob) }
    return reply
  | query, value | scan, value => PageReply.ofJson? blob value
  | batchWriteItem, value => do
    let reply : BatchReply :=
      { unprocessed := ← optional value "UnprocessedItems" (writesOfJson? blob) }
    return reply

end Operation

end AttributeStore.Wire
