import AttributeStore.Program
import AttributeStore.Schema.Key
import AttributeStore.Selection.Rendering

/-!
# Reads

The requests of point lookups, queries and scans, and what comes back from them.
-/

namespace AttributeStore

open Wire (Operation)

/-- A call that concerns one table. A failure is reported and told with its operation and
table. -/
def callTable (operation : Operation) (table : String) (request : operation.Request) :
    Program (Except Error operation.Reply) := do
  match ← Program.send operation request with
  | .ok reply => return .ok reply
  | .error cause =>
    Program.emit {
      level := .error, message := "wire call failed", table, operation := operation.name,
      detail := some ("error", cause.message) }
    return .error (.wire operation.name table cause)

def getItemRequest (key : PrimaryKey) (table : String) (consistentRead : Option Bool)
    (projection : List String) : Except CodecError Wire.GetItem := do
  let wireKey ← key.encode
  let projected := Fragment.projection projection
  return {
    tableName := some table, key := some wireKey, consistentRead
    projectionExpression := projected.text?
    names := projected.names.present }

def readManyRequest (selection : Selection) (rendering : Rendering) (select : Option String)
    (table : String) : Except Error Wire.ReadMany := do
  let startKey ← (selection.startKey.mapM Item.encode).mapError Error.codec
  return {
    tableName := some table
    indexName := selection.indexName
    filterExpression := rendering.filter
    projectionExpression := rendering.projection
    names := rendering.names
    values := rendering.values
    select
    limit := selection.limit
    consistentRead := selection.consistentRead
    exclusiveStartKey := startKey }

def queryRequest (selection : Selection) (attributes : Catalog) (select : Option String)
    (table : String) : Except Error Wire.Query := do
  let rendering ← selection.render .query attributes
  return { ← readManyRequest selection rendering select table with
    keyConditionExpression := rendering.keyCondition
    scanIndexForward := if selection.descending then some false else none }

def scanRequest (selection : Selection) (attributes : Catalog) (select : Option String)
    (table : String) : Except Error Wire.Scan := do
  let rendering ← selection.render .scan attributes
  return { ← readManyRequest selection rendering select table with }

/-- One page of rows and where the next one begins. -/
structure ReadOutput where
  /-- The rows in wire form; none for a count. -/
  rows : List WireItem
  /-- How many items passed the filter. -/
  count : Int
  /-- How many items were evaluated. -/
  scannedCount : Int
  /-- The key after which the next page begins, if there is one. -/
  lastEvaluatedKey : Option Item

namespace ReadOutput

def ofReply (reply : Wire.PageReply) : ReadOutput where
  rows := reply.items.getD []
  count := reply.count
  scannedCount := reply.scannedCount
  lastEvaluatedKey := reply.lastEvaluatedKey.map WireItem.decode

/-- The rows as dynamic values. -/
def items (output : ReadOutput) : List Item :=
  output.rows.map WireItem.decode

end ReadOutput

def sendIfOk {α β : Type} (request : Except Error α) (send : α → Program (Except Error β)) :
    Program (Except Error β) :=
  match request with
  | .error cause => return .error cause
  | .ok request => send request

def runQuery (selection : Selection) (attributes : Catalog) (select : Option String)
    (table : String) : Program (Except Error ReadOutput) :=
  sendIfOk (queryRequest selection attributes select table) fun request => do
    return (← callTable .query table request).map ReadOutput.ofReply

def runScan (selection : Selection) (attributes : Catalog) (select : Option String)
    (table : String) : Program (Except Error ReadOutput) :=
  sendIfOk (scanRequest selection attributes select table) fun request => do
    return (← callTable .scan table request).map ReadOutput.ofReply

def runGetItem (key : PrimaryKey) (table : String) : Program (Except Error (Option Item)) :=
  sendIfOk ((getItemRequest key table none []).mapError Error.codec) fun request => do
    return (← callTable .getItem table request).map fun reply =>
      Option.map WireItem.decode (Wire.ItemReply.item reply)

end AttributeStore
