import AttributeStore.Program
import AttributeStore.Store.Page

/-!
# The store as a backend

What each operation answers and how it changes the tables. A refused operation changes no table,
but a batch keeps what it wrote before a table was found missing. A read that panics has no answer:
it leaves a mark in the state, and the error given in its place is only the message of the panic.
-/

namespace AttributeStore.Store

open Wire

namespace State

def createTable (request : CreateTable) (state : State) :
    Except BackendError TableReply × State :=
  let name := request.tableName.getD ""
  if state.tables.contains name then
    (.error ⟨s!"ResourceInUseException: Table already exists: {name}"⟩, state)
  else
    let description := describeCreated request
    let table := { description, keys := keyNames (request.keySchema.getD []), items := [] }
    (.ok { description := some description }, state.setTable name table)

/-- Describes a table with the number of its items. -/
def describeTable (request : TableRequest) (state : State) :
    Except BackendError TableReply × State :=
  let state := { state with describeCalls := state.describeCalls + 1 }
  let reply := (state.table (request.tableName.getD "")).map fun table =>
    { description := some { table.description with itemCount := some table.items.length } }
  (reply, state)

/-- The described capacity of a table after a change; a decrease of either part is counted. -/
def changedThroughput (current : Option ThroughputDescription) (wanted : Throughput) :
    ThroughputDescription :=
  let decreased := current.any fun current =>
    wanted.read < current.read.getD 0 || wanted.write < current.write.getD 0
  let before := (current.bind (·.decreasesToday)).getD 0
  describeThroughput wanted (before + if decreased then 1 else 0)

def updateTable (request : UpdateTable) (state : State) :
    Except BackendError TableReply × State :=
  let name := request.tableName.getD ""
  match state.table name with
  | .error cause => (.error cause, state)
  | .ok table =>
    let description := match request.throughput with
      | none => table.description
      | some wanted =>
        { table.description with
          throughput := some (changedThroughput table.description.throughput wanted) }
    (.ok { description := some description }, state.setTable name { table with description })

def deleteTable (request : TableRequest) (state : State) :
    Except BackendError TableReply × State :=
  let name := request.tableName.getD ""
  match state.table name with
  | .error cause => (.error cause, state)
  | .ok table =>
    (.ok { description := some table.description },
      { state with tables := state.tables.erase name })

def getItem (request : GetItem) (state : State) : Except BackendError ItemReply × State :=
  let reply := (state.table (request.tableName.getD "")).map fun table =>
    { item := (table.find? (request.key.getD ∅)).map
        (project request.projectionExpression ⟨request.names, none⟩) }
  (reply, state)

/-- Writes one item if its key is complete and the condition holds of the item that it
replaces. -/
def putItem (request : PutItem) (state : State) : Except BackendError WriteReply × State :=
  let name := request.tableName.getD ""
  match state.table name with
  | .error cause => (.error cause, state)
  | .ok table =>
    let item := request.item.getD ∅
    let key := table.keyOf item
    if key.size ≠ table.keySize then
      (.error ⟨"ValidationException: One of the required keys was not given a value"⟩, state)
    else
      let existing := (table.find? key).getD ∅
      match evaluate request.conditionExpression ⟨request.names, request.values⟩ existing with
      | .error cause => (.error cause, state)
      | .ok false =>
        (.error ⟨"ConditionalCheckFailedException: The conditional request failed"⟩, state)
      | .ok true => (.ok {}, state.setTable name (table.put item))

def deleteItem (request : DeleteItem) (state : State) :
    Except BackendError WriteReply × State :=
  let key := request.key.getD ∅
  if key ∈ state.failingDeletes then
    (.error ⟨"ProvisionedThroughputExceededException: delete rejected"⟩, state)
  else
    let name := request.tableName.getD ""
    match state.table name with
    | .error cause => (.error cause, state)
    | .ok table =>
      (.ok { attributes := table.find? key }, state.setTable name (table.delete key))

/-- The parts of a page request that queries and scans share. -/
def pageRequest (state : State) (request : ReadMany) : PageRequest where
  indexName := request.indexName
  keyCondition := none
  filter := request.filterExpression
  placeholders := ⟨request.names, request.values⟩
  limit := request.limit
  pageSize := state.pageSize
  descending := false
  startKey := request.exclusiveStartKey

/-- The message of a sort that panics. -/
def sortPanic : BackendError :=
  ⟨"user-provided comparison function does not correctly implement a total order"⟩

/-- Reads a page that is asked for, unless the read is refused. -/
def answerPage (asked : Except BackendError (StoredTable × PageRequest))
    (reply : Page → PageReply) (state : State) : Except BackendError PageReply × State :=
  match asked with
  | .error cause => (.error cause, state)
  | .ok (table, request) =>
    match readPage table request with
    | none => (.error sortPanic, { state with panicked := true })
    | some page => (page.map reply, state)

def queriedPage (request : Query) (state : State) :
    Except BackendError (StoredTable × PageRequest) := do
  let table ← state.table (request.tableName.getD "")
  if request.keyConditionExpression.isNone then
    throw ⟨"ValidationException: Query requires a KeyConditionExpression"⟩
  if request.select = some countSelect && request.projectionExpression.isSome then
    throw ⟨"ValidationException: Cannot specify the AttributesToGet when choosing to get only " ++
      "the Count"⟩
  return (table, { state.pageRequest request.toReadMany with
    keyCondition := request.keyConditionExpression
    descending := request.scanIndexForward = some false })

def queryPage (request : Query) (state : State) : Except BackendError PageReply × State :=
  state.answerPage (state.queriedPage request)
    (pageReply request.select request.projectionExpression ⟨request.names, request.values⟩)

def scanPage (request : Scan) (state : State) : Except BackendError PageReply × State :=
  state.answerPage
    ((state.table (request.tableName.getD "")).map (·, state.pageRequest request.toReadMany))
    (pageReply request.select request.projectionExpression ⟨request.names, request.values⟩)

/-- Counts a scan and reads its page, unless it is to be refused. -/
def scan (request : Scan) (state : State) : Except BackendError PageReply × State :=
  let counted := { state with scanCalls := state.scanCalls + 1 }
  if state.scanCalls ∈ state.failingScans then
    (.error ⟨"ProvisionedThroughputExceededException: scan rejected"⟩, counted)
  else counted.scanPage request

def applyWrite (table : StoredTable) (write : WriteRequest) : StoredTable :=
  match write.put, write.delete with
  | some item, _ => table.put item
  | none, some key => table.delete key
  | none, none => table

/-- Applies the writes of a batch table by table, and gives those that are left undone. -/
def applyWrites : List (String × List WriteRequest) → State →
    Except BackendError (List (String × List WriteRequest)) × State
  | [], state => (.ok [], state)
  | (name, writes) :: rest, state =>
    match state.table name with
    | .error cause => (.error cause, state)
    | .ok table =>
      let processed := writes.length - state.unprocessedPerBatch
      let state := state.setTable name ((writes.take processed).foldl applyWrite table)
      let undone := writes.drop processed
      let (later, state) := applyWrites rest state
      (later.map fun others => if undone.isEmpty then others else (name, undone) :: others, state)

/-- Writes a batch, unless it is too large or to be refused. -/
def batchWriteItem (request : BatchWrite) (state : State) :
    Except BackendError BatchReply × State :=
  let writes := (request.requestItems.getD ∅).entries
  let size := (writes.flatMap Prod.snd).length
  let call := state.batchSizes.length
  let state := { state with batchSizes := state.batchSizes ++ [size] }
  if 25 < size then
    (.error ⟨"ValidationException: Too many items requested for the BatchWriteItem call"⟩, state)
  else if call ∈ state.failingBatches then
    (.error ⟨"ProvisionedThroughputExceededException: batch rejected"⟩, state)
  else
    let (undone, state) := applyWrites writes state
    (undone.map fun undone => { unprocessed := (Named.ofList undone).present }, state)

end State

def backend : Backend State where
  answer
    | .createTable, request, state => state.createTable request
    | .describeTable, request, state => state.describeTable request
    | .updateTable, request, state => state.updateTable request
    | .deleteTable, request, state => state.deleteTable request
    | .getItem, request, state => state.getItem request
    | .putItem, request, state => state.putItem request
    | .deleteItem, request, state => state.deleteItem request
    | .query, request, state => state.queryPage request
    | .scan, request, state => state.scan request
    | .batchWriteItem, request, state => state.batchWriteItem request

end AttributeStore.Store
