import AttributeStore.Store.Expression
import AttributeStore.Wire.Operation

/-!
# The store

Tables in memory and the switches that make calls fail on purpose. A table keeps its items in
the order of their first writing; an item is found by its key, the part of it under the names of
the key attributes.
-/

namespace AttributeStore.Store

open Wire

structure StoredTable where
  description : TableDescription
  keys : KeyNames
  items : List WireItem

namespace StoredTable

/-- The part of an item that is its key. -/
def keyOf (table : StoredTable) (item : WireItem) : WireItem :=
  item.filterNames fun name => name = table.keys.hashKey || some name = table.keys.rangeKey

def keySize (table : StoredTable) : Nat :=
  1 + table.keys.rangeKey.toList.length

def position (table : StoredTable) (key : WireItem) : Option Nat :=
  table.items.findIdx? fun item => table.keyOf item = key

def find? (table : StoredTable) (key : WireItem) : Option WireItem :=
  table.items.find? fun item => table.keyOf item = key

/-- The table with an item in the place of the one of its key, or else at the end. -/
def put (table : StoredTable) (item : WireItem) : StoredTable :=
  match table.position (table.keyOf item) with
  | some place => { table with items := table.items.set place item }
  | none => { table with items := table.items ++ [item] }

def delete (table : StoredTable) (key : WireItem) : StoredTable :=
  match table.position key with
  | some place => { table with items := table.items.eraseIdx place }
  | none => table

end StoredTable

/-- The key attributes that a key schema names; anything but a hash key counts as range key, and
of several the last one. -/
def keyNames (elements : List KeyElement) : KeyNames :=
  elements.foldl (fun keys element =>
    if element.keyType = hashPart then { keys with hashKey := element.name }
    else { keys with rangeKey := some element.name }) ⟨"", none⟩

/-- The description of capacity right after it is set. -/
def describeThroughput (throughput : Throughput) (decreasesToday : Int) : ThroughputDescription :=
  ⟨some throughput.read, some throughput.write, some decreasesToday⟩

def describeIndex (index : LocalIndex) : LocalIndexDescription :=
  ⟨some index.name, some index.keySchema, index.projection⟩

def describeCreated (request : CreateTable) : TableDescription where
  tableName := request.tableName
  attributeDefinitions := some (request.attributeDefinitions.getD [])
  keySchema := some (request.keySchema.getD [])
  localIndexes := presentList ((request.localIndexes.getD []).map describeIndex)
  globalIndexes := presentList ((request.globalIndexes.getD []).map fun index =>
    { describeIndex index.toLocalIndex with
      throughput := index.throughput.map (describeThroughput · 0)
      status := some activeStatus })
  throughput := request.throughput.map (describeThroughput · 0)
  status := some activeStatus
  itemCount := some 0

/-- Tables in memory, what was asked of them, and the failures to be caused. -/
structure State where
  tables : Named StoredTable := ∅
  /-- The number of writes in each batch call, in order. -/
  batchSizes : List Nat := []
  /-- The batch calls to refuse, counted from zero. -/
  failingBatches : List Nat := []
  /-- How many of the last writes of each table a batch leaves undone. -/
  unprocessedPerBatch : Nat := 0
  describeCalls : Nat := 0
  /-- The keys of the items that cannot be deleted. -/
  failingDeletes : List WireItem := []
  /-- The scan calls to refuse, counted from zero. -/
  failingScans : List Nat := []
  scanCalls : Nat := 0
  /-- The most items that a page holds, whatever the limit asked for. -/
  pageSize : Option Nat := none
  /-- Whether sorting has panicked, and a read was left without an answer. -/
  panicked : Bool := false

namespace State

def table (state : State) (name : String) : Except BackendError StoredTable :=
  match state.tables.get? name with
  | some table => .ok table
  | none =>
    .error ⟨s!"ResourceNotFoundException: Requested resource not found: Table: {name} not found"⟩

def setTable (state : State) (name : String) (table : StoredTable) : State :=
  { state with tables := state.tables.insert name table }

/-- The items of a table, none without the table. -/
def items (state : State) (name : String) : List WireItem :=
  (state.tables.get? name).elim [] StoredTable.items

def setStatus (state : State) (name status : String) : State :=
  match state.tables.get? name with
  | none => state
  | some table =>
    state.setTable name
      { table with description := { table.description with status := some status } }

end State

end AttributeStore.Store
