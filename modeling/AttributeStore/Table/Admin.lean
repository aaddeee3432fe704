import AttributeStore.Schema.Description
import AttributeStore.Table.Read

/-!
# Managing tables

Creating and describing tables, changing their capacity, and deleting all their items.
-/

namespace AttributeStore

open Wire (Operation Throughput)

def describe (namePrefix table : String) : Program (Except Error TableSchema) := do
  match ← callTable .describeTable table { tableName := some table } with
  | .error cause => return .error cause
  | .ok reply =>
    match Wire.TableReply.description reply with
    | none => return .error (.schema (.missingDescription table))
    | some description =>
      return (TableSchema.ofDescription description namePrefix).mapError Error.schema

namespace Table

/-- The schema that the reply to a creation tells, or the one that was asked for. -/
def createdSchema (namePrefix : String) (asked : TableSchema) (reply : Wire.TableReply) :
    Except SchemaError TableSchema :=
  match reply.description with
  | none => .ok asked
  | some description => TableSchema.ofDescription description namePrefix

def create (namePrefix : String) (schema : TableSchema) : Program (Except Error Table) := do
  let name := schema.fullName namePrefix
  match ← callTable .createTable name (schema.toCreateRequest namePrefix) with
  | .error cause => return .error cause
  | .ok reply =>
    match createdSchema namePrefix schema reply with
    | .error cause => return .error (.schema cause)
    | .ok schema =>
      Program.emit {
        level := .info, message := "created table", table := name,
        operation := Operation.createTable.name }
      return .ok { namePrefix, schema }

def openTable (namePrefix name : String) : Program (Except Error Table) := do
  return (← describe namePrefix (namePrefix ++ name)).map fun schema => { namePrefix, schema }

def refresh (table : Table) : Program (Except Error Unit × Table) := do
  match ← describe table.namePrefix table.fullName with
  | .error cause => return (.error cause, table)
  | .ok schema => return (.ok (), { table with schema })

/-- Changes both capacities and reads the schema anew. The table has to be active as far as the
handle knows. -/
def updateThroughput (table : Table) (throughput : Throughput) :
    Program (Except Error Unit × Table) := do
  let name := table.fullName
  if table.schema.status = some Wire.activeStatus then
    let request : Wire.UpdateTable := { tableName := some name, throughput := some throughput }
    match ← callTable .updateTable name request with
    | .error cause => return (.error cause, table)
    | .ok _ => table.refresh
  else return (.error (.notActive name (table.schema.status.getD "UNKNOWN")), table)

/-- Changes the read capacity and keeps the write capacity that the handle knows. -/
def updateReadThroughput (table : Table) (read : Int) : Program (Except Error Unit × Table) :=
  table.updateThroughput { table.schema.throughput with read }

/-- Changes the write capacity and keeps the read capacity that the handle knows. -/
def updateWriteThroughput (table : Table) (write : Int) :
    Program (Except Error Unit × Table) :=
  table.updateThroughput { table.schema.throughput with write }

/-- What a walk over the items of a table did so far. -/
structure Sweep where
  /-- How many items were deleted. -/
  deleted : Nat := 0
  errors : List Error := []

def Sweep.append (first second : Sweep) : Sweep :=
  ⟨first.deleted + second.deleted, first.errors ++ second.errors⟩

def deleteRow (table : Table) (row : WireItem) : Program Sweep :=
  match table.schema.keyOf row with
  | .error cause => return { errors := [.validation cause] }
  | .ok key => do
    match ← table.deleteKey key with
    | .error cause => return { errors := [cause] }
    | .ok () => return { deleted := 1 }

def deleteRows (table : Table) : List WireItem → Program Sweep
  | [] => return {}
  | row :: rest => do
    let first ← table.deleteRow row
    let later ← table.deleteRows rest
    return first.append later

/-- What a walk asks for: the keys of the items after a key. -/
def sweepSelection (table : Table) (startKey : Option Item) : Selection :=
  { consistentRead := some true
    projection := table.schema.keyDefinitions.map (·.name)
    startKey }

/-- Deletes the items after a key page by page; none when the pages allowed were too few. A scan
that fails ends the walk. -/
def sweepPages (table : Table) : Nat → Option Item → Program (Option Sweep)
  | 0, _ => return none
  | pages + 1, startKey => do
    match ← table.scan (table.sweepSelection startKey) with
    | .error cause => return some { errors := [cause] }
    | .ok output =>
      let page ← table.deleteRows output.rows
      match output.lastEvaluatedKey with
      | none => return some page
      | some key => return (← table.sweepPages pages (some key)).map page.append

/-- Deletes every item with a call of its own and gives how many were deleted; none when the
table has more pages than allowed. Items that cannot be deleted do not stop the walk. -/
def forceDeleteAll (table : Table) (pages : Nat) : Program (Option (Except Error Nat)) := do
  match ← table.sweepPages pages none with
  | none => return none
  | some sweep =>
    Program.emit {
      level := .info, message := "deleted all items", table := table.fullName,
      operation := "force_delete_all",
      counts := [("deleted", sweep.deleted), ("failed", sweep.errors.length)] }
    return some ((Aggregate.toResult ⟨serviceName, sweep.errors⟩).map fun () => sweep.deleted)

end Table

end AttributeStore
