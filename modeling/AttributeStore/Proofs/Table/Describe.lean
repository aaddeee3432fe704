import AttributeStore.Proofs.Schema.Description
import AttributeStore.Proofs.Store.Calls
import AttributeStore.Table.Admin

/-!
# Calls that concern whole tables

What describing, opening, refreshing, creating, changing and deleting a table comes to over the
store in memory. A description is counted and changes nothing else; `toldSchema` is the schema that
it tells, or why it tells none.
-/

namespace AttributeStore

open Store (StoredTable backend)
open Wire (Operation TableDescription)

namespace Store

section Runs

variable (table : String) (state : State)

theorem run_describeTable (request : Wire.TableRequest) :
    (callTable .describeTable table request).run backend state =
      callOutcome .describeTable table request (state.describeTable request) :=
  run_callTable backend .describeTable table request state

theorem run_updateTable (request : Wire.UpdateTable) :
    (callTable .updateTable table request).run backend state =
      callOutcome .updateTable table request (state.updateTable request) :=
  run_callTable backend .updateTable table request state

theorem run_deleteTable (request : Wire.TableRequest) :
    (callTable .deleteTable table request).run backend state =
      callOutcome .deleteTable table request (state.deleteTable request) :=
  run_callTable backend .deleteTable table request state

end Runs

def tableExists (name : String) : BackendError :=
  ⟨s!"ResourceInUseException: Table already exists: {name}"⟩

def describeCall (name : String) : Call :=
  ⟨.describeTable, { tableName := some name }⟩

def createCall (schema : TableSchema) (namePrefix : String) : Call :=
  ⟨.createTable, schema.toCreateRequest namePrefix⟩

def deleteCall (name : String) : Call :=
  ⟨.deleteTable, { tableName := some name }⟩

def StoredTable.told (stored : StoredTable) : TableDescription :=
  { stored.description with itemCount := some stored.items.length }

namespace State

def described (state : State) : State :=
  { state with describeCalls := state.describeCalls + 1 }

/-- The schema that the store tells of a table, read behind a prefix. -/
def toldSchema (state : State) (namePrefix name : String) : Except Error TableSchema :=
  match state.table name with
  | .error cause => .error (.wire Operation.describeTable.name name cause)
  | .ok stored => (TableSchema.ofDescription stored.told namePrefix).mapError Error.schema

variable {state : State} {namePrefix name : String} {schema : TableSchema}

theorem describeTable_eq (state : State) (name : String) :
    state.describeTable { tableName := some name } =
      ((state.table name).map fun stored => { description := some stored.told },
        state.described) := rfl

theorem contains_iff : state.tables.contains name = true ↔
    ∃ stored, state.tables.get? name = some stored :=
  Named.contains_iff _ _

theorem contains_of_table {stored : StoredTable} (h : state.table name = .ok stored) :
    state.tables.contains name = true :=
  contains_iff.2 ⟨stored, get?_of_table h⟩

theorem toldSchema_eq_ok_iff :
    state.toldSchema namePrefix name = .ok schema ↔
      ∃ stored, state.tables.get? name = some stored ∧
        TableSchema.ofDescription stored.told namePrefix = .ok schema := by
  unfold toldSchema table
  cases state.tables.get? name with
  | none => simp
  | some stored => simp

theorem createTable_toCreateRequest (asked : TableSchema) (namePrefix : String) (state : State) :
    state.createTable (asked.toCreateRequest namePrefix) =
      if state.tables.contains (asked.fullName namePrefix) then
        (.error (tableExists (asked.fullName namePrefix)), state)
      else
        (.ok { description := some (describeCreated (asked.toCreateRequest namePrefix)) },
          state.setTable (asked.fullName namePrefix)
            (created (asked.toCreateRequest namePrefix))) := rfl

end State

end Store

section Describe

variable (namePrefix name : String) (state : Store.State)

theorem run_describe :
    let run := (describe namePrefix name).run backend state
    run.value = state.toldSchema namePrefix name ∧ run.state = state.described ∧
      callsOf run.trace = [Store.describeCall name] := by
  unfold describe Store.State.toldSchema
  simp only [Program.run_bind, Store.run_describeTable, callOutcome, Store.State.describeTable_eq]
  cases state.table name with
  | error cause => exact ⟨rfl, rfl, rfl⟩
  | ok stored => exact ⟨rfl, rfl, rfl⟩

end Describe

namespace Table

theorem run_openTable (namePrefix name : String) (state : Store.State) :
    let run := (openTable namePrefix name).run backend state
    run.value = (state.toldSchema namePrefix (namePrefix ++ name)).map
        (fun schema => { namePrefix, schema }) ∧
      run.state = state.described ∧
      callsOf run.trace = [Store.describeCall (namePrefix ++ name)] := by
  obtain ⟨hvalue, hstate, hcalls⟩ := run_describe namePrefix (namePrefix ++ name) state
  unfold openTable
  simp only [Program.run_bind, Program.run_pure, List.append_nil, hvalue, hstate, hcalls]
  exact ⟨trivial, trivial, trivial⟩

/-- A creation is refused and changes nothing, or it stores the table; then it gives a handle if the
description of the new table can be read. -/
theorem run_create (namePrefix : String) (asked : TableSchema) (state : Store.State) :
    let run := (create namePrefix asked).run backend state
    let name := asked.fullName namePrefix
    let request := asked.toCreateRequest namePrefix
    callsOf run.trace = [Store.createCall asked namePrefix] ∧
      if state.tables.contains name then
        run.value = .error (.wire Operation.createTable.name name (Store.tableExists name)) ∧
          run.state = state
      else
        run.value = ((TableSchema.ofDescription (Store.describeCreated request) namePrefix).mapError
            Error.schema).map (fun schema => { namePrefix, schema }) ∧
          run.state = state.setTable name (Store.State.created request) := by
  unfold create
  simp only [Program.run_bind, Store.run_createTable, callOutcome,
    Store.State.createTable_toCreateRequest]
  split
  · exact ⟨rfl, rfl, rfl⟩
  · simp only [Except.mapError, createdSchema]
    cases TableSchema.ofDescription
        (Store.describeCreated (asked.toCreateRequest namePrefix)) namePrefix with
    | error cause => exact ⟨rfl, rfl, rfl⟩
    | ok schema => exact ⟨rfl, rfl, rfl⟩

end Table

end AttributeStore
