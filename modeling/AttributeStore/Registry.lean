import AttributeStore.Config
import AttributeStore.Table.Admin

/-!
# Registries

A registry gives out handles to the tables behind one prefix. It keeps the handle of each table
under the table's full name, so that all who ask for a table share one handle, and describes a
table only when it has none. Handles live in a list of their own; sharing a handle is sharing its
place there.
-/

namespace AttributeStore

open Wire (Operation)

/-- The place of a table handle. -/
abbrev Handle := Nat

/-- All table handles, each at its place. -/
structure Handles where
  tables : List Table := []

namespace Handles

def get? (handles : Handles) (handle : Handle) : Option Table :=
  handles.tables[handle]?

/-- The handles with a new one, and its place. -/
def alloc (handles : Handles) (table : Table) : Handle × Handles :=
  (handles.tables.length, ⟨handles.tables ++ [table]⟩)

def set (handles : Handles) (handle : Handle) (table : Table) : Handles :=
  ⟨handles.tables.set handle table⟩

end Handles

structure Registry where
  /-- What stands in front of every table name. -/
  namePrefix : String
  /-- The place of the handle of each table, by full name. -/
  cached : Named Handle := ∅

namespace Registry

/-- A registry behind the prefix that settings name. -/
def connect (config : Config) : Registry :=
  { namePrefix := config.tablePrefix }

def fullName (registry : Registry) (name : String) : String :=
  registry.namePrefix ++ name

/-- The handle of a table: the one kept under its full name, or else a new one. -/
def cache (registry : Registry) (handles : Handles) (table : Table) :
    Handle × Registry × Handles :=
  match registry.cached.get? table.fullName with
  | some handle => (handle, registry, handles)
  | none =>
    let (handle, handles) := handles.alloc table
    (handle, { registry with cached := registry.cached.insert table.fullName handle }, handles)

def cacheResult (registry : Registry) (handles : Handles) (table : Except Error Table) :
    Except Error Handle × Registry × Handles :=
  match table with
  | .error cause => (.error cause, registry, handles)
  | .ok table =>
    let (handle, registry, handles) := registry.cache handles table
    (.ok handle, registry, handles)

def table (registry : Registry) (handles : Handles) (name : String) :
    Program (Except Error Handle × Registry × Handles) :=
  match registry.cached.get? (registry.fullName name) with
  | some handle => return (.ok handle, registry, handles)
  | none => do
    return registry.cacheResult handles (← Table.openTable registry.namePrefix name)

/-- Creates a table and gives its handle. -/
def createTable (registry : Registry) (handles : Handles) (schema : TableSchema) :
    Program (Except Error Handle × Registry × Handles) := do
  return registry.cacheResult handles (← Table.create registry.namePrefix schema)

/-- Deletes a table and forgets its handle. -/
def deleteTable (registry : Registry) (name : String) :
    Program (Except Error Unit × Registry) := do
  let fullName := registry.fullName name
  match ← callTable .deleteTable fullName { tableName := some fullName } with
  | .error cause => return (.error cause, registry)
  | .ok _ =>
    Program.emit {
      level := .info, message := "deleted table", table := fullName,
      operation := Operation.deleteTable.name }
    return (.ok (), { registry with cached := registry.cached.erase fullName })

end Registry

end AttributeStore
