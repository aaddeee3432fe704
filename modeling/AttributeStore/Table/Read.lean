import AttributeStore.Read
import AttributeStore.Table

/-!
# Reading through a handle

A handle fills in what a read needs to know of its table: the name, the key attributes and the
declared types. Deleting by key is here too, since it finds its item in the same way.
-/

namespace AttributeStore.Table

open Wire (Operation)

/-- The item of a key; none when there is no such item. -/
def getOne (table : Table) (hash : Value) (range : Option Value) :
    Program (Except Error (Option Item)) :=
  sendIfOk ((table.schema.keys hash range).mapError Error.validation) fun key =>
    runGetItem key table.fullName

/-- One page of the items that satisfy the key conditions and the filter. -/
def query (table : Table) (selection : Selection) : Program (Except Error ReadOutput) :=
  runQuery selection table.schema.attributes none table.fullName

/-- Like `query`, but with the counts alone; a projection has no meaning for them. -/
def count (table : Table) (selection : Selection) : Program (Except Error ReadOutput) :=
  runQuery { selection with projection := [] } table.schema.attributes (some Wire.countSelect)
    table.fullName

/-- One page of the whole table, key conditions acting as filters. -/
def scan (table : Table) (selection : Selection) : Program (Except Error ReadOutput) :=
  runScan selection table.schema.attributes none table.fullName

def deleteKey (table : Table) (key : WireItem) : Program (Except Error Unit) := do
  return (← callTable .deleteItem table.fullName (deleteRequest key table.fullName)).map
    fun _ => ()

def delete (table : Table) (hash : Value) (range : Option Value) :
    Program (Except Error Unit) :=
  let wireKey : Except Error WireItem := do
    let key ← (table.schema.keys hash range).mapError Error.validation
    key.encode.mapError Error.codec
  sendIfOk wireKey table.deleteKey

end AttributeStore.Table
