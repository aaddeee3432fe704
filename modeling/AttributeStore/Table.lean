import AttributeStore.Entry
import AttributeStore.Record

/-!
# Table handles

A handle knows the schema of its table, stages writes in a spool and remembers the entries that
failed in the last flush. Staging sends nothing.
-/

namespace AttributeStore

structure Table where
  /-- What stands in front of the table's name at the store. -/
  namePrefix : String
  schema : TableSchema
  /-- The staged entries, first come first. -/
  spool : List Entry := []
  /-- The entries that failed in the last flush. -/
  errorItems : List Entry := []

namespace Table

def fullName (table : Table) : String :=
  table.schema.fullName table.namePrefix

def addEntry (table : Table) (entry : Entry) : Table :=
  { table with spool := table.spool ++ [entry] }

/-- The table with an item staged that is written only if expectations hold. -/
def addItemWith (table : Table) (item : Item) (expected : Expectations) :
    Except CodecError Table := do
  return table.addEntry { item := ← item.encode, expected }

def addItem (table : Table) (item : Item) : Except CodecError Table :=
  table.addItemWith item ∅

def addRecord (table : Table) (record : Record) : Except CodecError Table := do
  return table.addEntry { item := ← record.toWireItem.mapError CodecError.conversion }

def takeSpool (table : Table) : List Entry × Table :=
  (table.spool, { table with spool := [] })

end Table

end AttributeStore
