import AttributeStore.Proofs.Schema.Creation
import AttributeStore.Proofs.Schema.Told
import AttributeStore.Proofs.Table.Describe

/-!
# Changing the capacity of a table

A change of capacity that succeeds leaves the asked capacity at the store and at the handle, and
counts one more decrease exactly if it lowered either part. What the store tells of the table is
read anew at the end; a handle that fails to read it stays as it was.
-/

namespace AttributeStore

open Store (StoredTable backend describeThroughput)
open Store.State (changedThroughput)
open Wire (Throughput)

/-- The number of decreases after a change of capacity: one more if either part got lower. -/
def Wire.Throughput.decreasesAfter (wanted had : Throughput) (decreases : Int) : Int :=
  decreases + if wanted.read < had.read ∨ wanted.write < had.write then 1 else 0

namespace Store

theorem changedThroughput_describeThroughput (had wanted : Throughput) (decreases : Int) :
    changedThroughput (some (describeThroughput had decreases)) wanted =
      describeThroughput wanted (wanted.decreasesAfter had decreases) := by
  unfold changedThroughput Throughput.decreasesAfter
  simp [describeThroughput]

namespace State

variable {state : State} {name : String} {capacity : Throughput} {decreases : Int}

/-- The store has a table that stands under its own name, with a capacity and a number of
decreases. -/
def Offers (state : State) (name : String) (capacity : Throughput) (decreases : Int) : Prop :=
  ∃ stored, state.tables.get? name = some stored ∧
    stored.description.tableName.getD "" = name ∧
    stored.description.throughput = some (describeThroughput capacity decreases)

def withCapacity (state : State) (name : String) (stored : StoredTable) (wanted : Throughput) :
    State :=
  state.setTable name { stored with description := { stored.description with
    throughput := some (changedThroughput stored.description.throughput wanted) } }

theorem Offers.withCapacity (h : state.Offers name capacity decreases) {stored : StoredTable}
    (hstored : state.tables.get? name = some stored) (wanted : Throughput) :
    (state.withCapacity name stored wanted).Offers name wanted
      (wanted.decreasesAfter capacity decreases) := by
  obtain ⟨found, hfound, hname, ht⟩ := h
  obtain rfl := Option.some.inj (hfound.symm.trans hstored)
  refine ⟨_, get?_setTable_self _ _ _, hname, ?_⟩
  dsimp only
  rw [ht, changedThroughput_describeThroughput]

theorem Offers.told (h : state.Offers name capacity decreases) {namePrefix : String}
    {schema : TableSchema} (told : state.toldSchema namePrefix name = .ok schema) :
    schema.name = TableSchema.shortName namePrefix name ∧ schema.throughput = capacity ∧
      schema.decreasesToday = decreases := by
  obtain ⟨stored, hstored, hname, ht⟩ := h
  obtain ⟨found, hfound, hread⟩ := toldSchema_eq_ok_iff.1 told
  obtain rfl := Option.some.inj (hfound.symm.trans hstored)
  have tells := TableSchema.ofDescription_eq_ok_iff.1 hread
  refine ⟨?_, ?_, ?_⟩
  · rw [tells.name]
    exact congrArg (TableSchema.shortName namePrefix) hname
  · rw [tells.throughput]
    change describedThroughput found.description.throughput = capacity
    rw [ht, describedThroughput_describeThroughput]
  · rw [tells.decreasesToday]
    change (found.description.throughput.bind (·.decreasesToday)).getD 0 = decreases
    rw [ht]
    rfl

theorem exists_told_withCapacity {namePrefix : String} {stored : StoredTable}
    (hstored : state.tables.get? name = some stored) {schema : TableSchema}
    (told : state.toldSchema namePrefix name = .ok schema) (wanted : Throughput) :
    ∃ read, (state.withCapacity name stored wanted).toldSchema namePrefix name = .ok read := by
  obtain ⟨found, hfound, hread⟩ := toldSchema_eq_ok_iff.1 told
  obtain rfl := Option.some.inj (hfound.symm.trans hstored)
  have tells := (TableSchema.ofDescription_eq_ok_iff.1 hread).reread namePrefix
    (some (changedThroughput found.description.throughput wanted)) found.description.status
    (some found.items.length)
  exact ⟨_, toldSchema_eq_ok_iff.2
    ⟨_, get?_setTable_self _ _ _, TableSchema.ofDescription_eq_ok_iff.2 tells⟩⟩

end State

end Store

namespace Table

variable (table : Table) (state : Store.State)

/-- The handle that read a schema anew, or the handle as it was. -/
def reread (told : Except Error TableSchema) : Except Error Unit × Table :=
  match told with
  | .error cause => (.error cause, table)
  | .ok schema => (.ok (), { table with schema })

theorem run_refresh :
    let run := table.refresh.run backend state
    run.value = table.reread (state.toldSchema table.namePrefix table.fullName) ∧
      run.state = state.described := by
  obtain ⟨hvalue, hstate, -⟩ := run_describe table.namePrefix table.fullName state
  unfold refresh reread
  simp only [Program.run_bind, hvalue, hstate]
  cases state.toldSchema table.namePrefix table.fullName with
  | error cause => exact ⟨rfl, rfl⟩
  | ok schema => exact ⟨rfl, rfl⟩

variable {table state}

theorem run_updateThroughput_inactive (h : table.schema.status ≠ some Wire.activeStatus)
    (wanted : Throughput) :
    (table.updateThroughput wanted).run backend state =
      ⟨(.error (.notActive table.fullName (table.schema.status.getD "UNKNOWN")), table),
        state, []⟩ := by
  unfold updateThroughput
  dsimp only
  rw [if_neg h]
  rfl

theorem run_updateThroughput_active (h : table.schema.status = some Wire.activeStatus)
    {stored : StoredTable} (hstored : state.tables.get? table.fullName = some stored)
    (wanted : Throughput) :
    let run := (table.updateThroughput wanted).run backend state
    let changed := state.withCapacity table.fullName stored wanted
    run.value = table.reread (changed.toldSchema table.namePrefix table.fullName) ∧
      run.state = changed.described := by
  unfold updateThroughput
  dsimp only
  rw [if_pos h]
  simp only [Program.run_bind, Store.run_updateTable, callOutcome, Store.State.updateTable,
    Option.getD_some, Store.State.table_eq_ok hstored]
  exact run_refresh table (state.withCapacity table.fullName stored wanted)

end Table

end AttributeStore
