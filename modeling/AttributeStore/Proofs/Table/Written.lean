import AttributeStore.Proofs.Table.Create
import AttributeStore.Proofs.Table.Keyed
import AttributeStore.Proofs.Table.Lookup

/-!
# Tables written through handles

The states of a store in which a table was made by a creation and changed by the calls of handles
alone. In each of them the table is stored and its items are keyed, whatever else was done to the
store.
-/

namespace AttributeStore

open Store (StoredTable backend)

namespace Table

/-- A handle of the same table: the name and the key attributes agree. -/
structure SameTable (table other : Table) : Prop where
  fullName : other.fullName = table.fullName
  hashKey : other.schema.hashKey = table.schema.hashKey
  rangeKey : other.schema.rangeKey = table.schema.rangeKey

theorem SameTable.refl (table : Table) : table.SameTable table :=
  ⟨rfl, rfl, rfl⟩

/-- The states that a creation and the writes of handles lead to; what is done to other tables and
to the rest of the store does not matter. -/
inductive Written (table : Table) : Store.State → Prop
  | create {namePrefix : String} {asked : TableSchema} {start : Store.State} {made : Table}
      (made_eq : ((Table.create namePrefix asked).run backend start).value = .ok made)
      (same : table.SameTable made) :
      Written table ((Table.create namePrefix asked).run backend start).state
  | put {state : Store.State} (written : Written table state) {other : Table}
      (same : table.SameTable other) : Written table (other.put.run backend state).state
  | batchPut {state : Store.State} (written : Written table state) {other : Table}
      (same : table.SameTable other) : Written table (other.batchPut.run backend state).state
  | delete {state : Store.State} (written : Written table state) {other : Table}
      (same : table.SameTable other) (hash : Value) (range : Option Value) :
      Written table ((other.delete hash range).run backend state).state
  | forceDeleteAll {state : Store.State} (written : Written table state) {other : Table}
      (same : table.SameTable other) (pages : Nat) :
      Written table ((other.forceDeleteAll pages).run backend state).state
  | elsewhere {state state' : Store.State} (written : Written table state)
      (unchanged : state'.tables.get? table.fullName = state.tables.get? table.fullName) :
      Written table state'

/-- The table of a handle is stored, and its items are keyed. -/
def Holds (table : Table) (state : Store.State) : Prop :=
  ∃ stored, state.tables.get? table.fullName = some stored ∧ stored.Keyed table.schema

variable {table other : Table} {state : Store.State}

theorem SameTable.holds_iff (h : table.SameTable other) :
    other.Holds state ↔ table.Holds state := by
  have hkeyed (stored : StoredTable) :
      stored.Keyed other.schema ↔ stored.Keyed table.schema := by
    have hnames : other.schema.keyNames = table.schema.keyNames := by
      rw [TableSchema.keyNames, TableSchema.keyNames, h.hashKey, h.rangeKey]
    have hdefinitions : other.schema.keyDefinitions = table.schema.keyDefinitions := by
      rw [TableSchema.keyDefinitions, TableSchema.keyDefinitions, h.hashKey, h.rangeKey]
    constructor
    · rintro ⟨hn, hd, hc⟩
      exact ⟨hnames ▸ hn, hd, hdefinitions ▸ hc⟩
    · rintro ⟨hn, hd, hc⟩
      exact ⟨hnames ▸ hn, hd, hdefinitions ▸ hc⟩
  unfold Holds
  rw [h.fullName]
  exact exists_congr fun stored => and_congr_right fun _ => hkeyed stored

/-! ## What each call preserves -/

theorem Holds.put (h : table.Holds state) : table.Holds (table.put.run backend state).state := by
  obtain ⟨stored, hstored, hkeyed⟩ := h
  have hrun := run_putEntries hstored table.spool
  rw [Table.put, (run_flushWith backend table "put" table.putEntries state).2.1]
  exact ⟨_, hrun.holds, hkeyed.putAll hrun.keyed⟩

theorem Holds.batchPut (h : table.Holds state) :
    table.Holds (table.batchPut.run backend state).state := by
  obtain ⟨stored, hstored, hkeyed⟩ := h
  have hrun := run_batchEntries hstored table.spool
  rw [Table.batchPut, (run_flushWith backend table "batch_put" table.batchEntries state).2.1]
  exact ⟨_, hrun.holds, hkeyed.putAll hrun.keyed⟩

theorem Holds.deleteKey (h : table.Holds state) (key : WireItem) :
    table.Holds ((table.deleteKey key).run backend state).state := by
  obtain ⟨stored, hstored, hkeyed⟩ := h
  rcases deleteKey_cases hstored key with ⟨_, _, hs⟩ | ⟨_, hs⟩
  · rw [hs]
    exact ⟨stored, hstored, hkeyed⟩
  · rw [hs]
    exact ⟨_, Store.State.get?_setTable_self _ _ _, hkeyed.delete key⟩

theorem Holds.delete (h : table.Holds state) (hash : Value) (range : Option Value) :
    table.Holds ((table.delete hash range).run backend state).state := by
  rw [delete_eq]
  cases table.wireKey hash range with
  | error cause => exact h
  | ok key => exact h.deleteKey key

theorem tables_run_scan (table : Table) (selection : Selection) (state : Store.State) :
    ((table.scan selection).run backend state).state.tables = state.tables := by
  unfold scan runScan sendIfOk
  cases scanRequest selection table.schema.attributes none table.fullName with
  | error cause => rfl
  | ok request =>
    simp only [Program.run_bind, Store.run_scan, Program.run_pure]
    exact Store.State.tables_scan request state

theorem Holds.deleteRow (h : table.Holds state) (row : WireItem) :
    table.Holds ((table.deleteRow row).run backend state).state := by
  unfold Table.deleteRow
  cases table.schema.keyOf row with
  | error cause => exact h
  | ok key =>
    have hdeleted := h.deleteKey key
    simp only [Program.state_run_bind]
    cases ((table.deleteKey key).run backend state).value with
    | error cause => exact hdeleted
    | ok _ => exact hdeleted

theorem Holds.deleteRows (h : table.Holds state) (rows : List WireItem) :
    table.Holds ((table.deleteRows rows).run backend state).state := by
  induction rows generalizing state with
  | nil => exact h
  | cons row rest ih =>
    unfold Table.deleteRows
    simp only [Program.state_run_bind, Program.run_pure]
    exact ih (h.deleteRow row)

theorem Holds.sweepPages (h : table.Holds state) (pages : Nat) (startKey : Option Item) :
    table.Holds ((table.sweepPages pages startKey).run backend state).state := by
  induction pages generalizing state startKey with
  | zero => exact h
  | succ pages ih =>
    unfold Table.sweepPages
    have hscan : table.Holds ((table.scan (table.sweepSelection startKey)).run backend
        state).state := by
      unfold Holds
      rw [tables_run_scan]
      exact h
    simp only [Program.state_run_bind]
    cases ((table.scan (table.sweepSelection startKey)).run backend state).value with
    | error cause => exact hscan
    | ok output =>
      have hdeleted := hscan.deleteRows output.rows
      simp only [Program.state_run_bind]
      cases output.lastEvaluatedKey with
      | none => exact hdeleted
      | some key =>
        simp only [Program.state_run_bind, Program.run_pure]
        exact ih hdeleted (some key)

theorem Holds.forceDeleteAll (h : table.Holds state) (pages : Nat) :
    table.Holds ((table.forceDeleteAll pages).run backend state).state := by
  have hswept := h.sweepPages pages none
  unfold Table.forceDeleteAll
  simp only [Program.state_run_bind]
  cases ((table.sweepPages pages none).run backend state).value with
  | none => exact hswept
  | some sweep => exact hswept

/-- However a table is written through handles, it is stored and its items are keyed. -/
theorem Written.holds (h : table.Written state) : table.Holds state := by
  induction h with
  | create made_eq same =>
    obtain ⟨_, _, stored, hstored, hkeys, hitems⟩ := created_of_run made_eq
    exact same.holds_iff.1 ⟨stored, hstored, .of_items_nil hkeys hitems⟩
  | put _ same ih => exact same.holds_iff.1 (same.holds_iff.2 ih).put
  | batchPut _ same ih => exact same.holds_iff.1 (same.holds_iff.2 ih).batchPut
  | delete _ same hash range ih => exact same.holds_iff.1 ((same.holds_iff.2 ih).delete hash range)
  | forceDeleteAll _ same pages ih =>
    exact same.holds_iff.1 ((same.holds_iff.2 ih).forceDeleteAll pages)
  | elsewhere _ unchanged ih =>
    obtain ⟨stored, hstored, hkeyed⟩ := ih
    exact ⟨stored, unchanged.trans hstored, hkeyed⟩

def personItem (id : String) : WireItem :=
  Named.singleton "id" (.leaf (.string id))

def peopleState : Store.State :=
  let staged : Table :=
    { peopleTable with spool := ["ada", "bob", "eve"].map fun id => ⟨personItem id, ∅⟩ }
  (staged.put.run backend ((Table.create "dev_" people).run backend {}).state).state

theorem written_people : peopleTable.Written peopleState :=
  .put (.create rfl (.refl peopleTable)) ⟨rfl, rfl, rfl⟩

end Table

end AttributeStore
