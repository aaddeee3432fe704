import AttributeStore.Proofs.Store.Calls
import AttributeStore.Proofs.Success
import AttributeStore.Table.Read

/-!
# Lookups and deletes by key

A lookup answers what the store finds under the encoded key and leaves the store alone; a delete
is refused and changes nothing, or takes the item of its key away.
-/

namespace AttributeStore

open Store (StoredTable backend)

def Table.wireKey (table : Table) (hash : Value) (range : Option Value) :
    Except Error WireItem := do
  let key ← (table.schema.keys hash range).mapError Error.validation
  key.encode.mapError Error.codec

namespace Table

variable {table : Table} {state : Store.State} {stored : StoredTable}
  {hash : Value} {range : Option Value} {key : WireItem}

theorem getItemRequest_eq {primary : PrimaryKey} (h : primary.encode = .ok key) (name : String) :
    getItemRequest primary name none [] =
      .ok { tableName := some name, key := some key, consistentRead := none } := by
  unfold getItemRequest
  rw [h]
  rfl

theorem state_run_getOne (table : Table) (hash : Value) (range : Option Value)
    (state : Store.State) : ((table.getOne hash range).run backend state).state = state := by
  unfold getOne runGetItem sendIfOk
  cases table.schema.keys hash range with
  | error cause => rfl
  | ok primary =>
    cases hr : getItemRequest primary table.fullName none [] with
    | error cause => simp only [mapError_ok, mapError_error, hr, Program.run_pure]
    | ok request =>
      simp only [mapError_ok, hr, Program.run_bind, Store.run_getItem, Program.run_pure]
      rfl

theorem value_run_getOne (h : state.tables.get? table.fullName = some stored)
    (hk : table.wireKey hash range = .ok key) :
    ((table.getOne hash range).run backend state).value =
      .ok ((stored.find? key).map WireItem.decode) := by
  unfold wireKey at hk
  simp only [bind_eq_ok, mapError_eq_ok] at hk
  obtain ⟨primary, hkeys, hencode⟩ := hk
  unfold getOne runGetItem sendIfOk
  simp only [hkeys, getItemRequest_eq hencode, mapError_ok, Program.run_bind,
    Store.run_getItem, Program.run_pure]
  rw [Store.State.getItem_key h key none]
  rfl

/-- A delete of a key in wire form fails and changes nothing, or takes its item away. -/
theorem deleteKey_cases (h : state.tables.get? table.fullName = some stored) (key : WireItem) :
    (∃ cause, ((table.deleteKey key).run backend state).value = .error cause ∧
      ((table.deleteKey key).run backend state).state = state) ∨
    (((table.deleteKey key).run backend state).value = .ok () ∧
      ((table.deleteKey key).run backend state).state =
        state.setTable table.fullName (stored.delete key)) := by
  unfold deleteKey
  simp only [Program.run_bind, Store.run_deleteItem, Program.run_pure]
  rw [Store.State.deleteItem_deleteRequest h]
  split
  · exact Or.inl ⟨_, rfl, rfl⟩
  · exact Or.inr ⟨rfl, rfl⟩

theorem delete_eq (table : Table) (hash : Value) (range : Option Value) :
    table.delete hash range = sendIfOk (table.wireKey hash range) table.deleteKey :=
  rfl

theorem delete_cases (h : state.tables.get? table.fullName = some stored)
    (hash : Value) (range : Option Value) :
    (∃ cause, ((table.delete hash range).run backend state).value = .error cause ∧
      ((table.delete hash range).run backend state).state = state) ∨
    ∃ key, table.wireKey hash range = .ok key ∧
      ((table.delete hash range).run backend state).value = .ok () ∧
      ((table.delete hash range).run backend state).state =
        state.setTable table.fullName (stored.delete key) := by
  rw [delete_eq]
  cases hk : table.wireKey hash range with
  | error cause => exact Or.inl ⟨cause, rfl, rfl⟩
  | ok key =>
    rcases deleteKey_cases h key with hc | ⟨hv, hs⟩
    · exact Or.inl hc
    · exact Or.inr ⟨key, rfl, hv, hs⟩

end Table

end AttributeStore
