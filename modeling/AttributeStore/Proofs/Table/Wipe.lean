import AttributeStore.Proofs.Table.Keyed
import AttributeStore.Proofs.Table.Lookup
import AttributeStore.Table.Admin

/-!
# Deleting rows

Rows that are keys of the table are deleted one by one with a call each. A key set to fail is told
as an error and stays; the others are counted and their items go. Nothing but the tables of the
store changes.
-/

namespace AttributeStore

open Store (StoredTable backend)

def Step.delete? : Step → Option Wire.DeleteItem
  | .called .deleteItem request => some request
  | _ => none

def deletesOf (trace : List Step) : List Wire.DeleteItem :=
  trace.filterMap Step.delete?

theorem deletesOf_append (first second : List Step) :
    deletesOf (first ++ second) = deletesOf first ++ deletesOf second :=
  List.filterMap_append

theorem deletesOf_callEvents {α : Type} (operation : Wire.Operation) (table : String)
    (answer : Except BackendError α) : deletesOf (callEvents operation table answer) = [] := by
  cases answer <;> rfl

namespace Table

def deleteError (table : Table) : Error :=
  .wire Wire.Operation.deleteItem.name table.fullName Store.deleteRejected

/-- What a walk over some keys comes to when those of a list cannot be deleted. -/
def sweepOf (table : Table) (failing keys : List WireItem) : Sweep where
  deleted := (keys.filter (!failing.contains ·)).length
  errors := (keys.filter failing.contains).map fun _ => table.deleteError

theorem sweepOf_append (table : Table) (failing keys later : List WireItem) :
    table.sweepOf failing (keys ++ later) =
      (table.sweepOf failing keys).append (table.sweepOf failing later) := by
  simp [sweepOf, Sweep.append]

/-- Whether an item stays when the deletes of some keys fail for those of a list. -/
def stays (schema : TableSchema) (failing keys : List WireItem) (item : WireItem) : Bool :=
  !keys.contains (keyPart schema.keyDefinitions item) ||
    failing.contains (keyPart schema.keyDefinitions item)

section Stays

variable (schema : TableSchema) (failing keys later : List WireItem) (key item : WireItem)

variable {keys item} in
theorem stays_of_notMem (h : keyPart schema.keyDefinitions item ∉ keys) :
    stays schema failing keys item = true := by
  simp [stays, h]

variable {keys item} in
theorem stays_of_mem (h : keyPart schema.keyDefinitions item ∈ keys) :
    stays schema failing keys item = failing.contains (keyPart schema.keyDefinitions item) := by
  simp [stays, h]

theorem stays_nil : stays schema failing [] item = true := by
  simp [stays]

theorem stays_singleton :
    stays schema failing [key] item =
      if key ∈ failing then true else decide (keyPart schema.keyDefinitions item ≠ key) := by
  unfold stays
  by_cases hkey : keyPart schema.keyDefinitions item = key
  · subst hkey
    simp
  · simp [hkey]

theorem stays_append :
    stays schema failing (keys ++ later) item =
      (stays schema failing later item && stays schema failing keys item) := by
  unfold stays
  by_cases hfail : keyPart schema.keyDefinitions item ∈ failing
  · simp [hfail]
  · simp [hfail, Bool.and_comm]

end Stays

variable {table : Table} {state : Store.State} {stored : StoredTable}

/-- What some keys leave when they are gone over: of the table the items that stay, of the rest of
the store everything but the number of scans. -/
structure Wiped (table : Table) (stored : StoredTable) (keys : List WireItem)
    (state after : Store.State) : Prop where
  holds : ∃ left, after.tables.get? table.fullName = some left ∧ left.Keyed table.schema ∧
    left.items = stored.items.filter (stays table.schema state.failingDeletes keys)
  others : ∀ name, name ≠ table.fullName → after.tables.get? name = state.tables.get? name
  rest : after = { state with tables := after.tables, scanCalls := after.scanCalls }

theorem Wiped.nil (h : state.tables.get? table.fullName = some stored)
    (hk : stored.Keyed table.schema) (scanCalls : Nat) :
    Wiped table stored [] state { state with scanCalls } where
  holds := ⟨stored, h, hk, (List.filter_eq_self.2 fun item _ => stays_nil _ _ item).symm⟩
  others := fun _ _ => rfl
  rest := rfl

theorem Wiped.of_counted {keys : List WireItem} {after : Store.State} {scanCalls : Nat}
    (h : Wiped table stored keys { state with scanCalls } after) :
    Wiped table stored keys state after where
  holds := h.holds
  others := h.others
  rest := h.rest

theorem Wiped.append {keys later : List WireItem} {middle after : Store.State}
    {left : StoredTable} (h : Wiped table stored keys state middle)
    (hleft : middle.tables.get? table.fullName = some left)
    (h' : Wiped table left later middle after) :
    Wiped table stored (keys ++ later) state after := by
  obtain ⟨first, hfirst, _, hitems⟩ := h.holds
  obtain ⟨second, hsecond, hkeyed, hitems'⟩ := h'.holds
  obtain rfl := Option.some.inj (hfirst.symm.trans hleft)
  have hfailing : middle.failingDeletes = state.failingDeletes := by
    rw [h.rest]
  refine ⟨⟨second, hsecond, hkeyed, ?_⟩, ?_, ?_⟩
  · rw [hitems', hitems, hfailing, List.filter_filter]
    apply List.filter_congr
    intro item _
    exact (stays_append table.schema state.failingDeletes keys later item).symm
  · intro name hname
    exact (h'.others name hname).trans (h.others name hname)
  · rw [h'.rest, h.rest]

theorem run_deleteKey (h : state.tables.get? table.fullName = some stored)
    (key : WireItem) :
    ((table.deleteKey key).run backend state).value =
        (if key ∈ state.failingDeletes then .error table.deleteError else .ok ()) ∧
      ((table.deleteKey key).run backend state).state =
        (if key ∈ state.failingDeletes then state
          else state.setTable table.fullName (stored.delete key)) ∧
      deletesOf ((table.deleteKey key).run backend state).trace =
        [deleteRequest key table.fullName] := by
  unfold deleteKey
  simp only [Program.run_bind, Store.run_deleteItem, Program.run_pure]
  rw [Store.State.deleteItem_deleteRequest h]
  split
  · exact ⟨rfl, rfl, rfl⟩
  · exact ⟨rfl, rfl, rfl⟩

theorem run_deleteRow (h : state.tables.get? table.fullName = some stored)
    (hk : stored.Keyed table.schema) {row : WireItem} (hrow : table.schema.keyOf row = .ok row) :
    ((table.deleteRow row).run backend state).value =
        table.sweepOf state.failingDeletes [row] ∧
      Wiped table stored [row] state ((table.deleteRow row).run backend state).state ∧
      ((table.deleteRow row).run backend state).state.scanCalls = state.scanCalls ∧
      deletesOf ((table.deleteRow row).run backend state).trace =
        [deleteRequest row table.fullName] := by
  obtain ⟨hvalue, hstate, htrace⟩ := run_deleteKey h row
  unfold deleteRow
  simp only [hrow, Program.run_bind, hvalue, hstate]
  by_cases hfail : row ∈ state.failingDeletes
  · simp only [if_pos hfail, Program.run_pure, List.append_nil, htrace, and_true]
    refine ⟨by simp [sweepOf, hfail], ⟨⟨stored, h, hk, ?_⟩, fun _ _ => rfl, rfl⟩⟩
    symm
    apply List.filter_eq_self.2
    intro item _
    rw [stays_singleton, if_pos hfail]
  · simp only [if_neg hfail, Program.run_pure, List.append_nil, htrace, and_true]
    have hkeyOf (item : WireItem) : stored.keyOf item = keyPart table.schema.keyDefinitions item :=
      stored.keyOf_eq hk.names item
    refine ⟨by simp [sweepOf, hfail], ⟨⟨stored.delete row,
      Store.State.get?_setTable_self _ _ _, hk.delete row, ?_⟩, ?_, rfl⟩, rfl⟩
    · rw [Store.StoredTable.items_delete hk.distinct]
      apply List.filter_congr
      intro item _
      rw [stays_singleton, if_neg hfail, hkeyOf]
    · intro name hname
      rw [Store.State.get?_setTable, if_neg (Ne.symm hname)]

/-- Rows that are keys of the table are gone over one by one, in order. -/
theorem run_deleteRows (h : state.tables.get? table.fullName = some stored)
    (hk : stored.Keyed table.schema) {rows : List WireItem}
    (hrows : ∀ row ∈ rows, table.schema.keyOf row = .ok row) :
    ((table.deleteRows rows).run backend state).value =
        table.sweepOf state.failingDeletes rows ∧
      Wiped table stored rows state ((table.deleteRows rows).run backend state).state ∧
      ((table.deleteRows rows).run backend state).state.scanCalls = state.scanCalls ∧
      deletesOf ((table.deleteRows rows).run backend state).trace =
        rows.map (deleteRequest · table.fullName) := by
  induction rows generalizing state stored with
  | nil => exact ⟨rfl, .nil h hk state.scanCalls, rfl, rfl⟩
  | cons row rest ih =>
    obtain ⟨hvalue, hwiped, hcalls, htrace⟩ := run_deleteRow h hk (hrows row List.mem_cons_self)
    obtain ⟨left, hleft, hkeyed, _⟩ := hwiped.holds
    obtain ⟨hvalue', hwiped', hcalls', htrace'⟩ := ih hleft hkeyed fun r hr =>
      hrows r (List.mem_cons_of_mem _ hr)
    have hfailing : ((table.deleteRow row).run backend state).state.failingDeletes =
        state.failingDeletes := by
      rw [hwiped.rest]
    unfold deleteRows
    simp only [Program.run_bind, Program.run_pure, List.append_nil, deletesOf_append]
    refine ⟨?_, hwiped.append hleft hwiped', hcalls'.trans hcalls, ?_⟩
    · rw [hvalue, hvalue', hfailing, ← sweepOf_append]
      rfl
    · rw [htrace, htrace']
      rfl

end Table

end AttributeStore
