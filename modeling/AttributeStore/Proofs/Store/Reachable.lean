import AttributeStore.Proofs.Store.Calls
import AttributeStore.Proofs.Store.Contents
import Mathlib.Data.Finset.Card

/-!
# The states of the store

The states to which calls lead from an empty store, whatever failures are caused on the way. In
each of them the keys of a table tell its items apart: no call that writes can store a second item
under a key, not even a batch, which does not ask whether a key is complete.
-/

namespace AttributeStore.Store

open Wire

namespace State

variable {state changed : State} {name : String} {stored : StoredTable}

/-- In no table have two items one key. -/
def KeysDistinct (state : State) : Prop :=
  ∀ name stored, state.tables.get? name = some stored → stored.Distinct

/-! ## What one change of the tables keeps -/

namespace KeysDistinct

theorem of_tables (h : state.KeysDistinct) (ht : changed.tables = state.tables) :
    changed.KeysDistinct := by
  unfold KeysDistinct
  rw [ht]
  exact h

theorem of_table (h : state.KeysDistinct) (ht : state.table name = .ok stored) :
    stored.Distinct :=
  h name stored (get?_of_table ht)

theorem setTable (h : state.KeysDistinct) (hd : stored.Distinct) :
    (state.setTable name stored).KeysDistinct := by
  intro key found hfound
  rw [get?_setTable] at hfound
  split at hfound
  · obtain rfl := Option.some.inj hfound
    exact hd
  · exact h key found hfound

theorem setDescription (h : state.KeysDistinct) (ht : state.tables.get? name = some stored)
    (description : TableDescription) :
    (state.setTable name { stored with description }).KeysDistinct := by
  have hd : StoredTable.Distinct { stored with description } := h name stored ht
  exact h.setTable hd

theorem erase (h : state.KeysDistinct) (name : String) :
    KeysDistinct { state with tables := state.tables.erase name } := by
  intro key found hfound
  rw [Named.get?_erase] at hfound
  split at hfound
  · cases hfound
  · exact h key found hfound

theorem setStatus (h : state.KeysDistinct) (name status : String) :
    (state.setStatus name status).KeysDistinct := by
  unfold State.setStatus
  split
  · exact h
  · rename_i stored hstored
    exact h.setDescription hstored _

/-! ## What one call keeps -/

theorem createTable (h : state.KeysDistinct) (request : CreateTable) :
    (state.createTable request).2.KeysDistinct := by
  rcases createTable_cases request state with ⟨cause, hc⟩ | hc
  · rw [hc]
    exact h
  · rw [hc]
    exact h.setTable List.nodup_nil

theorem updateTable (h : state.KeysDistinct) (request : UpdateTable) :
    (state.updateTable request).2.KeysDistinct := by
  unfold State.updateTable
  dsimp only
  cases ht : state.table (request.tableName.getD "") with
  | error cause => exact h
  | ok stored => exact h.setDescription (get?_of_table ht) _

theorem deleteTable (h : state.KeysDistinct) (request : TableRequest) :
    (state.deleteTable request).2.KeysDistinct := by
  unfold State.deleteTable
  dsimp only
  cases state.table (request.tableName.getD "") with
  | error cause => exact h
  | ok stored => exact h.erase _

theorem putItem (h : state.KeysDistinct) (request : PutItem) :
    (state.putItem request).2.KeysDistinct := by
  cases ht : state.table (request.tableName.getD "") with
  | error cause =>
    unfold State.putItem
    simp only [ht]
    exact h
  | ok stored =>
    rcases putItem_cases (get?_of_table ht) with ⟨cause, hc⟩ | hc
    · rw [hc]
      exact h
    · rw [hc]
      exact h.setTable ((h.of_table ht).put _)

theorem deleteItem (h : state.KeysDistinct) (request : DeleteItem) :
    (state.deleteItem request).2.KeysDistinct := by
  unfold State.deleteItem
  dsimp only
  split
  · exact h
  · cases ht : state.table (request.tableName.getD "") with
    | error cause => exact h
    | ok stored => exact h.setTable ((h.of_table ht).delete _)

end KeysDistinct

end State

theorem StoredTable.Distinct.applyWrite {stored : StoredTable} (h : stored.Distinct)
    (write : WriteRequest) : (State.applyWrite stored write).Distinct := by
  unfold State.applyWrite
  split
  · exact h.put _
  · exact h.delete _
  · exact h

theorem StoredTable.Distinct.applyAll {stored : StoredTable} (h : stored.Distinct)
    (writes : List WriteRequest) : (writes.foldl State.applyWrite stored).Distinct := by
  induction writes generalizing stored with
  | nil => exact h
  | cons write rest ih => exact ih (h.applyWrite write)

namespace State

variable {state changed : State} {name : String} {stored : StoredTable}

namespace KeysDistinct

theorem applyWrites (h : state.KeysDistinct) (writes : List (String × List WriteRequest)) :
    (State.applyWrites writes state).2.KeysDistinct := by
  induction writes generalizing state with
  | nil => exact h
  | cons entry rest ih =>
    unfold State.applyWrites
    cases ht : state.table entry.1 with
    | error cause => exact h
    | ok stored => exact ih (h.setTable ((h.of_table ht).applyAll _))

theorem batchWriteItem (h : state.KeysDistinct) (request : BatchWrite) :
    (state.batchWriteItem request).2.KeysDistinct := by
  -- A batch is counted also when it is refused, so each branch starts from the counted state.
  have hcounted (size : Nat) : (state.counted size).KeysDistinct := h.of_tables rfl
  unfold State.batchWriteItem
  dsimp only
  split
  · exact hcounted _
  · split
    · exact hcounted _
    · exact (hcounted _).applyWrites _

/-- Every call keeps the keys distinct. -/
theorem answer (h : state.KeysDistinct) (operation : Operation) (request : operation.Request) :
    (backend.answer operation request state).2.KeysDistinct := by
  cases operation with
  | createTable => exact h.createTable request
  | describeTable => exact h.of_tables rfl
  | updateTable => exact h.updateTable request
  | deleteTable => exact h.deleteTable request
  | getItem => exact h
  | putItem => exact h.putItem request
  | deleteItem => exact h.deleteItem request
  | query => exact h.of_tables (tables_answerPage _ _ state)
  | scan => exact h.of_tables (tables_scan request state)
  | batchWriteItem => exact h.batchWriteItem request

end KeysDistinct

/-! ## What a run keeps -/

/-- The states to which calls lead from an empty store. A batch may come table by table in any
order; what is not a call forces the status of a table or, as a failure that is prepared, leaves
the tables alone. -/
inductive Reachable : State → Prop
  | empty : Reachable {}
  | answer {state : State} (reachable : Reachable state) (operation : Operation)
    (request : operation.Request) : Reachable (backend.answer operation request state).2
  | write {state : State} (reachable : Reachable state)
    (writes : List (String × List WriteRequest)) : Reachable (applyWrites writes state).2
  | force {state : State} (reachable : Reachable state) (name status : String) :
    Reachable (state.setStatus name status)
  | prepare {state changed : State} (reachable : Reachable state)
    (same : changed.tables = state.tables) : Reachable changed

def afterCalls (state : State) (calls : List Call) : State :=
  calls.foldl (fun state call => (backend.answer call.1 call.2 state).2) state

theorem Reachable.afterCalls (h : state.Reachable) (calls : List Call) :
    (state.afterCalls calls).Reachable := by
  induction calls generalizing state with
  | nil => exact h
  | cons call rest ih => exact ih (h.answer call.1 call.2)

theorem Reachable.keysDistinct (h : state.Reachable) : state.KeysDistinct := by
  induction h with
  | empty => exact fun _ _ h => nomatch h
  | answer _ operation request ih => exact ih.answer operation request
  | write _ writes ih => exact ih.applyWrites writes
  | force _ name status ih => exact ih.setStatus name status
  | prepare _ same ih => exact ih.of_tables same

end State

/-! ## What the keys of a table tell -/

theorem findIdx?_eq_some_iff_of_nodup {α β : Type} [DecidableEq β] (keyOf : α → β)
    {items : List α} (hd : (items.map keyOf).Nodup) {key : β} {place : Nat} :
    items.findIdx? (fun item => keyOf item = key) = some place ↔
      (items.map keyOf)[place]? = some key := by
  rw [List.findIdx?_eq_some_iff_getElem, List.getElem?_eq_some_iff]
  simp only [decide_eq_true_eq, List.length_map, List.getElem_map]
  constructor
  · rintro ⟨hlt, hkey, -⟩
    exact ⟨hlt, hkey⟩
  · rintro ⟨hlt, hkey⟩
    refine ⟨hlt, hkey, fun before hbefore hsame => ?_⟩
    -- An item found earlier would give the list of keys one key at two places.
    have hlt' : place < (items.map keyOf).length := by rwa [List.length_map]
    have hne := List.pairwise_iff_getElem.1 hd before place (Nat.lt_trans hbefore hlt') hlt' hbefore
    rw [List.getElem_map, List.getElem_map, hsame, hkey] at hne
    exact hne rfl

namespace StoredTable

variable {stored : StoredTable}

theorem position_eq_some_iff (hd : stored.Distinct) (key : WireItem) (place : Nat) :
    stored.position key = some place ↔ (stored.items.map stored.keyOf)[place]? = some key :=
  findIdx?_eq_some_iff_of_nodup stored.keyOf hd

theorem key_notMem_delete (hd : stored.Distinct) (key : WireItem) :
    key ∉ (stored.delete key).items.map (stored.delete key).keyOf := by
  rw [keyOf_delete, List.mem_map]
  rintro ⟨item, hitem, hkey⟩
  exact ((mem_items_delete hd key item).1 hitem).2 hkey

end StoredTable

namespace State

variable {state : State} {name : String} {stored : StoredTable}

theorem key_notMem_deleteItem (h : state.KeysDistinct) {request : DeleteItem} {reply : WriteReply}
    (hr : (state.deleteItem request).1 = .ok reply) :
    ∃ left, (state.deleteItem request).2.tables.get? (request.tableName.getD "") = some left ∧
      request.key.getD ∅ ∉ left.items.map left.keyOf := by
  unfold deleteItem at hr ⊢
  dsimp only at hr ⊢
  split at hr
  · cases hr
  · rename_i hserved
    rw [if_neg hserved]
    cases ht : state.table (request.tableName.getD "") with
    | error cause =>
      rw [ht] at hr
      cases hr
    | ok stored =>
      exact ⟨_, get?_setTable_self _ _ _, StoredTable.key_notMem_delete (h.of_table ht) _⟩

/-- What the keys of a table tell. -/
structure KeysTell (state : State) (name : String) (stored : StoredTable) : Prop where
  /-- No two items have one key. -/
  distinct : (stored.items.map stored.keyOf).Nodup
  /-- A key is found at the only place that has it. -/
  position : ∀ key place, stored.position key = some place ↔
    (stored.items.map stored.keyOf)[place]? = some key
  /-- A delete of a batch leaves no item of its key. -/
  erased : ∀ key, key ∉ (applyWrite stored { delete := some key }).items.map stored.keyOf
  /-- A single delete leaves no item of its key, unless it is refused. -/
  deleted : ∀ (request : DeleteItem) reply, request.tableName.getD "" = name →
    (state.deleteItem request).1 = .ok reply →
    ∃ left, (state.deleteItem request).2.tables.get? name = some left ∧
      request.key.getD ∅ ∉ left.items.map left.keyOf
  /-- The table is described with the number of the keys that it holds. -/
  counted : ∀ request : TableRequest, request.tableName.getD "" = name →
    ∃ description, (state.describeTable request).1 = .ok { description := some description } ∧
      description.itemCount = some ((stored.items.map stored.keyOf).toFinset.card : Int)

/-- In every state that calls lead to, the keys of a table tell its items apart. -/
theorem Reachable.keysTell (h : state.Reachable) (ht : state.tables.get? name = some stored) :
    state.KeysTell name stored := by
  have hd : stored.Distinct := h.keysDistinct name stored ht
  refine ⟨hd, stored.position_eq_some_iff hd, ?_, ?_, ?_⟩
  · intro key
    have hdeleted := StoredTable.key_notMem_delete hd key
    rwa [StoredTable.keyOf_delete] at hdeleted
  · rintro request reply rfl hr
    exact key_notMem_deleteItem h.keysDistinct hr
  · rintro request rfl
    refine ⟨{ stored.description with itemCount := some stored.items.length }, ?_, ?_⟩
    · have htable : State.table { state with describeCalls := state.describeCalls + 1 }
          (request.tableName.getD "") = .ok stored := table_eq_ok ht
      unfold describeTable
      dsimp only
      rw [htable]
      rfl
    · rw [List.toFinset_card_of_nodup hd, List.length_map]

def marked (id : Option String) (mark : String) : WireItem :=
  Named.ofList (("mark", .leaf (.string mark)) ::
    id.toList.map fun id => ("id", .leaf (.string id)))

/-- Calls that write items without a key, one over the other, and delete an item by all of its
attributes, which are no key, and then by its key. -/
def markedCalls : List Call :=
  [⟨.createTable, { tableName := some "marks", keySchema := some [⟨"id", hashPart⟩] }⟩,
    ⟨.putItem, { tableName := some "marks", item := some (marked (some "ada") "1") }⟩,
    ⟨.batchWriteItem, { requestItems := some <| Named.singleton "marks" [
      { put := some (marked none "2") }, { put := some (marked (some "bob") "3") },
      { put := some (marked none "4") }, { delete := some (marked (some "bob") "3") },
      { delete := some (Named.singleton "id" (.leaf (.string "bob"))) }] }⟩]

theorem keysTell_marked :
    ∃ stored, (afterCalls {} markedCalls).tables.get? "marks" = some stored ∧
      stored.items = [marked (some "ada") "1", marked none "4"] ∧
      (afterCalls {} markedCalls).KeysTell "marks" stored :=
  ⟨_, rfl, rfl, Reachable.keysTell (Reachable.empty.afterCalls markedCalls) rfl⟩

end State

end AttributeStore.Store
