import AttributeStore.Batch
import AttributeStore.Entry
import AttributeStore.Proofs.Named
import AttributeStore.Proofs.Run
import AttributeStore.Store.Backend

/-!
# What calls do to a table

One lemma for each call that concerns a single table: what the store answers when it has the
table, and what it then holds under the table's name. A refused call leaves the table as it was.
-/

namespace AttributeStore

open Wire (Operation)

namespace Store

def deleteRejected : BackendError :=
  ⟨"ProvisionedThroughputExceededException: delete rejected"⟩

def scanRejected : BackendError :=
  ⟨"ProvisionedThroughputExceededException: scan rejected"⟩

def conditionFailed : BackendError :=
  ⟨"ConditionalCheckFailedException: The conditional request failed"⟩

section Runs

variable (table : String) (state : State)

theorem run_createTable (request : Wire.CreateTable) :
    (callTable .createTable table request).run backend state =
      callOutcome .createTable table request (state.createTable request) :=
  run_callTable backend .createTable table request state

theorem run_getItem (request : Wire.GetItem) :
    (callTable .getItem table request).run backend state =
      callOutcome .getItem table request (state.getItem request) :=
  run_callTable backend .getItem table request state

theorem run_putItem (request : Wire.PutItem) :
    (callTable .putItem table request).run backend state =
      callOutcome .putItem table request (state.putItem request) :=
  run_callTable backend .putItem table request state

theorem run_deleteItem (request : Wire.DeleteItem) :
    (callTable .deleteItem table request).run backend state =
      callOutcome .deleteItem table request (state.deleteItem request) :=
  run_callTable backend .deleteItem table request state

theorem run_query (request : Wire.Query) :
    (callTable .query table request).run backend state =
      callOutcome .query table request (state.queryPage request) :=
  run_callTable backend .query table request state

theorem run_scan (request : Wire.Scan) :
    (callTable .scan table request).run backend state =
      callOutcome .scan table request (state.scan request) :=
  run_callTable backend .scan table request state

theorem run_batchWriteItem (request : Wire.BatchWrite) :
    (callTable .batchWriteItem table request).run backend state =
      callOutcome .batchWriteItem table request (state.batchWriteItem request) :=
  run_callTable backend .batchWriteItem table request state

end Runs

namespace State

variable {state : State} {name : String} {stored : StoredTable}

theorem table_eq_ok (h : state.tables.get? name = some stored) :
    state.table name = .ok stored := by
  rw [table, h]

theorem get?_of_table (h : state.table name = .ok stored) :
    state.tables.get? name = some stored := by
  unfold table at h
  split at h
  · rename_i found hfound
    rw [hfound, Except.ok.inj h]
  · cases h

theorem items_eq (h : state.tables.get? name = some stored) : state.items name = stored.items := by
  rw [items, h, Option.elim_some]

theorem get?_setTable (state : State) (name key : String) (stored : StoredTable) :
    (state.setTable name stored).tables.get? key =
      if name = key then some stored else state.tables.get? key :=
  Named.get?_insert state.tables name key stored

@[simp] theorem get?_setTable_self (state : State) (name : String) (stored : StoredTable) :
    (state.setTable name stored).tables.get? name = some stored := by
  rw [get?_setTable, if_pos rfl]

theorem setTable_self (h : state.tables.get? name = some stored) :
    state.setTable name stored = state := by
  have htables : state.tables.insert name stored = state.tables := by
    ext key : 1
    rw [Named.get?_insert]
    split
    · rename_i hkey
      rw [← hkey, h]
    · rfl
  rw [setTable, htables]

theorem setTable_setTable (state : State) (name : String) (first second : StoredTable) :
    (state.setTable name first).setTable name second = state.setTable name second := by
  have htables : (state.tables.insert name first).insert name second =
      state.tables.insert name second := by
    ext key : 1
    rw [Named.get?_insert, Named.get?_insert, Named.get?_insert]
    split <;> rfl
  simp only [setTable, htables]

def created (request : Wire.CreateTable) : StoredTable where
  description := describeCreated request
  keys := keyNames (request.keySchema.getD [])
  items := []

theorem createTable_cases (request : Wire.CreateTable) (state : State) :
    (∃ cause, state.createTable request = (.error cause, state)) ∨
      state.createTable request =
        (.ok { description := some (describeCreated request) },
          state.setTable (request.tableName.getD "") (created request)) := by
  unfold createTable
  dsimp only
  split
  · exact Or.inl ⟨_, rfl⟩
  · exact Or.inr rfl

theorem putItem_cases {request : Wire.PutItem}
    (h : state.tables.get? (request.tableName.getD "") = some stored) :
    (∃ cause, state.putItem request = (.error cause, state)) ∨
      state.putItem request =
        (.ok {},
          state.setTable (request.tableName.getD "") (stored.put (request.item.getD ∅))) := by
  unfold putItem
  simp only [table_eq_ok h]
  split
  · exact Or.inl ⟨_, rfl⟩
  · split
    · exact Or.inl ⟨_, rfl⟩
    · exact Or.inl ⟨_, rfl⟩
    · exact Or.inr rfl

theorem deleteItem_deleteRequest (h : state.tables.get? name = some stored) (key : WireItem) :
    state.deleteItem (deleteRequest key name) =
      if key ∈ state.failingDeletes then (.error deleteRejected, state)
      else (.ok { attributes := stored.find? key }, state.setTable name (stored.delete key)) := by
  unfold deleteItem deleteRequest
  simp only [Option.getD_some, table_eq_ok h]
  rfl

/-- A read only tells of a panic. -/
theorem answerPage_cases (asked : Except BackendError (StoredTable × PageRequest))
    (reply : Page → Wire.PageReply) (state : State) :
    (state.answerPage asked reply).2 = state ∨
      (state.answerPage asked reply).2 = { state with panicked := true } := by
  unfold answerPage
  split
  · exact .inl rfl
  · split
    · exact .inr rfl
    · exact .inl rfl

theorem tables_answerPage (asked : Except BackendError (StoredTable × PageRequest))
    (reply : Page → Wire.PageReply) (state : State) :
    (state.answerPage asked reply).2.tables = state.tables := by
  rcases answerPage_cases asked reply state with h | h <;> rw [h]

theorem tables_scan (request : Wire.Scan) (state : State) :
    (state.scan request).2.tables = state.tables := by
  unfold scan
  dsimp only
  split
  · rfl
  · exact tables_answerPage _ _ _

theorem getItem_key (h : state.tables.get? name = some stored) (key : WireItem)
    (consistentRead : Option Bool) :
    state.getItem { tableName := some name, key := some key, consistentRead } =
      (.ok { item := stored.find? key }, state) := by
  unfold getItem
  simp only [Option.getD_some, table_eq_ok h, Except.map]
  rw [show project none ⟨none, none⟩ = id from rfl, Option.map_id]
  rfl

end State

end Store

theorem getD_unprocessed (name : String) (undone : List Wire.WriteRequest) :
    ((Named.ofList (if undone.isEmpty then [] else [(name, undone)])).present.bind
      (·.get? name)).getD [] = undone := by
  cases undone with
  | nil => rfl
  | cons write rest =>
    rw [Named.get?_present, List.isEmpty_cons, if_neg Bool.false_ne_true, Named.ofList,
      List.foldl_cons, List.foldl_nil, Named.get?_insert, if_pos rfl, Option.getD_some]

theorem Write.ofWire_toWire (write : Write) : Write.ofWire write.toWire = write := by
  cases write <;> rfl

theorem Write.map_ofWire_toWire (writes : List Write) :
    (writes.map Write.toWire).map Write.ofWire = writes := by
  rw [List.map_map, show Write.ofWire ∘ Write.toWire = id from funext Write.ofWire_toWire,
    List.map_id]

namespace Store.State

variable {state : State} {name : String} {stored : StoredTable}

/-- A batch for one table is refused as a whole, or a beginning of it is written and the rest is
given back. -/
theorem batchWriteItem_cases (h : state.tables.get? name = some stored) (writes : List Write) :
    (∃ cause, (state.batchWriteItem (batchRequest name writes)).1 = .error cause ∧
      (state.batchWriteItem (batchRequest name writes)).2.tables.get? name = some stored) ∨
    ∃ reply done, (state.batchWriteItem (batchRequest name writes)).1 = .ok reply ∧
      unprocessedWrites name reply = writes.drop done ∧
      (state.batchWriteItem (batchRequest name writes)).2.tables.get? name =
        some (((writes.take done).map Write.toWire).foldl applyWrite stored) := by
  have hentries : (Named.singleton name (writes.map Write.toWire)).entries =
      [(name, writes.map Write.toWire)] := rfl
  unfold batchWriteItem batchRequest
  simp only [Option.getD_some, hentries]
  split
  · exact Or.inl ⟨_, rfl, h⟩
  split
  · exact Or.inl ⟨_, rfl, h⟩
  right
  have htable : State.table { state with batchSizes := state.batchSizes ++
      [([(name, writes.map Write.toWire)].flatMap Prod.snd).length] } name = .ok stored :=
    table_eq_ok h
  simp only [applyWrites, htable, List.length_map]
  refine ⟨_, writes.length - state.unprocessedPerBatch, rfl, ?_, ?_⟩
  · rw [unprocessedWrites, getD_unprocessed, ← List.map_drop, Write.map_ofWire_toWire]
  · simp only [get?_setTable_self, List.map_take]

/-- No batch to come is refused, and none leaves writes undone. -/
structure Quiet (state : State) : Prop where
  whole : state.unprocessedPerBatch = 0
  served : ∀ call ∈ state.failingBatches, call < state.batchSizes.length

def counted (state : State) (size : Nat) : State :=
  { state with batchSizes := state.batchSizes ++ [size] }

theorem Quiet.counted (h : state.Quiet) (size : Nat) : (state.counted size).Quiet where
  whole := h.whole
  served := by
    intro call hm
    have hbefore := h.served call hm
    unfold State.counted
    rw [List.length_append]
    exact Nat.lt_add_right _ hbefore

theorem applyWrites_whole (hw : state.unprocessedPerBatch = 0)
    (h : state.tables.get? name = some stored) (writes : List Wire.WriteRequest) :
    applyWrites [(name, writes)] state =
      (.ok [], state.setTable name (writes.foldl applyWrite stored)) := by
  simp only [applyWrites, table_eq_ok h, hw, Nat.sub_zero, List.drop_length, List.take_length]
  rfl

/-- A quiet store writes a whole batch. -/
theorem Quiet.batchWriteItem (hq : state.Quiet) (h : state.tables.get? name = some stored)
    {writes : List Write} (hlength : writes.length ≤ 25) :
    state.batchWriteItem (batchRequest name writes) =
      (.ok {}, (state.counted writes.length).setTable name
        ((writes.map Write.toWire).foldl applyWrite stored)) := by
  have hentries : (Named.singleton name (writes.map Write.toWire)).entries =
      [(name, writes.map Write.toWire)] := rfl
  have hsize : ([(name, writes.map Write.toWire)].flatMap Prod.snd).length = writes.length := by
    simp
  have hserved : state.batchSizes.length ∉ state.failingBatches := by
    intro hm
    exact Nat.lt_irrefl _ (hq.served _ hm)
  have happly := @applyWrites_whole (state.counted writes.length) name stored hq.whole h
    (writes.map Write.toWire)
  unfold State.counted at happly ⊢
  unfold State.batchWriteItem batchRequest
  simp only [Option.getD_some, hentries, hsize, happly]
  rw [if_neg (Nat.not_lt.2 hlength), if_neg hserved]
  rfl

end Store.State

end AttributeStore
