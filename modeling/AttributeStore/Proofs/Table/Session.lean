import AttributeStore.Proofs.Table.Create
import AttributeStore.Proofs.Table.Keyed
import AttributeStore.Proofs.Table.Lookup

/-!
# A handle over the store is a finite map

A session is a handle together with the store behind it, and an action is one thing a caller can
do with them. `Contents` is the map from primary keys to items that the calls are about; each
action has its effect on the map, and `Tracked` takes both through a list of actions. The main
theorem says that the table and the map agree after any actions on a table just created, and that
a lookup finds what the map holds.
-/

namespace AttributeStore

open Store (StoredTable backend)

/-- Items by primary key, the key in wire form. -/
def Contents : Type :=
  WireItem → Option WireItem

namespace Contents

def empty : Contents := fun _ => none

def write (schema : TableSchema) (contents : Contents) (item : WireItem) : Contents :=
  match schema.keyOf item with
  | .ok key => fun other => if key = other then some item else contents other
  | .error _ => contents

def writeAll (schema : TableSchema) (contents : Contents) (entries : List Entry) : Contents :=
  entries.foldl (fun contents entry => contents.write schema entry.item) contents

def remove (contents : Contents) (key : WireItem) : Contents :=
  fun other => if other = key then none else contents other

end Contents

/-- A handle and the store that it speaks to. -/
structure Session where
  table : Table
  store : Store.State

/-- One thing to do with a session. The last three prepare failures. -/
inductive Action
  | addItem (item : Item)
  | addItemWith (item : Item) (expected : Expectations)
  | addRecord (record : Record)
  | put
  | batchPut
  | delete (hash : Value) (range : Option Value)
  | getOne (hash : Value) (range : Option Value)
  | failBatch (call : Nat)
  | leaveUnprocessed (count : Nat)
  | failDelete (key : WireItem)

namespace Session

def items (session : Session) : List WireItem :=
  session.store.items session.table.fullName

/-- The session with what staging gave; without it nothing changes. -/
def stage (session : Session) : Except CodecError Table → Session
  | .ok table => { session with table }
  | .error _ => session

def flush (session : Session) (program : Program (Except Error Unit × Table)) : Session :=
  let run := program.run backend session.store
  ⟨run.value.2, run.state⟩

def perform (session : Session) : Action → Session
  | .addItem item => session.stage (session.table.addItem item)
  | .addItemWith item expected => session.stage (session.table.addItemWith item expected)
  | .addRecord record => session.stage (session.table.addRecord record)
  | .put => session.flush session.table.put
  | .batchPut => session.flush session.table.batchPut
  | .delete hash range =>
    { session with store := ((session.table.delete hash range).run backend session.store).state }
  | .getOne hash range =>
    { session with store := ((session.table.getOne hash range).run backend session.store).state }
  | .failBatch call =>
    { session with store.failingBatches := call :: session.store.failingBatches }
  | .leaveUnprocessed count => { session with store.unprocessedPerBatch := count }
  | .failDelete key =>
    { session with store.failingDeletes := key :: session.store.failingDeletes }

/-- What an action does to the map: a flush writes the entries that it does not keep, a delete
that succeeds removes its key, and everything else changes nothing. -/
def effect (session : Session) (contents : Contents) : Action → Contents
  | .put =>
    contents.writeAll session.table.schema
      (session.table.putWritten session.table.spool session.store)
  | .batchPut =>
    contents.writeAll session.table.schema
      (session.table.batchWritten session.table.spool session.store)
  | .delete hash range =>
    match ((session.table.delete hash range).run backend session.store).value,
      session.table.wireKey hash range with
    | .ok (), .ok key => contents.remove key
    | _, _ => contents
  | _ => contents

end Session

/-! ## What one action preserves -/

namespace Session

variable {session : Session} {contents : Contents} {stored : StoredTable}

/-- The table of a session is stored, its items are keyed, and each key finds what the map
holds. -/
structure Matches (session : Session) (contents : Contents) (stored : StoredTable) : Prop where
  isStored : session.store.tables.get? session.table.fullName = some stored
  keyed : stored.Keyed session.table.schema
  agrees : ∀ key, contents key = stored.find? key

end Session

namespace Store.StoredTable

variable {schema : TableSchema} {stored : StoredTable} {contents : Contents}

theorem Keyed.write (h : stored.Keyed schema) (ha : ∀ key, contents key = stored.find? key)
    {item : WireItem} (hk : HasKey schema.keyDefinitions item) (key : WireItem) :
    contents.write schema item key = (stored.put item).find? key := by
  unfold Contents.write
  rw [TableSchema.keyOf_of_hasKey hk, find?_put h.distinct, stored.keyOf_eq h.names]
  simp only [ha]

theorem Keyed.writeAll (h : stored.Keyed schema) (ha : ∀ key, contents key = stored.find? key)
    {entries : List Entry} (hk : ∀ entry ∈ entries, HasKey schema.keyDefinitions entry.item)
    (key : WireItem) :
    contents.writeAll schema entries key = (stored.putAll entries).find? key := by
  induction entries generalizing stored contents with
  | nil => exact ha key
  | cons entry rest ih =>
    have hentry := hk entry List.mem_cons_self
    exact ih (h.put hentry) (h.write ha hentry) fun e he => hk e (List.mem_cons_of_mem _ he)

end Store.StoredTable

namespace Session

variable {session : Session} {contents : Contents} {stored : StoredTable}

theorem Matches.stage (h : session.Matches contents stored) {staged : Except CodecError Table}
    (hs : ∀ table, staged = .ok table →
      table.fullName = session.table.fullName ∧ table.schema = session.table.schema) :
    (session.stage staged).Matches contents stored := by
  cases staged with
  | error cause => exact h
  | ok table =>
    obtain ⟨hname, hschema⟩ := hs table rfl
    refine ⟨?_, ?_, h.agrees⟩
    · change session.store.tables.get? table.fullName = some stored
      rw [hname]
      exact h.isStored
    · change stored.Keyed table.schema
      rw [hschema]
      exact h.keyed

/-- A flush that settles what it took puts the entries it does not keep into table and map. -/
theorem Matches.flush (h : session.Matches contents stored) {name : String}
    {send : List Entry → Program Flush} {written : List Entry}
    (hf : Table.Flushed session.table stored session.table.spool written
      ((send session.table.spool).run backend session.store)) :
    (session.flush (session.table.flushWith name send)).Matches
      (contents.writeAll session.table.schema written) (stored.putAll written) := by
  obtain ⟨hvalue, hstate, -⟩ := Table.run_flushWith backend session.table name send session.store
  simp only [Session.flush, hvalue, hstate]
  exact ⟨hf.holds, h.keyed.putAll hf.keyed, h.keyed.writeAll h.agrees hf.keyed⟩

theorem Matches.delete (h : session.Matches contents stored) (hash : Value)
    (range : Option Value) :
    ∃ stored', (session.perform (.delete hash range)).Matches
      (session.effect contents (.delete hash range)) stored' := by
  rcases Table.delete_cases h.isStored hash range with ⟨cause, hv, hs⟩ | ⟨key, hk, hv, hs⟩
  · simp only [perform, effect, hv, hs]
    exact ⟨stored, h.isStored, h.keyed, h.agrees⟩
  · simp only [perform, effect, hv, hs, hk]
    refine ⟨stored.delete key, Store.State.get?_setTable_self _ _ _, h.keyed.delete key, ?_⟩
    intro other
    rw [StoredTable.find?_delete h.keyed.distinct, ← h.agrees other]
    rfl

theorem addItemWith_same {table staged : Table} {item : Item} {expected : Expectations}
    (h : table.addItemWith item expected = .ok staged) :
    staged.fullName = table.fullName ∧ staged.schema = table.schema := by
  unfold Table.addItemWith at h
  simp only [bind_eq_ok, pure_eq_ok] at h
  obtain ⟨_, _, rfl⟩ := h
  exact ⟨rfl, rfl⟩

theorem addRecord_same {table staged : Table} {record : Record}
    (h : table.addRecord record = .ok staged) :
    staged.fullName = table.fullName ∧ staged.schema = table.schema := by
  unfold Table.addRecord at h
  simp only [bind_eq_ok, pure_eq_ok] at h
  obtain ⟨_, _, rfl⟩ := h
  exact ⟨rfl, rfl⟩

theorem Matches.perform (h : session.Matches contents stored) (action : Action) :
    ∃ stored', (session.perform action).Matches (session.effect contents action) stored' := by
  cases action with
  | addItem item => exact ⟨stored, h.stage fun _ ht => addItemWith_same ht⟩
  | addItemWith item expected => exact ⟨stored, h.stage fun _ ht => addItemWith_same ht⟩
  | addRecord record => exact ⟨stored, h.stage fun _ ht => addRecord_same ht⟩
  | put => exact ⟨_, h.flush (Table.run_putEntries h.isStored session.table.spool)⟩
  | batchPut => exact ⟨_, h.flush (Table.run_batchEntries h.isStored session.table.spool)⟩
  | delete hash range => exact h.delete hash range
  | getOne hash range =>
    refine ⟨stored, ?_, h.keyed, h.agrees⟩
    simp only [Session.perform, Table.state_run_getOne]
    exact h.isStored
  | failBatch call => exact ⟨stored, h.isStored, h.keyed, h.agrees⟩
  | leaveUnprocessed count => exact ⟨stored, h.isStored, h.keyed, h.agrees⟩
  | failDelete key => exact ⟨stored, h.isStored, h.keyed, h.agrees⟩

end Session

/-! ## What a run preserves -/

/-- A session and the map that it stands for. -/
structure Tracked where
  session : Session
  contents : Contents

namespace Tracked

def step (tracked : Tracked) (action : Action) : Tracked :=
  ⟨tracked.session.perform action, tracked.session.effect tracked.contents action⟩

def run (tracked : Tracked) (actions : List Action) : Tracked :=
  actions.foldl step tracked

theorem matches_run {tracked : Tracked} {stored : StoredTable}
    (h : tracked.session.Matches tracked.contents stored) (actions : List Action) :
    ∃ stored', (tracked.run actions).session.Matches (tracked.run actions).contents stored' := by
  induction actions generalizing tracked stored with
  | nil => exact ⟨stored, h⟩
  | cons action rest ih =>
    obtain ⟨stored', h'⟩ := h.perform action
    exact ih h'

/-- The session of a table just created, with the empty map. -/
def opened (namePrefix : String) (asked : TableSchema) (start : Store.State) (table : Table) :
    Tracked :=
  ⟨⟨table, ((Table.create namePrefix asked).run backend start).state⟩, Contents.empty⟩

end Tracked

/-- What it means that the table of a session is a map: every item has a key, no two have the
same, the map holds under each key the item that has it, a lookup finds what the map holds, and
a flush would settle every staged entry. -/
structure Session.Refines (session : Session) (contents : Contents) : Prop where
  keyed : ∀ item ∈ session.items, ∃ key, session.table.schema.keyOf item = .ok key
  distinct : (session.items.map session.table.schema.keyOf).Nodup
  agrees : ∀ key item, contents key = some item ↔
    item ∈ session.items ∧ session.table.schema.keyOf item = .ok key
  found : ∀ hash range key, session.table.wireKey hash range = .ok key →
    ((session.table.getOne hash range).run backend session.store).value =
      .ok ((contents key).map WireItem.decode)
  put : Settled session.table.spool
    (session.table.putWritten session.table.spool session.store)
    (session.perform .put).table.errorItems
  batchPut : Settled session.table.spool
    (session.table.batchWritten session.table.spool session.store)
    (session.perform .batchPut).table.errorItems

namespace Session

variable {session : Session} {contents : Contents} {stored : StoredTable}

theorem Matches.refines (h : session.Matches contents stored) : session.Refines contents := by
  have hitems : session.items = stored.items := Store.State.items_eq h.isStored
  refine ⟨?_, ?_, ?_, ?_, ?_, ?_⟩
  · intro item hitem
    rw [hitems] at hitem
    exact ⟨_, TableSchema.keyOf_of_hasKey (h.keyed.complete item hitem)⟩
  · rw [hitems]
    have hkeys : stored.items.map session.table.schema.keyOf =
        (stored.items.map stored.keyOf).map Except.ok := by
      rw [List.map_map]
      apply List.map_congr_left
      intro item hitem
      exact (h.keyed.keyOf_eq_ok_iff hitem _).2 rfl
    rw [hkeys]
    exact h.keyed.distinct.map fun _ _ => Except.ok.inj
  · intro key item
    rw [h.agrees, StoredTable.find?_eq_some_iff h.keyed.distinct, hitems]
    exact and_congr_right fun hitem => (h.keyed.keyOf_eq_ok_iff hitem key).symm
  · intro hash range key hk
    rw [Table.value_run_getOne h.isStored hk, h.agrees]
  · have hvalue := (Table.run_flushWith backend session.table "put" session.table.putEntries
      session.store).1
    change Settled _ _ ((session.table.put.run backend session.store).value.2).errorItems
    rw [Table.put, hvalue]
    exact (Table.run_putEntries h.isStored session.table.spool).settled
  · have hvalue := (Table.run_flushWith backend session.table "batch_put"
      session.table.batchEntries session.store).1
    change Settled _ _ ((session.table.batchPut.run backend session.store).value.2).errorItems
    rw [Table.batchPut, hvalue]
    exact (Table.run_batchEntries h.isStored session.table.spool).settled

end Session

/-- After any actions on a table just created, the table is the map that the effects of the
actions make of the empty one. -/
theorem session_refines_map {namePrefix : String} {asked : TableSchema} {start : Store.State}
    {table : Table}
    (hc : ((Table.create namePrefix asked).run backend start).value = .ok table)
    (actions : List Action) :
    let tracked := (Tracked.opened namePrefix asked start table).run actions
    tracked.session.Refines tracked.contents := by
  obtain ⟨_, _, stored, hstored, hkeys, hitems⟩ := Table.created_of_run hc
  have hstart : (Tracked.opened namePrefix asked start table).session.Matches
      (Tracked.opened namePrefix asked start table).contents stored := by
    refine ⟨hstored, .of_items_nil hkeys hitems, ?_⟩
    intro key
    unfold StoredTable.find?
    rw [hitems]
    rfl
  obtain ⟨stored', h⟩ := Tracked.matches_run hstart actions
  exact h.refines

def person (id : String) : Item :=
  Named.ofList [("id", .leaf (.string id)), ("age", .leaf (.number ⟨"36"⟩))]

/-- Two writes, of which the second is refused, and a delete of a key that is not there. -/
def peopleActions : List Action :=
  [.addItem (person "ada"), .put, .addItem (person "bob"), .failBatch 0, .batchPut,
    .delete (.leaf (.string "bob")) none]

theorem session_refines_map_people :
    ((Table.create "dev_" Table.people).run backend {}).value = .ok Table.peopleTable ∧
    ((Tracked.opened "dev_" Table.people {} Table.peopleTable).run
      peopleActions).session.items.length = 1 ∧
    ((Tracked.opened "dev_" Table.people {} Table.peopleTable).run peopleActions).session.Refines
      ((Tracked.opened "dev_" Table.people {} Table.peopleTable).run peopleActions).contents :=
  ⟨rfl, by decide +kernel, session_refines_map rfl peopleActions⟩

end AttributeStore
