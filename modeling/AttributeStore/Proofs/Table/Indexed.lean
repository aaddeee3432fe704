import AttributeStore.Proofs.Table.Create
import AttributeStore.Proofs.Table.Describe
import AttributeStore.Store.Page

/-!
# The keys of the indexes of a created table

A read goes by the key of an index. The store takes it from the description of the table, the
handle knows it from its schema; of a table that a creation made, both say the same, a local index
coming before a global one of its name, and the table's own key standing in for an index that is not
there.
-/

namespace AttributeStore

open Store (StoredTable KeyNames State backend describeCreated describeIndex)

def Index.keys (index : Index) : KeyNames :=
  ⟨index.hashKey, index.rangeKey⟩

/-- The key by which an index is read; that of the table without such an index. -/
def TableSchema.indexKeyNames (schema : TableSchema) (indexName : Option String) : KeyNames :=
  ((indexName.bind schema.index?).map Index.keys).getD schema.keyNames

/-! ## What a schema and its table have in common -/

def Index.entry (index : Index) : String × KeyNames :=
  (index.name, index.keys)

theorem Index.keys_find? (indexes : List Index) (name : String) :
    (indexes.find? fun index => index.name = name).map keys =
      ((indexes.map entry).find? fun entry => entry.1 = name).map Prod.snd := by
  rw [List.find?_map, Option.map_map]
  rfl

namespace TableSchema

variable {asked schema : TableSchema} {namePrefix : String}

theorem Tells.map_entry
    (h : Tells (describeCreated (asked.toCreateRequest namePrefix)) namePrefix schema) :
    schema.localIndexes.map Index.entry = asked.localIndexes.map Index.entry ∧
      schema.globalIndexes.map Index.entry = asked.globalIndexes.map Index.entry := by
  constructor
  · rw [h.localIndexes]
    simp only [describeCreated, toCreateRequest, Wire.getD_presentList, List.map_map]
    refine List.map_congr_left fun index _ => ?_
    simp only [Function.comp_apply, Index.entry, Index.keys, Index.ofLocal, describeIndex,
      Index.toWire, Option.getD_some, keyName?_hashPart, keyName?_rangePart]
  · have hread := h.globalIndexes
    simp only [describeCreated, toCreateRequest, Wire.getD_presentList, List.map_map,
      List.mapM_map] at hread
    refine map_eq_map_of_mapM hread fun index _ read hindex => ?_
    simp only [Function.comp_apply, Index.ofGlobal, describeIndex, Index.toWire, Option.getD_some,
      keyName?_hashPart, keyName?_rangePart, Except.ok.injEq] at hindex
    rw [← hindex]
    rfl

theorem Tells.keys_index?
    (h : Tells (describeCreated (asked.toCreateRequest namePrefix)) namePrefix schema)
    (name : String) :
    (schema.index? name).map Index.keys = (asked.index? name).map Index.keys := by
  rw [index?, index?, Index.keys_find?, Index.keys_find?, List.map_append, List.map_append,
    h.map_entry.1, h.map_entry.2]

end TableSchema

/-- A creation that succeeds gives the schema that the new table tells. -/
theorem Table.tells_of_create {namePrefix : String} {asked : TableSchema} {start : State}
    {table : Table} (made : ((create namePrefix asked).run backend start).value = .ok table) :
    TableSchema.Tells (describeCreated (asked.toCreateRequest namePrefix)) namePrefix
      table.schema := by
  obtain ⟨-, hrun⟩ := run_create namePrefix asked start
  split at hrun
  · rw [hrun.1] at made
    cases made
  · rw [hrun.1] at made
    cases hread : TableSchema.ofDescription
        (describeCreated (asked.toCreateRequest namePrefix)) namePrefix with
    | error cause =>
      rw [hread] at made
      cases made
    | ok schema =>
      rw [hread] at made
      obtain rfl := Except.ok.inj made
      exact TableSchema.ofDescription_eq_ok_iff.1 hread

namespace Store.StoredTable

/-- A table that was created, with whatever items and capacity it has by now. -/
structure MadeFor (namePrefix : String) (asked : TableSchema) (stored : StoredTable) : Prop where
  keys : stored.keys = (State.created (asked.toCreateRequest namePrefix)).keys
  localIndexes : stored.description.localIndexes =
    (describeCreated (asked.toCreateRequest namePrefix)).localIndexes
  globalIndexes : stored.description.globalIndexes =
    (describeCreated (asked.toCreateRequest namePrefix)).globalIndexes

variable {namePrefix : String} {asked : TableSchema} {stored : StoredTable}

theorem MadeFor.indexKeys_some (h : stored.MadeFor namePrefix asked) (name : String) :
    stored.indexKeys (some name) = ((asked.index? name).map Index.keys).getD stored.keys := by
  have hkeys (index : Index) : keyNames (keySchema index.hashKey index.rangeKey) = index.keys :=
    keyNames_keySchema _ _
  have hname (index : Index) : decide (some index.name = some name) = decide (index.name = name) :=
    decide_eq_decide.2 Option.some_inj
  unfold indexKeys TableSchema.index?
  rw [h.localIndexes, h.globalIndexes]
  simp only [describeCreated, TableSchema.toCreateRequest, Wire.getD_presentList, List.map_map,
    List.find?_map, List.find?_append, Function.comp_def, describeIndex, Index.toWire, hname]
  generalize asked.localIndexes.find? _ = first
  generalize asked.globalIndexes.find? _ = second
  cases first with
  | some index => exact hkeys index
  | none =>
    cases second with
    | some index => exact hkeys index
    | none => rfl

/-- The store and the handle read a created table by the same key. -/
theorem MadeFor.indexKeys_eq (h : stored.MadeFor namePrefix asked) {schema : TableSchema}
    (told : TableSchema.Tells (describeCreated (asked.toCreateRequest namePrefix)) namePrefix
      schema) (indexName : Option String) :
    stored.indexKeys indexName = schema.indexKeyNames indexName := by
  have hkeys : stored.keys = schema.keyNames := h.keys.trans told.keys_created
  cases indexName with
  | none => exact hkeys
  | some name =>
    rw [h.indexKeys_some, ← told.keys_index?, hkeys]
    rfl

end Store.StoredTable

end AttributeStore
