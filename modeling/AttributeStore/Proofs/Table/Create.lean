import AttributeStore.Proofs.Keys
import AttributeStore.Proofs.Schema.Creation
import AttributeStore.Proofs.Store.Calls
import AttributeStore.Table.Admin

/-!
# The table that a creation leaves

A creation that succeeds gives a handle of the asked name with an empty spool. Behind it the store
holds an empty table whose key attributes have the names of the handle's schema, because the
schema is read back from the description of that table.
-/

namespace AttributeStore

open Store (StoredTable backend)

theorem Store.keyNames_keySchema (hashKey : String) (rangeKey : Option String) :
    Store.keyNames (keySchema hashKey rangeKey) = ⟨hashKey, rangeKey⟩ := by
  cases rangeKey <;> rfl

/-- The store goes by the key attributes that it tells of a created table. -/
theorem TableSchema.Tells.keys_created {asked schema : TableSchema} {namePrefix : String}
    (h : Tells (Store.describeCreated (asked.toCreateRequest namePrefix)) namePrefix schema) :
    (Store.State.created (asked.toCreateRequest namePrefix)).keys = schema.keyNames := by
  have hhash : keyName? Wire.hashPart (keySchema _ _) = _ := h.hashKey
  have hrange : keyName? Wire.rangePart (keySchema _ _) = _ := h.rangeKey
  rw [keyName?_hashPart] at hhash
  rw [keyName?_rangePart] at hrange
  change Store.keyNames (keySchema _ _) = _
  rw [Store.keyNames_keySchema, keyNames, Option.some.inj hhash, hrange]

namespace Table

/-- What a creation that succeeds leaves: a handle with nothing staged, and behind it an empty
table with the key attributes of the handle's schema. -/
structure Created (namePrefix : String) (asked : TableSchema) (table : Table)
    (state : Store.State) : Prop where
  fullName : table.fullName = asked.fullName namePrefix
  spool : table.spool = []
  holds : ∃ stored, state.tables.get? table.fullName = some stored ∧
    stored.keys = table.schema.keyNames ∧ stored.items = []

theorem created_of_run {namePrefix : String} {asked : TableSchema} {start : Store.State}
    {table : Table}
    (h : ((create namePrefix asked).run backend start).value = .ok table) :
    Created namePrefix asked table ((create namePrefix asked).run backend start).state := by
  unfold create at h ⊢
  simp only [Program.run_bind, Store.run_createTable, callOutcome] at h ⊢
  rcases Store.State.createTable_cases (asked.toCreateRequest namePrefix) start with
    ⟨cause, hc⟩ | hc
  · rw [hc] at h
    cases h
  · rw [hc] at h ⊢
    unfold Except.mapError at h ⊢
    dsimp only at h ⊢
    cases hs : createdSchema namePrefix asked
        { description := some (Store.describeCreated (asked.toCreateRequest namePrefix)) } with
    | error cause =>
      rw [hs] at h
      cases h
    | ok schema =>
      rw [hs] at h
      obtain rfl : ({ namePrefix, schema } : Table) = table := Except.ok.inj h
      have told := TableSchema.ofDescription_eq_ok_iff.1 hs
      have hfull : schema.fullName namePrefix = asked.fullName namePrefix := by
        rw [TableSchema.fullName, TableSchema.name_of_created hs, TableSchema.fullName]
      refine ⟨hfull, rfl, Store.State.created (asked.toCreateRequest namePrefix), ?_,
        told.keys_created, rfl⟩
      change Named.get? (Store.State.tables _) (schema.fullName namePrefix) = _
      rw [hfull]
      exact Store.State.get?_setTable_self _ _ _

def people : TableSchema :=
  .withHashKey "people" ⟨"id", .string⟩

def peopleTable : Table :=
  { namePrefix := "dev_", schema := { people with status := some Wire.activeStatus } }

example : ((create "dev_" people).run backend {}).value = .ok peopleTable := rfl

end Table

end AttributeStore
