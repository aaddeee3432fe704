import AttributeStore.Proofs.Schema.Description
import AttributeStore.Store

/-!
# The description of a created table

A schema whose keys are defined and whose indexes stand under their kinds comes back from the
description of the table that its request creates. Every schema that was read from a description
is of this kind, however irregular the description, so that reading is a normal form.
-/

namespace AttributeStore

open Store (describeCreated describeIndex describeThroughput)
open Wire

theorem TableSchema.name_of_created {asked read : TableSchema} {namePrefix : String}
    (h : ofDescription (describeCreated (asked.toCreateRequest namePrefix)) namePrefix =
      .ok read) : read.name = asked.name := by
  rw [(ofDescription_eq_ok_iff.1 h).name]
  exact shortName_append namePrefix asked.name

/-! ## Each part there and back -/

theorem Wire.getD_presentList {α : Type} (list : List α) : (presentList list).getD [] = list := by
  cases list <;> rfl

theorem Projection.ofWire_toWire (projection : Projection) :
    ofWire (some projection.toWire) = projection := by
  cases projection <;> simp [ofWire, toWire]

theorem describedThroughput_describeThroughput (throughput : Throughput) (decreases : Int) :
    describedThroughput (some (describeThroughput throughput decreases)) = throughput :=
  rfl

theorem Catalog.ofWire_members (catalog : Catalog) :
    ofWire (catalog.members.map fun definition =>
      ⟨definition.name, definition.wireType.tag⟩) = .ok catalog :=
  ofWire_eq_ok_iff.2 ⟨catalog.members, rfl, Roster.ofList_members catalog⟩

namespace Index

variable {index : Index}

/-- An index stands among the local ones: it has their kind and no capacity. -/
def IsLocal (index : Index) : Prop :=
  index.kind = .localIndex ∧ index.throughput = none

/-- An index stands among the global ones: it has their kind and a capacity. -/
def IsGlobal (index : Index) : Prop :=
  index.kind = .globalIndex ∧ ∃ throughput, index.throughput = some throughput

theorem ofLocal_describeIndex (h : index.IsLocal) (tableHashKey : String) :
    ofLocal tableHashKey (describeIndex index.toWire) = index := by
  obtain ⟨name, kind, hashKey, rangeKey, projection, throughput⟩ := index
  obtain ⟨rfl, rfl⟩ : kind = .localIndex ∧ throughput = none := h
  simp only [ofLocal, describeIndex, toWire, Option.getD_some, keyName?_hashPart,
    keyName?_rangePart, Projection.ofWire_toWire]

theorem ofGlobal_describeIndex (h : index.IsGlobal) (status : Option String) :
    ofGlobal { describeIndex index.toWire with
      throughput := some (describeThroughput (index.throughput.getD Throughput.default) 0)
      status } = .ok index := by
  obtain ⟨name, kind, hashKey, rangeKey, projection, throughput⟩ := index
  obtain ⟨rfl, capacity, rfl⟩ :
    kind = .globalIndex ∧ ∃ capacity, throughput = some capacity := h
  simp only [ofGlobal, describeIndex, toWire, Option.getD_some, keyName?_hashPart,
    keyName?_rangePart, Projection.ofWire_toWire, describedThroughput_describeThroughput]

theorem isLocal_ofLocal (tableHashKey : String) (description : LocalIndexDescription) :
    (ofLocal tableHashKey description).IsLocal :=
  ⟨rfl, rfl⟩

theorem isGlobal_of_ofGlobal {description : GlobalIndexDescription}
    (h : ofGlobal description = .ok index) : index.IsGlobal := by
  unfold ofGlobal at h
  split at h
  · cases h
  · obtain rfl := Except.ok.inj h
    exact ⟨rfl, _, rfl⟩

end Index

namespace TableSchema

variable {schema : TableSchema} {description : TableDescription} {namePrefix : String}

/-- A description can tell all of a schema. -/
structure Describable (schema : TableSchema) : Prop where
  keysDefined : schema.KeysDefined
  localIndexes : ∀ index ∈ schema.localIndexes, index.IsLocal
  globalIndexes : ∀ index ∈ schema.globalIndexes, index.IsGlobal

/-- The description of a table created for a schema tells the schema, with an active and empty
table behind it. -/
theorem Describable.tells (h : schema.Describable) (namePrefix : String) :
    Tells (describeCreated (schema.toCreateRequest namePrefix)) namePrefix
      { schema with status := some activeStatus, itemCount := 0, decreasesToday := 0 } where
  name := (shortName_append namePrefix schema.name).symm
  attributes := Catalog.ofWire_members schema.attributes
  hashKey := keyName?_hashPart _ _
  rangeKey := keyName?_rangePart _ _
  localIndexes := by
    simp only [describeCreated, toCreateRequest, getD_presentList, List.map_map]
    -- Both sides become maps of the same list, to be compared index by index.
    conv => lhs; rw [← List.map_id schema.localIndexes]
    exact List.map_congr_left fun index hm =>
      (Index.ofLocal_describeIndex (h.localIndexes index hm) _).symm
  globalIndexes := by
    simp only [describeCreated, toCreateRequest, getD_presentList, mapM_eq_ok, List.map_map]
    exact List.map_congr_left fun index hm =>
      Index.ofGlobal_describeIndex (h.globalIndexes index hm) _
  throughput := rfl
  status := rfl
  itemCount := rfl
  decreasesToday := rfl
  keysDefined := ⟨h.keysDefined.hashKey, h.keysDefined.rangeKey, h.keysDefined.indexKeys⟩

theorem Describable.ofDescription_describeCreated (h : schema.Describable)
    (namePrefix : String) :
    ofDescription (describeCreated (schema.toCreateRequest namePrefix)) namePrefix =
      .ok { schema with status := some activeStatus, itemCount := 0, decreasesToday := 0 } :=
  ofDescription_eq_ok_iff.2 (h.tells namePrefix)

/-- What was read from a description can be described. -/
theorem Tells.describable (h : Tells description namePrefix schema) : schema.Describable where
  keysDefined := h.keysDefined
  localIndexes := by
    intro index hm
    rw [h.localIndexes] at hm
    obtain ⟨told, -, rfl⟩ := List.mem_map.1 hm
    exact Index.isLocal_ofLocal _ told
  globalIndexes := by
    intro index hm
    have hok : (.ok index : Except SchemaError Index) ∈ schema.globalIndexes.map .ok :=
      List.mem_map_of_mem hm
    rw [← mapM_eq_ok.1 h.globalIndexes] at hok
    obtain ⟨told, -, htold⟩ := List.mem_map.1 hok
    exact Index.isGlobal_of_ofGlobal htold

/-- Reading is a normal form: the schema read from a description names the same table behind its
prefix, and it is read again from the description of the table that its request creates, with the
status and the counts of a new table. -/
theorem ofDescription_normal_form {rest : String}
    (hname : description.tableName.getD "" = namePrefix ++ rest)
    (hread : ofDescription description namePrefix = .ok schema) :
    (schema.toCreateRequest namePrefix).tableName = some (description.tableName.getD "") ∧
      ofDescription (describeCreated (schema.toCreateRequest namePrefix)) namePrefix =
        .ok { schema with status := some activeStatus, itemCount := 0, decreasesToday := 0 } := by
  have told := ofDescription_eq_ok_iff.1 hread
  refine ⟨?_, told.describable.ofDescription_describeCreated namePrefix⟩
  rw [toCreateRequest, fullName, told.name, hname, shortName_append]

/-- A description with its key turned round, a definition that is told twice, a projection of
an unknown kind, no capacities and a local index without hash key. -/
def oddDescription : TableDescription where
  tableName := some "dev_events"
  attributeDefinitions := some [⟨"time", "S"⟩, ⟨"id", "N"⟩, ⟨"time", "N"⟩]
  keySchema := some [⟨"time", rangePart⟩, ⟨"id", hashPart⟩, ⟨"time", hashPart⟩]
  localIndexes := some [⟨none, some [⟨"id", rangePart⟩], some ⟨some "SOME", some ["name"]⟩⟩]
  globalIndexes := some [
    ⟨⟨some "by_time", some [⟨"time", hashPart⟩], some ⟨some "INCLUDE", none⟩⟩,
      some ⟨some 7, none, some 3⟩, none⟩]
  throughput := some ⟨none, none, some 2⟩
  status := some "UPDATING"
  itemCount := some 5

def oddSchema : TableSchema where
  name := "events"
  hashKey := ⟨"id", .number⟩
  rangeKey := some ⟨"time", .number⟩
  localIndexes := [⟨"", .localIndex, "id", some "id", .all, none⟩]
  globalIndexes := [⟨"by_time", .globalIndex, "time", none, .listed [], some ⟨7, 1⟩⟩]
  attributes := Roster.ofList [⟨"time", .number⟩, ⟨"id", .number⟩]
  throughput := ⟨1, 1⟩
  status := some "UPDATING"
  itemCount := 5
  decreasesToday := 2

theorem ofDescription_normal_form_odd :
    ofDescription oddDescription "dev_" = .ok oddSchema ∧
    (oddSchema.toCreateRequest "dev_").tableName = some "dev_events" ∧
    ofDescription (describeCreated (oddSchema.toCreateRequest "dev_")) "dev_" =
      .ok { oddSchema with status := some activeStatus, itemCount := 0, decreasesToday := 0 } :=
  ⟨rfl, @ofDescription_normal_form oddSchema oddDescription "dev_" "events" rfl rfl⟩

end TableSchema

end AttributeStore
