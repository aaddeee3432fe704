import AttributeStore.Proofs.Schema.Built

/-!
# What is told of built schemas

The table of a built schema can be described behind any prefix, also after its capacity, its status
or the number of its items has changed. Only what the catalog says of the range key can differ from
what the schema says: a name that was registered before keeps its type there.
-/

namespace AttributeStore

open Store (describeCreated)
open Wire

namespace TableSchema

variable {schema : TableSchema} {description : TableDescription} {namePrefix : String}

/-- Behind any prefix, and with any capacity, status and number of items, a description tells the
same keys, catalog and indexes. -/
theorem Tells.reread (h : Tells description namePrefix schema) (other : String)
    (throughput : Option ThroughputDescription) (status : Option String)
    (itemCount : Option Int) :
    Tells { description with throughput, status, itemCount } other { schema with
      name := shortName other (description.tableName.getD "")
      throughput := describedThroughput throughput
      status
      itemCount := itemCount.getD 0
      decreasesToday := (throughput.bind (·.decreasesToday)).getD 0 } where
  name := rfl
  attributes := h.attributes
  hashKey := h.hashKey
  rangeKey := h.rangeKey
  localIndexes := h.localIndexes
  globalIndexes := h.globalIndexes
  throughput := rfl
  status := rfl
  itemCount := rfl
  decreasesToday := rfl
  keysDefined := ⟨h.keysDefined.hashKey, h.keysDefined.rangeKey, h.keysDefined.indexKeys⟩

/-- The range key of a built schema is registered, if perhaps with another type. -/
theorem Built.mem_names_rangeKey (h : schema.Built) :
    ∀ definition, schema.rangeKey = some definition →
      definition.name ∈ schema.attributes.names := by
  induction h with
  | withHashKey name hashKey => exact fun _ h => nomatch h
  | addAttribute _ definition ih =>
    exact fun range hr => Roster.mem_names_add.2 (.inl (ih range hr))
  | addRangeKey _ rangeKey ih =>
    rintro _ ⟨⟩
    exact Roster.mem_names_add.2 (.inr rfl)
  | setThroughput _ _ ih | projectLocal _ _ _ ih | projectGlobal _ _ _ ih | provision _ _ _ ih =>
    exact ih
  | addLocalIndex _ added ih =>
    obtain ⟨_, -, -, -, rfl⟩ := addLocalIndex_eq_ok added
    exact fun range hr => Roster.mem_names_foldl_add.2 (.inl (ih range hr))
  | addGlobalIndex _ added ih =>
    obtain ⟨_, -, -, -, rfl⟩ := addGlobalIndex_eq_ok added
    exact fun range hr => Roster.mem_names_foldl_add.2 (.inl (ih range hr))

/-- The schema with its range key as the catalog defines it. -/
def withRegisteredRange (schema : TableSchema) : TableSchema :=
  { schema with
    rangeKey := schema.rangeKey.bind fun definition => schema.attributes.get? definition.name }

theorem Built.name_registeredRange (h : schema.Built) :
    schema.withRegisteredRange.rangeKey.map (·.name) = schema.rangeKey.map (·.name) := by
  have hnames := h.mem_names_rangeKey
  unfold withRegisteredRange
  cases hr : schema.rangeKey with
  | none => rfl
  | some definition =>
    obtain ⟨found, hfound⟩ := Roster.exists_get?_iff.2 (hnames definition hr)
    dsimp only
    rw [Option.bind_some, hfound, Option.map_some, Option.map_some,
      (Roster.get?_eq_some_iff.1 hfound).2]

/-- The request of a schema names its keys and leaves their types to the catalog. -/
theorem Built.toCreateRequest_registeredRange (h : schema.Built) (namePrefix : String) :
    schema.withRegisteredRange.toCreateRequest namePrefix = schema.toCreateRequest namePrefix := by
  unfold toCreateRequest
  rw [h.name_registeredRange]
  rfl

theorem Built.describable_registeredRange (h : schema.Built) :
    schema.withRegisteredRange.Describable := by
  have hs : schema.withRegisteredRange.Sound :=
    ⟨h.sound.hashKey, h.sound.localIndexes, h.sound.globalIndexes, h.sound.itemCount,
      h.sound.decreasesToday⟩
  refine hs.describable ?_
  intro definition hr
  obtain ⟨asked, -, hfound⟩ := Option.bind_eq_some_iff.1 hr
  rw [← (Roster.get?_eq_some_iff.1 hfound).2] at hfound
  exact hfound

/-- The table of a built schema can be described behind any prefix, whatever became of its capacity,
its status and its items. -/
theorem Built.exists_read (h : schema.Built) (namePrefix other : String)
    (throughput : Option ThroughputDescription) (status : Option String)
    (itemCount : Option Int) :
    ∃ read, ofDescription
        { describeCreated (schema.toCreateRequest namePrefix) with throughput, status, itemCount }
        other = .ok read ∧
      read.name = shortName other (schema.fullName namePrefix) := by
  have told := h.describable_registeredRange.tells namePrefix
  rw [h.toCreateRequest_registeredRange] at told
  exact ⟨_, ofDescription_eq_ok_iff.2 (told.reread other throughput status itemCount), rfl⟩

end TableSchema

end AttributeStore
