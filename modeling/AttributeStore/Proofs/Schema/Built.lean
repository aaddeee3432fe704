import AttributeStore.Proofs.Schema.Creation

/-!
# Schemas that are built

The schemas to which the steps of a builder lead. Every step keeps the keys of the table and of
its indexes in the catalog and the indexes under their kinds. Only a range key may fall out with
the catalog, when its name is registered with another type; a schema of which this is not so
survives its creation.
-/

namespace AttributeStore

open Store (describeCreated)
open Wire

theorem forall_mem_modify {α : Type} {p : α → Prop} {change : α → α}
    (hc : ∀ a, p a → p (change a)) {list : List α} (h : ∀ a ∈ list, p a) (place : Nat) :
    ∀ a ∈ list.modify place change, p a := by
  induction list generalizing place with
  | nil => simp
  | cons first rest ih =>
    rw [List.forall_mem_cons] at h
    rw [List.modify_cons]
    split
    · exact List.forall_mem_cons.2 ⟨hc first h.1, h.2⟩
    · exact List.forall_mem_cons.2 ⟨h.1, ih h.2 _⟩

theorem Index.DefinedIn.mono {index : Index} {catalog larger : Catalog}
    (h : index.DefinedIn catalog) (hn : ∀ name ∈ catalog.names, name ∈ larger.names) :
    index.DefinedIn larger :=
  fun name hm => hn name (h name hm)

namespace Index

def withProjection (index : Index) (projection : Projection) : Index :=
  { index with projection }

def withThroughput (index : Index) (throughput : Throughput) : Index :=
  { index with throughput := some throughput }

end Index

namespace TableSchema

/-- The schemas that a builder makes: from a hash key on, attributes, range keys, a capacity and
indexes are added, and the projection of an index or the capacity of a global one is changed. -/
inductive Built : TableSchema → Prop
  | withHashKey (name : String) (hashKey : AttributeDefinition) : Built (.withHashKey name hashKey)
  | addAttribute {schema : TableSchema} (built : Built schema) (definition : AttributeDefinition) :
    Built (schema.addAttribute definition)
  | addRangeKey {schema : TableSchema} (built : Built schema) (rangeKey : AttributeDefinition) :
    Built (schema.addRangeKey rangeKey)
  | setThroughput {schema : TableSchema} (built : Built schema) (throughput : Throughput) :
    Built (schema.setThroughput throughput)
  | addLocalIndex {schema grown : TableSchema} (built : Built schema) {name : String}
    {rangeKey : AttributeDefinition} (added : schema.addLocalIndex name rangeKey = .ok grown) :
    Built grown
  | addGlobalIndex {schema grown : TableSchema} (built : Built schema) {name : String}
    {keys : List AttributeDefinition} (added : schema.addGlobalIndex name keys = .ok grown) :
    Built grown
  | projectLocal {schema : TableSchema} (built : Built schema) (place : Nat)
    (projection : Projection) :
    Built { schema with
      localIndexes := schema.localIndexes.modify place (·.withProjection projection) }
  | projectGlobal {schema : TableSchema} (built : Built schema) (place : Nat)
    (projection : Projection) :
    Built { schema with
      globalIndexes := schema.globalIndexes.modify place (·.withProjection projection) }
  | provision {schema : TableSchema} (built : Built schema) (place : Nat)
    (throughput : Throughput) :
    Built { schema with
      globalIndexes := schema.globalIndexes.modify place (·.withThroughput throughput) }

/-- What every step of a builder keeps. -/
structure Sound (schema : TableSchema) : Prop where
  hashKey : schema.attributes.get? schema.hashKey.name = some schema.hashKey
  localIndexes : ∀ index ∈ schema.localIndexes,
    index.IsLocal ∧ index.DefinedIn schema.attributes
  globalIndexes : ∀ index ∈ schema.globalIndexes,
    index.IsGlobal ∧ index.DefinedIn schema.attributes
  itemCount : schema.itemCount = 0
  decreasesToday : schema.decreasesToday = 0

/-! ## What one step does -/

section

variable {schema grown : TableSchema} {name : String}

theorem addLocalIndex_eq_ok {rangeKey : AttributeDefinition}
    (h : schema.addLocalIndex name rangeKey = .ok grown) :
    ∃ index : Index, index.name = name ∧ index.IsLocal ∧
      index.keyNames = [schema.hashKey.name, rangeKey.name] ∧
      grown = { schema with
        attributes := [rangeKey].foldl Roster.add schema.attributes
        localIndexes := schema.localIndexes ++ [index] } := by
  unfold addLocalIndex at h
  split at h
  · cases h
  · obtain rfl := Except.ok.inj h
    exact ⟨_, rfl, ⟨rfl, rfl⟩, rfl, rfl⟩

theorem addLocalIndex_eq_error_iff {rangeKey : AttributeDefinition} {cause : SchemaError} :
    schema.addLocalIndex name rangeKey = .error cause ↔
      schema.rangeKey = none ∧ cause = .localIndexWithoutRangeKey name := by
  unfold addLocalIndex
  cases schema.rangeKey <;> simp [eq_comm]

theorem addGlobalIndex_eq_ok {keys : List AttributeDefinition}
    (h : schema.addGlobalIndex name keys = .ok grown) :
    ∃ index : Index, index.name = name ∧ index.IsGlobal ∧ index.keyNames = keys.map (·.name) ∧
      grown = { schema with
        attributes := keys.foldl Roster.add schema.attributes
        globalIndexes := schema.globalIndexes ++ [index] } := by
  unfold addGlobalIndex at h
  split at h
  · obtain rfl := Except.ok.inj h
    exact ⟨_, rfl, ⟨rfl, _, rfl⟩, rfl, rfl⟩
  · obtain rfl := Except.ok.inj h
    exact ⟨_, rfl, ⟨rfl, _, rfl⟩, rfl, rfl⟩
  · cases h

theorem addGlobalIndex_eq_error_iff {keys : List AttributeDefinition} {cause : SchemaError} :
    schema.addGlobalIndex name keys = .error cause ↔
      (keys.length ≠ 1 ∧ keys.length ≠ 2) ∧ cause = .indexKeyCount name keys.length := by
  unfold addGlobalIndex
  match keys with
  | [] => simp [eq_comm]
  | [hashKey] => simp
  | [hashKey, rangeKey] => simp
  | _ :: _ :: _ :: _ => simp [eq_comm]

end

/-! ## What one step keeps -/

namespace Sound

variable {schema : TableSchema}

theorem withHashKey (name : String) (hashKey : AttributeDefinition) :
    Sound (.withHashKey name hashKey) where
  hashKey := by
    rw [Roster.get?_eq_some_iff]
    exact ⟨List.mem_singleton_self hashKey, rfl⟩
  localIndexes := fun _ hm => (List.not_mem_nil hm).elim
  globalIndexes := fun _ hm => (List.not_mem_nil hm).elim
  itemCount := rfl
  decreasesToday := rfl

theorem mem_names_hashKey (h : schema.Sound) : schema.hashKey.name ∈ schema.attributes.names :=
  Roster.exists_get?_iff.1 ⟨_, h.hashKey⟩

theorem register (h : schema.Sound) (definitions : List AttributeDefinition) :
    Sound { schema with attributes := definitions.foldl Roster.add schema.attributes } where
  hashKey := by rw [Roster.get?_foldl_add, h.hashKey, Option.some_or]
  localIndexes index hm :=
    ⟨(h.localIndexes index hm).1, (h.localIndexes index hm).2.mono fun _ hn =>
      Roster.mem_names_foldl_add.2 (.inl hn)⟩
  globalIndexes index hm :=
    ⟨(h.globalIndexes index hm).1, (h.globalIndexes index hm).2.mono fun _ hn =>
      Roster.mem_names_foldl_add.2 (.inl hn)⟩
  itemCount := h.itemCount
  decreasesToday := h.decreasesToday

theorem addAttribute (h : schema.Sound) (definition : AttributeDefinition) :
    (schema.addAttribute definition).Sound :=
  h.register [definition]

theorem appendLocal (h : schema.Sound) {index : Index} (hi : index.IsLocal)
    (hd : index.DefinedIn schema.attributes) :
    Sound { schema with localIndexes := schema.localIndexes ++ [index] } where
  hashKey := h.hashKey
  localIndexes := List.forall_mem_append.2 ⟨h.localIndexes, List.forall_mem_singleton.2 ⟨hi, hd⟩⟩
  globalIndexes := h.globalIndexes
  itemCount := h.itemCount
  decreasesToday := h.decreasesToday

theorem appendGlobal (h : schema.Sound) {index : Index} (hi : index.IsGlobal)
    (hd : index.DefinedIn schema.attributes) :
    Sound { schema with globalIndexes := schema.globalIndexes ++ [index] } where
  hashKey := h.hashKey
  localIndexes := h.localIndexes
  globalIndexes :=
    List.forall_mem_append.2 ⟨h.globalIndexes, List.forall_mem_singleton.2 ⟨hi, hd⟩⟩
  itemCount := h.itemCount
  decreasesToday := h.decreasesToday

theorem addLocalIndex (h : schema.Sound) {name : String} {rangeKey : AttributeDefinition}
    {grown : TableSchema} (hg : schema.addLocalIndex name rangeKey = .ok grown) :
    grown.Sound := by
  obtain ⟨index, -, hlocal, hkeys, rfl⟩ := addLocalIndex_eq_ok hg
  refine (h.register [rangeKey]).appendLocal hlocal fun key hm => Roster.mem_names_foldl_add.2 ?_
  -- The hash key is that of the table, which is defined; the range key was defined just now.
  rw [hkeys, List.mem_cons] at hm
  rcases hm with rfl | hm
  · exact .inl h.mem_names_hashKey
  · exact .inr hm

theorem addGlobalIndex (h : schema.Sound) {name : String} {keys : List AttributeDefinition}
    {grown : TableSchema} (hg : schema.addGlobalIndex name keys = .ok grown) :
    grown.Sound := by
  obtain ⟨index, -, hglobal, hkeys, rfl⟩ := addGlobalIndex_eq_ok hg
  refine (h.register keys).appendGlobal hglobal fun key hm => Roster.mem_names_foldl_add.2 ?_
  rw [hkeys] at hm
  exact .inr hm

theorem modifyLocal (h : schema.Sound) {change : Index → Index}
    (hc : ∀ index, index.IsLocal ∧ index.DefinedIn schema.attributes →
      (change index).IsLocal ∧ (change index).DefinedIn schema.attributes) (place : Nat) :
    Sound { schema with localIndexes := schema.localIndexes.modify place change } where
  hashKey := h.hashKey
  localIndexes := forall_mem_modify hc h.localIndexes place
  globalIndexes := h.globalIndexes
  itemCount := h.itemCount
  decreasesToday := h.decreasesToday

theorem modifyGlobal (h : schema.Sound) {change : Index → Index}
    (hc : ∀ index, index.IsGlobal ∧ index.DefinedIn schema.attributes →
      (change index).IsGlobal ∧ (change index).DefinedIn schema.attributes) (place : Nat) :
    Sound { schema with globalIndexes := schema.globalIndexes.modify place change } where
  hashKey := h.hashKey
  localIndexes := h.localIndexes
  globalIndexes := forall_mem_modify hc h.globalIndexes place
  itemCount := h.itemCount
  decreasesToday := h.decreasesToday

theorem describable (h : schema.Sound)
    (hr : ∀ definition, schema.rangeKey = some definition →
      schema.attributes.get? definition.name = some definition) : schema.Describable where
  keysDefined := by
    refine ⟨h.hashKey, hr, List.forall_mem_append.2 ⟨?_, ?_⟩⟩
    · exact fun index hm => (h.localIndexes index hm).2
    · exact fun index hm => (h.globalIndexes index hm).2
  localIndexes index hm := (h.localIndexes index hm).1
  globalIndexes index hm := (h.globalIndexes index hm).1

end Sound

/-! ## What a builder makes -/

theorem Built.sound {schema : TableSchema} (h : schema.Built) : schema.Sound := by
  induction h with
  | withHashKey name hashKey => exact .withHashKey name hashKey
  | addAttribute _ definition ih => exact ih.addAttribute definition
  | addRangeKey _ rangeKey ih =>
    have h := ih.addAttribute rangeKey
    exact ⟨h.hashKey, h.localIndexes, h.globalIndexes, h.itemCount, h.decreasesToday⟩
  | setThroughput _ throughput ih =>
    exact ⟨ih.hashKey, ih.localIndexes, ih.globalIndexes, ih.itemCount, ih.decreasesToday⟩
  | addLocalIndex _ added ih => exact ih.addLocalIndex added
  | addGlobalIndex _ added ih => exact ih.addGlobalIndex added
  | projectLocal _ place projection ih =>
    refine ih.modifyLocal ?_ place
    exact fun _ hi => hi
  | projectGlobal _ place projection ih =>
    refine ih.modifyGlobal ?_ place
    exact fun _ hi => hi
  | provision _ place throughput ih =>
    refine ih.modifyGlobal ?_ place
    exact fun _ hi => ⟨⟨hi.1.1, throughput, rfl⟩, hi.2⟩

theorem modifyFirst_eq_modify (name : String) (change : Index → Index) (indexes : List Index) :
    modifyFirst name change indexes =
      indexes.modify (indexes.findIdx fun index => index.name = name) change := by
  induction indexes with
  | nil => rfl
  | cons index rest ih =>
    rw [modifyFirst, List.findIdx_cons]
    by_cases h : index.name = name
    · simp [h]
    · simp [h, ih]

namespace Built

variable {schema changed : TableSchema}

/-- A builder may find the index whose projection it changes by its name. -/
theorem project_of_modifyIndex? (h : schema.Built) (name : String) (projection : Projection)
    (hc : schema.modifyIndex? name (·.withProjection projection) = some changed) :
    changed.Built := by
  unfold modifyIndex? at hc
  simp only [modifyFirst_eq_modify] at hc
  split at hc
  · obtain rfl := Option.some.inj hc
    exact h.projectLocal _ projection
  · split at hc
    · obtain rfl := Option.some.inj hc
      exact h.projectGlobal _ projection
    · cases hc

/-- A builder may find the global index whose capacity it changes by its name, unless a local
index has the name too. -/
theorem provision_of_modifyIndex? (h : schema.Built) (name : String) (throughput : Throughput)
    (hl : ∀ index ∈ schema.localIndexes, index.name ≠ name)
    (hc : schema.modifyIndex? name (·.withThroughput throughput) = some changed) :
    changed.Built := by
  -- The search asks the local indexes first.
  have hnone : (schema.localIndexes.any fun index => index.name = name) = false := by
    simpa using hl
  unfold modifyIndex? at hc
  simp only [modifyFirst_eq_modify, hnone, Bool.false_eq_true, ↓reduceIte] at hc
  split at hc
  · obtain rfl := Option.some.inj hc
    exact h.provision _ throughput
  · cases hc

end Built

/-- A schema that was built, and whose range key has in the catalog the definition that it was
added with, survives its creation in every part but the status, and asks for the same table
again. -/
theorem built_survives_creation {schema : TableSchema} (hb : schema.Built)
    (hr : ∀ definition, schema.rangeKey = some definition →
      schema.attributes.get? definition.name = some definition) (namePrefix : String) :
    ∃ read, ofDescription (describeCreated (schema.toCreateRequest namePrefix)) namePrefix =
        .ok read ∧
      read = { schema with status := some activeStatus } ∧
      read.toCreateRequest namePrefix = schema.toCreateRequest namePrefix := by
  have hs := hb.sound
  refine ⟨_, (hs.describable hr).ofDescription_describeCreated namePrefix, ?_, rfl⟩
  simp only [hs.itemCount, hs.decreasesToday]

def eventsKeyed : TableSchema :=
  ((withHashKey "events" ⟨"id", .number⟩).addRangeKey ⟨"time", .number⟩).setThroughput ⟨5, 3⟩

def eventsByScore : TableSchema :=
  { eventsKeyed.addAttribute ⟨"score", .number⟩ with
    localIndexes := [⟨"by_score", .localIndex, "id", some "score", .listed ["name"], none⟩] }

def events : TableSchema :=
  { eventsByScore.addAttribute ⟨"user", .string⟩ with
    globalIndexes := [⟨"by_user", .globalIndex, "user", some "time", .all, some ⟨7, 2⟩⟩] }

theorem built_events : events.Built := by
  have hkeyed : eventsKeyed.Built :=
    ((Built.withHashKey "events" ⟨"id", .number⟩).addRangeKey _).setThroughput _
  have hadded : eventsKeyed.addLocalIndex "by_score" ⟨"score", .number⟩ = .ok _ := rfl
  have hlocal := hkeyed.addLocalIndex hadded
  have hscore : eventsByScore.Built :=
    hlocal.project_of_modifyIndex? "by_score" (.listed ["name"]) rfl
  have hadded : eventsByScore.addGlobalIndex "by_user" [⟨"user", .string⟩, ⟨"time", .number⟩] =
      .ok _ := rfl
  have hglobal := hscore.addGlobalIndex hadded
  exact hglobal.provision_of_modifyIndex? "by_user" ⟨7, 2⟩ (by decide) rfl

theorem built_survives_creation_events :
    events.attributes.get? "time" = some ⟨"time", .number⟩ ∧
    ∃ read, ofDescription (describeCreated (events.toCreateRequest "dev_")) "dev_" = .ok read ∧
      read = { events with status := some activeStatus } ∧
      read.toCreateRequest "dev_" = events.toCreateRequest "dev_" := by
  refine ⟨rfl, built_survives_creation built_events ?_ "dev_"⟩
  rintro _ ⟨⟩
  rfl

end TableSchema

end AttributeStore
