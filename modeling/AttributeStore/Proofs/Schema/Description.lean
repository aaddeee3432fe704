import AttributeStore.Proofs.Roster
import AttributeStore.Proofs.Success
import AttributeStore.Schema.Description

/-!
# What a description tells

Reading a description succeeds exactly when every key in it can be looked up, and then each part
of the schema is told by its own part of the description. `Tells` lists the parts; proofs about
schemas that were read go through it and never unfold the reading.
-/

namespace AttributeStore

open Wire

/-! ## Keys on the wire -/

theorem keyName?_hashPart (hashKey : String) (rangeKey : Option String) :
    keyName? hashPart (keySchema hashKey rangeKey) = some hashKey := by
  simp [keyName?, keySchema]

theorem keyName?_rangePart (hashKey : String) (rangeKey : Option String) :
    keyName? rangePart (keySchema hashKey rangeKey) = rangeKey := by
  cases rangeKey <;> simp [keyName?, keySchema, hashPart, rangePart]

theorem TableSchema.shortName_append (start rest : String) :
    shortName start (start ++ rest) = rest := by
  unfold shortName
  simp [String.toList_append, String.ofList_toList]

/-! ## The catalog -/

def AttributeDefinition.toWire (definition : AttributeDefinition) : AttributeElement :=
  ⟨definition.name, definition.wireType.tag⟩

theorem AttributeDefinition.ofWire_eq_ok_iff {element : AttributeElement}
    {definition : AttributeDefinition} :
    ofWire element = .ok definition ↔ element = definition.toWire := by
  unfold ofWire toWire
  constructor
  · intro h
    split at h
    · rename_i wireType hfound
      obtain rfl := Except.ok.inj h
      rw [WireType.tag_of_ofTag? hfound]
    · cases h
  · rintro rfl
    simp only [WireType.ofTag?_tag]

theorem AttributeDefinition.toWire_injective : Function.Injective toWire := by
  intro definition other h
  exact Except.ok.inj ((ofWire_eq_ok_iff.2 rfl).symm.trans (ofWire_eq_ok_iff.2 h))

theorem Catalog.ofWire_eq_ok_iff {elements : List AttributeElement} {catalog : Catalog} :
    ofWire elements = .ok catalog ↔
      ∃ definitions : List AttributeDefinition,
        elements = definitions.map AttributeDefinition.toWire ∧
          Roster.ofList definitions = catalog := by
  unfold ofWire
  simp only [bind_eq_ok, pure_eq_ok, mapM_eq_ok_iff_forall₂, AttributeDefinition.ofWire_eq_ok_iff]
  refine exists_congr fun definitions => and_congr_left fun _ => ?_
  rw [← List.forall₂_eq_eq_eq, List.forall₂_map_right_iff]

/-! ## Lookups in the catalog -/

theorem Catalog.lookup_eq_ok_iff {catalog : Catalog} {owner name : String}
    {definition : AttributeDefinition} :
    catalog.lookup owner name = .ok definition ↔ catalog.get? name = some definition := by
  unfold lookup
  cases catalog.get? name with
  | none => simp
  | some found => simp

theorem Catalog.lookup_eq_ok_iff_of_name {catalog : Catalog} {owner name : String}
    {definition : AttributeDefinition} :
    catalog.lookup owner name = .ok definition ↔
      name = definition.name ∧ catalog.get? definition.name = some definition := by
  rw [lookup_eq_ok_iff]
  constructor
  · intro h
    obtain rfl := (Roster.get?_eq_some_iff.1 h).2
    exact ⟨rfl, h⟩
  · rintro ⟨rfl, h⟩
    exact h

def Index.keyNames (index : Index) : List String :=
  index.hashKey :: index.rangeKey.toList

def Index.DefinedIn (index : Index) (catalog : Catalog) : Prop :=
  ∀ name ∈ index.keyNames, name ∈ catalog.names

theorem Index.check_eq_ok_iff {catalog : Catalog} {index : Index} :
    index.check catalog = .ok () ↔ index.DefinedIn catalog := by
  unfold check DefinedIn keyNames
  simp only [bind_eq_ok, Catalog.lookup_eq_ok_iff, List.forall_mem_cons, ← Roster.exists_get?_iff]
  cases index.rangeKey with
  | none => simp
  | some rangeKey =>
    simp only [bind_eq_ok, pure_eq_ok, Catalog.lookup_eq_ok_iff, Option.toList_some,
      List.forall_mem_singleton]
    simp

theorem Index.forM_check_eq_ok_iff {catalog : Catalog} {indexes : List Index} {checked : Unit} :
    indexes.forM (check catalog) = .ok checked ↔
      ∀ index ∈ indexes, index.DefinedIn catalog := by
  rw [List.forM_eq_forM, forM_eq_ok]
  simp only [check_eq_ok_iff]

namespace TableSchema

/-- The catalog defines every key attribute: those of the table as the table has them, and those
of the indexes. -/
structure KeysDefined (schema : TableSchema) : Prop where
  hashKey : schema.attributes.get? schema.hashKey.name = some schema.hashKey
  rangeKey : ∀ definition, schema.rangeKey = some definition →
    schema.attributes.get? definition.name = some definition
  indexKeys : ∀ index ∈ schema.localIndexes ++ schema.globalIndexes,
    index.DefinedIn schema.attributes

/-- A description tells a schema: each part of it, and definitions for its keys. -/
structure Tells (description : TableDescription) (namePrefix : String)
    (schema : TableSchema) : Prop where
  name : schema.name = shortName namePrefix (description.tableName.getD "")
  attributes : Catalog.ofWire (description.attributeDefinitions.getD []) = .ok schema.attributes
  hashKey : keyName? hashPart (description.keySchema.getD []) = some schema.hashKey.name
  rangeKey : keyName? rangePart (description.keySchema.getD []) = schema.rangeKey.map (·.name)
  localIndexes : schema.localIndexes =
    (description.localIndexes.getD []).map (Index.ofLocal schema.hashKey.name)
  globalIndexes : (description.globalIndexes.getD []).mapM Index.ofGlobal =
    .ok schema.globalIndexes
  throughput : schema.throughput = describedThroughput description.throughput
  status : schema.status = description.status
  itemCount : schema.itemCount = description.itemCount.getD 0
  decreasesToday : schema.decreasesToday =
    (description.throughput.bind (·.decreasesToday)).getD 0
  keysDefined : schema.KeysDefined

theorem mapM_lookup_eq_ok_iff {catalog : Catalog} {owner : String} {name : Option String}
    {found : Option AttributeDefinition} :
    name.mapM (catalog.lookup owner) = .ok found ↔
      name = found.map (·.name) ∧
        ∀ definition, found = some definition →
          catalog.get? definition.name = some definition := by
  cases name with
  | none => cases found <;> simp
  | some name =>
    rw [Option.mapM_some, map_eq_ok]
    simp only [Catalog.lookup_eq_ok_iff_of_name]
    cases found <;> simp [and_assoc]

theorem ofDescription_eq_ok_iff {description : TableDescription} {namePrefix : String}
    {schema : TableSchema} :
    ofDescription description namePrefix = .ok schema ↔ Tells description namePrefix schema := by
  unfold ofDescription
  cases hhash : keyName? hashPart (description.keySchema.getD []) with
  | none =>
    constructor
    · intro h
      simp [hhash] at h
    · intro h
      rw [h.hashKey] at hhash
      cases hhash
  | some hashName =>
    simp only [hhash, bind_eq_ok, pure_eq_ok, Catalog.lookup_eq_ok_iff_of_name,
      mapM_lookup_eq_ok_iff, Index.forM_check_eq_ok_iff]
    constructor
    · rintro ⟨catalog, hcatalog, _, rfl, hashKey, ⟨rfl, hdefined⟩, rangeKey, ⟨hrange, hranges⟩,
        globalIndexes, hglobal, _, hkeys, rfl⟩
      exact ⟨rfl, hcatalog, hhash, hrange, rfl, hglobal, rfl, rfl, rfl, rfl,
        hdefined, hranges, hkeys⟩
    · intro h
      obtain rfl : schema.hashKey.name = hashName := Option.some.inj (h.hashKey.symm.trans hhash)
      refine ⟨schema.attributes, h.attributes, _, rfl, schema.hashKey,
        ⟨rfl, h.keysDefined.hashKey⟩, schema.rangeKey, ⟨h.rangeKey, h.keysDefined.rangeKey⟩,
        schema.globalIndexes, h.globalIndexes, (), ?_, ?_⟩
      · rw [← h.localIndexes]
        exact h.keysDefined.indexKeys
      · rw [← h.name, ← h.localIndexes, ← h.throughput, ← h.status, ← h.itemCount,
          ← h.decreasesToday]

end TableSchema

end AttributeStore
