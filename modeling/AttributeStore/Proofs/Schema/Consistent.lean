import AttributeStore.Proofs.Schema.Creation

/-!
# Consistent descriptions

A description is consistent if the types of its attributes are known and the keys of its table and
of its indexes are made of these attributes. Exactly the consistent descriptions are read. What is
read has its catalog, its keys and its indexes from the description, each in the described order.
-/

namespace AttributeStore

open Wire

/-! ## What a description says -/

namespace Wire

/-- An attribute is the first one that has a part in a key. -/
def FirstWithPart (part : String) (elements : List KeyElement) (name : String) : Prop :=
  ∃ before after, elements = before ++ ⟨name, part⟩ :: after ∧
    ∀ element ∈ before, element.keyType ≠ part

/-- A description defines the attributes of which a key is made. -/
def TableDescription.Defines (description : TableDescription)
    (elements : Option (List KeyElement)) : Prop :=
  ∀ part ∈ [hashPart, rangePart], ∀ name, FirstWithPart part (elements.getD []) name →
    name ∈ (description.attributeDefinitions.getD []).map (·.name)

/-- The types of attributes are known, the table and every global index have a hash key, and the
attributes of all keys are defined. -/
structure TableDescription.Consistent (description : TableDescription) : Prop where
  knownTypes : ∀ element ∈ description.attributeDefinitions.getD [],
    ∃ wireType : WireType, wireType.tag = element.attributeType
  hashKey : ∃ name, FirstWithPart hashPart (description.keySchema.getD []) name
  globalHashKeys : ∀ index ∈ description.globalIndexes.getD [],
    ∃ name, FirstWithPart hashPart (index.keySchema.getD []) name
  keys : description.Defines description.keySchema
  localKeys : ∀ index ∈ description.localIndexes.getD [], description.Defines index.keySchema
  globalKeys : ∀ index ∈ description.globalIndexes.getD [], description.Defines index.keySchema

end Wire

/-- An index has the name of a described one and the attributes that are the first of their part in
its key. Without a hash key in the description it has another one, if there is one to have. -/
structure Index.DescribedBy (otherwise : Option String) (description : LocalIndexDescription)
    (index : Index) : Prop where
  name : index.name = description.name.getD ""
  hashKey : FirstWithPart hashPart (description.keySchema.getD []) index.hashKey ∨
    (∀ name, ¬ FirstWithPart hashPart (description.keySchema.getD []) name) ∧
      otherwise = some index.hashKey
  rangeKey : ∀ name, index.rangeKey = some name ↔
    FirstWithPart rangePart (description.keySchema.getD []) name

/-- The parts of a schema that name attributes are those of a description: keys and catalog are
the described ones, of several definitions of a name the last one counts and stands where the name
came first, and the indexes stand in the described order. -/
structure TableSchema.TakenFrom (description : TableDescription) (schema : TableSchema) : Prop where
  hashKey : FirstWithPart hashPart (description.keySchema.getD []) schema.hashKey.name
  rangeKey : ∀ name, schema.rangeKey.map (·.name) = some name ↔
    FirstWithPart rangePart (description.keySchema.getD []) name
  names : schema.attributes.names =
    ((description.attributeDefinitions.getD []).map (·.name)).eraseDups
  definitions : ∀ definition, schema.attributes.get? definition.name = some definition ↔
    ∃ before after,
      description.attributeDefinitions.getD [] = before ++ definition.toWire :: after ∧
        ∀ element ∈ after, element.name ≠ definition.name
  localIndexes : List.Forall₂ (Index.DescribedBy (some schema.hashKey.name))
    (description.localIndexes.getD []) schema.localIndexes
  globalIndexes : List.Forall₂ (fun index => Index.DescribedBy none index.toLocalIndexDescription)
    (description.globalIndexes.getD []) schema.globalIndexes
  keysDefined : schema.KeysDefined

/-! ## Reading the parts -/

theorem keyName?_eq_some_iff {part : String} {elements : List KeyElement} {name : String} :
    keyName? part elements = some name ↔ FirstWithPart part elements name := by
  simp only [keyName?, FirstWithPart, Option.map_eq_some_iff, List.find?_eq_some_iff_append]
  constructor
  · rintro ⟨⟨_, _⟩, ⟨hpart, before, after, rfl, hbefore⟩, rfl⟩
    obtain rfl : _ = part := of_decide_eq_true hpart
    exact ⟨before, after, rfl, fun element hm => by simpa using hbefore element hm⟩
  · rintro ⟨before, after, rfl, hbefore⟩
    exact ⟨⟨name, part⟩, ⟨decide_eq_true rfl, before, after, rfl,
      fun element hm => by simpa using hbefore element hm⟩, rfl⟩

theorem Wire.FirstWithPart.unique {part : String} {elements : List KeyElement} {name other : String}
    (h : FirstWithPart part elements name) (h' : FirstWithPart part elements other) :
    name = other := by
  rw [← keyName?_eq_some_iff] at h h'
  exact Option.some.inj (h.symm.trans h')

theorem Catalog.names_of_ofWire {elements : List AttributeElement} {catalog : Catalog}
    (h : ofWire elements = .ok catalog) :
    catalog.names = (elements.map (·.name)).eraseDups := by
  obtain ⟨definitions, rfl, rfl⟩ := ofWire_eq_ok_iff.1 h
  rw [Roster.names_ofList, List.map_map]
  rfl

theorem Catalog.mem_names_of_ofWire {elements : List AttributeElement} {catalog : Catalog}
    (h : ofWire elements = .ok catalog) {name : String} :
    name ∈ catalog.names ↔ name ∈ elements.map (·.name) := by
  rw [names_of_ofWire h, List.mem_eraseDups]

/-- A catalog holds the definitions that are the last ones of their name. -/
theorem Catalog.get?_of_ofWire {elements : List AttributeElement} {catalog : Catalog}
    (h : ofWire elements = .ok catalog) (definition : AttributeDefinition) :
    catalog.get? definition.name = some definition ↔
      ∃ before after, elements = before ++ definition.toWire :: after ∧
        ∀ element ∈ after, element.name ≠ definition.name := by
  obtain ⟨definitions, rfl, rfl⟩ := ofWire_eq_ok_iff.1 h
  rw [Roster.get?_ofList_eq_some_iff]
  constructor
  · rintro ⟨before, after, rfl, hafter⟩
    refine ⟨_, _, List.map_append, ?_⟩
    rintro _ hm
    obtain ⟨other, hother, rfl⟩ := List.mem_map.1 hm
    exact hafter other hother
  · rintro ⟨before, after, heq, hafter⟩
    obtain ⟨before, rest, rfl, rfl, hrest⟩ := List.map_eq_append_iff.1 heq
    obtain ⟨found, after, rfl, hfound, rfl⟩ := List.map_eq_cons_iff.1 hrest
    obtain rfl := AttributeDefinition.toWire_injective hfound
    exact ⟨before, after, rfl, fun other hm => hafter _ (List.mem_map_of_mem hm)⟩

/-! ## Reading the indexes -/

namespace Index

variable {description : LocalIndexDescription} {otherwise : Option String} {index : Index}

theorem describedBy_ofLocal (tableHashKey : String) (description : LocalIndexDescription) :
    (ofLocal tableHashKey description).DescribedBy (some tableHashKey) description where
  name := rfl
  hashKey := by
    cases h : keyName? hashPart (description.keySchema.getD []) with
    | none =>
      refine .inr ⟨fun name hname => ?_, ?_⟩
      · rw [keyName?_eq_some_iff.2 hname] at h
        cases h
      · simp [ofLocal, h]
    | some name =>
      refine .inl (keyName?_eq_some_iff.1 ?_)
      simp [ofLocal, h]
  rangeKey _ := keyName?_eq_some_iff

theorem describedBy_of_ofGlobal {description : GlobalIndexDescription}
    (h : ofGlobal description = .ok index) :
    index.DescribedBy none description.toLocalIndexDescription := by
  unfold ofGlobal at h
  split at h
  · cases h
  · rename_i hashKey hhash
    obtain rfl := Except.ok.inj h
    exact ⟨rfl, .inl (keyName?_eq_some_iff.1 hhash), fun _ => keyName?_eq_some_iff⟩

theorem exists_ofGlobal_iff {description : GlobalIndexDescription} :
    (∃ index, ofGlobal description = .ok index) ↔
      ∃ name, FirstWithPart hashPart (description.keySchema.getD []) name := by
  simp only [← keyName?_eq_some_iff]
  unfold ofGlobal
  cases keyName? hashPart (description.keySchema.getD []) <;> simp

variable {table : TableDescription} {catalog : Catalog}
  (hcatalog : Catalog.ofWire (table.attributeDefinitions.getD []) = .ok catalog)
include hcatalog

/-- The key of a described index is in the catalog exactly if the description defines it, a hash key
that is not described being given. -/
theorem DescribedBy.definedIn_iff (h : index.DescribedBy otherwise description)
    (ho : ∀ name, otherwise = some name → name ∈ catalog.names) :
    index.DefinedIn catalog ↔ table.Defines description.keySchema := by
  unfold DefinedIn keyNames TableDescription.Defines
  simp only [← Catalog.mem_names_of_ofWire hcatalog, List.forall_mem_cons, List.not_mem_nil,
    Option.mem_toList, h.rangeKey, false_implies, implies_true, and_true]
  refine and_congr_left fun _ => ?_
  rcases h.hashKey with hhash | ⟨hnone, hother⟩
  · exact ⟨fun hm name hname => hname.unique hhash ▸ hm, fun hm => hm _ hhash⟩
  · exact ⟨fun _ name hname => (hnone name hname).elim, fun _ => ho _ hother⟩

end Index

namespace TableSchema

variable {description : TableDescription} {namePrefix : String} {schema : TableSchema}

/-! ## Reading the schema -/

theorem Tells.takenFrom (h : Tells description namePrefix schema) :
    schema.TakenFrom description where
  hashKey := keyName?_eq_some_iff.1 h.hashKey
  rangeKey name := by rw [← h.rangeKey, keyName?_eq_some_iff]
  names := Catalog.names_of_ofWire h.attributes
  definitions := Catalog.get?_of_ofWire h.attributes
  localIndexes := by
    rw [h.localIndexes, List.forall₂_map_right_iff, List.forall₂_same]
    exact fun told _ => Index.describedBy_ofLocal _ told
  globalIndexes := by
    exact (mapM_eq_ok_iff_forall₂.1 h.globalIndexes).imp fun _ _ => Index.describedBy_of_ofGlobal
  keysDefined := h.keysDefined

theorem forall_definedIn_iff {catalog : Catalog} {hashKey : String}
    (hcatalog : Catalog.ofWire (description.attributeDefinitions.getD []) = .ok catalog)
    (hhash : hashKey ∈ catalog.names) {globalIndexes : List Index}
    (hglobal : (description.globalIndexes.getD []).mapM Index.ofGlobal = .ok globalIndexes) :
    (∀ index ∈ (description.localIndexes.getD []).map (Index.ofLocal hashKey) ++ globalIndexes,
        index.DefinedIn catalog) ↔
      (∀ index ∈ description.localIndexes.getD [], description.Defines index.keySchema) ∧
        ∀ index ∈ description.globalIndexes.getD [], description.Defines index.keySchema := by
  rw [List.forall_mem_append, List.forall_mem_map]
  refine and_congr (forall₂_congr fun told _ => ?_) ?_
  · refine (Index.describedBy_ofLocal hashKey told).definedIn_iff hcatalog ?_
    rintro _ ⟨⟩
    exact hhash
  · refine (forall_mem_iff_of_forall₂ (mapM_eq_ok_iff_forall₂.1 hglobal) fun told index h => ?_).symm
    exact ((Index.describedBy_of_ofGlobal h).definedIn_iff hcatalog fun _ h => nomatch h).symm

theorem Tells.consistent (h : Tells description namePrefix schema) : description.Consistent := by
  have hhash : schema.hashKey.name ∈ schema.attributes.names :=
    Roster.exists_get?_iff.1 ⟨_, h.keysDefined.hashKey⟩
  have hindexes := h.keysDefined.indexKeys
  rw [h.localIndexes, forall_definedIn_iff h.attributes hhash h.globalIndexes] at hindexes
  refine ⟨?_, ⟨_, h.takenFrom.hashKey⟩, ?_, ?_, hindexes.1, hindexes.2⟩
  · intro element hm
    obtain ⟨definitions, hdefinitions, -⟩ := Catalog.ofWire_eq_ok_iff.1 h.attributes
    rw [hdefinitions] at hm
    obtain ⟨definition, -, rfl⟩ := List.mem_map.1 hm
    exact ⟨definition.wireType, rfl⟩
  · exact fun told hm =>
      Index.exists_ofGlobal_iff.1 (exists_mapM_eq_ok.1 ⟨_, h.globalIndexes⟩ told hm)
  · simp only [TableDescription.Defines, ← Catalog.mem_names_of_ofWire h.attributes,
      List.forall_mem_cons, List.not_mem_nil, false_implies, implies_true, and_true]
    constructor
    · intro name hname
      rwa [hname.unique h.takenFrom.hashKey]
    · intro name hname
      obtain ⟨definition, hrange, rfl⟩ :=
        Option.map_eq_some_iff.1 ((h.takenFrom.rangeKey name).2 hname)
      exact Roster.exists_get?_iff.1 ⟨_, h.keysDefined.rangeKey definition hrange⟩

theorem exists_definition {catalog : Catalog} {name : String} (h : name ∈ catalog.names) :
    ∃ definition, definition.name = name ∧ catalog.get? definition.name = some definition := by
  obtain ⟨definition, hdefinition⟩ := Roster.exists_get?_iff.2 h
  obtain rfl := (Roster.get?_eq_some_iff.1 hdefinition).2
  exact ⟨definition, rfl, hdefinition⟩

theorem exists_tells (h : description.Consistent) (namePrefix : String) :
    ∃ schema, Tells description namePrefix schema := by
  obtain ⟨definitions, hdefinitions⟩ : ∃ definitions,
      (description.attributeDefinitions.getD []).mapM AttributeDefinition.ofWire =
        .ok definitions := by
    refine exists_mapM_eq_ok.2 fun element hm => ?_
    obtain ⟨wireType, htag⟩ := h.knownTypes element hm
    refine ⟨⟨element.name, wireType⟩, AttributeDefinition.ofWire_eq_ok_iff.2 ?_⟩
    rw [AttributeDefinition.toWire, htag]
  have hcatalog : Catalog.ofWire (description.attributeDefinitions.getD []) =
      .ok (Roster.ofList definitions) := by
    rw [Catalog.ofWire, hdefinitions]
    rfl
  generalize Roster.ofList definitions = catalog at hcatalog
  obtain ⟨globalIndexes, hglobal⟩ := exists_mapM_eq_ok.2 fun told hm =>
    Index.exists_ofGlobal_iff.2 (h.globalHashKeys told hm)
  have hdefined : ∀ part ∈ [hashPart, rangePart], ∀ name,
      FirstWithPart part (description.keySchema.getD []) name → name ∈ catalog.names :=
    fun part hp name hname => (Catalog.mem_names_of_ofWire hcatalog).2 (h.keys part hp name hname)
  obtain ⟨_, hhash⟩ := h.hashKey
  obtain ⟨hashKey, rfl, hhashKey⟩ :=
    exists_definition (hdefined hashPart List.mem_cons_self _ hhash)
  have hrange : ∃ rangeKey : Option AttributeDefinition,
      keyName? rangePart (description.keySchema.getD []) = rangeKey.map (·.name) ∧
        ∀ definition, rangeKey = some definition →
          catalog.get? definition.name = some definition := by
    cases hname : keyName? rangePart (description.keySchema.getD []) with
    | none => exact ⟨none, rfl, fun _ h => nomatch h⟩
    | some name =>
      obtain ⟨rangeKey, rfl, hrangeKey⟩ :=
        exists_definition (hdefined rangePart (by simp) _ (keyName?_eq_some_iff.1 hname))
      refine ⟨some rangeKey, rfl, ?_⟩
      rintro _ ⟨⟩
      exact hrangeKey
  obtain ⟨rangeKey, hrange, hrangeKey⟩ := hrange
  have hindexes := (forall_definedIn_iff hcatalog (Roster.exists_get?_iff.1 ⟨_, hhashKey⟩)
    hglobal).2 ⟨h.localKeys, h.globalKeys⟩
  exact ⟨{
      name := shortName namePrefix (description.tableName.getD "")
      hashKey, rangeKey
      localIndexes := (description.localIndexes.getD []).map (Index.ofLocal hashKey.name)
      globalIndexes
      attributes := catalog
      throughput := describedThroughput description.throughput
      status := description.status
      itemCount := description.itemCount.getD 0
      decreasesToday := (description.throughput.bind (·.decreasesToday)).getD 0 },
    rfl, hcatalog, keyName?_eq_some_iff.2 hhash, hrange, rfl, hglobal, rfl, rfl, rfl, rfl,
    hhashKey, hrangeKey, hindexes⟩

/-- Exactly the consistent descriptions are read, whatever prefix the name of the table has, and
the schema that is read is that of the description, with every key attribute in its catalog. -/
theorem ofDescription_accepts_consistent (description : TableDescription) (namePrefix : String) :
    ((∃ schema, ofDescription description namePrefix = .ok schema) ↔ description.Consistent) ∧
      ∀ schema, ofDescription description namePrefix = .ok schema →
        schema.TakenFrom description := by
  simp only [ofDescription_eq_ok_iff]
  refine ⟨⟨?_, fun h => exists_tells h namePrefix⟩, fun schema h => h.takenFrom⟩
  rintro ⟨schema, h⟩
  exact h.consistent

def danglingDescription : TableDescription :=
  { oddDescription with localIndexes := some [⟨some "by_day", some [⟨"day", rangePart⟩], none⟩] }

theorem ofDescription_accepts_consistent_odd :
    oddDescription.Consistent ∧ oddSchema.TakenFrom oddDescription ∧
      ¬ danglingDescription.Consistent := by
  obtain ⟨haccepts, htaken⟩ := ofDescription_accepts_consistent oddDescription "dev_"
  refine ⟨haccepts.1 ⟨oddSchema, rfl⟩, htaken oddSchema rfl, fun h => ?_⟩
  obtain ⟨schema, hread⟩ := (ofDescription_accepts_consistent danglingDescription "dev_").1.2 h
  have hrefused : ofDescription danglingDescription "dev_" =
      .error (.undefinedAttribute "by_day" "day") := rfl
  rw [hrefused] at hread
  cases hread

end TableSchema

end AttributeStore
