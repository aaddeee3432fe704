import AttributeStore.Proofs.Schema.Builder
import AttributeStore.Proofs.Schema.KeyValues

/-!
# The types of key attributes

The catalog keeps the first definition of a name that it is offered, while the range key of a table
is what the last step for it said. A table is created with the types of the catalog, and keys are
checked against those of the schema. The two are the same for the hash key, and for a range key
exactly if its name was first offered with its type.
-/

namespace AttributeStore

open Wire

def Wire.CreateTable.declaredType? (request : CreateTable) (name : String) : Option String :=
  ((request.attributeDefinitions.getD []).find? fun element => element.name = name).map
    (·.attributeType)

theorem WireType.tag_injective : Function.Injective tag := by
  intro wireType other h
  have hread := ofTag?_tag wireType
  rw [h, ofTag?_tag] at hread
  exact (Option.some.inj hread).symm

namespace TableSchema

/-- The definitions that steps offer to the catalog; a step that fails offers none. -/
def offers (schema : TableSchema) : List BuilderStep → List AttributeDefinition
  | [] => []
  | step :: rest =>
    (match step.perform.run schema with
      | .ok _ _ => step.definitions
      | .error _ _ => []) ++ offers (step.after schema) rest

/-- A definition is the first of its name that was offered. -/
def OfferedFirst (offered : List AttributeDefinition) (definition : AttributeDefinition) : Prop :=
  ∃ before after, offered = before ++ definition :: after ∧
    ∀ other ∈ before, other.name ≠ definition.name

theorem find?_eq_some_iff_offeredFirst {offered : List AttributeDefinition}
    {definition : AttributeDefinition} :
    offered.find? (fun other => other.name = definition.name) = some definition ↔
      OfferedFirst offered definition := by
  simp [List.find?_eq_some_iff_append, OfferedFirst]

theorem attributes_foldl_after (schema : TableSchema) (steps : List BuilderStep) :
    (steps.foldl BuilderStep.after schema).attributes =
      (schema.offers steps).foldl Roster.add schema.attributes := by
  induction steps generalizing schema with
  | nil => rfl
  | cons step rest ih =>
    rw [List.foldl_cons, ih, offers, List.foldl_append]
    congr 1
    rcases step.refused_or_grown schema with ⟨cause, hrefused⟩ | ⟨after, hgrown⟩
    · rw [BuilderStep.after_of_refused hrefused,
        BuilderStep.run_perform_eq_error_iff.2 ⟨hrefused, rfl⟩]
      rfl
    · rw [BuilderStep.after_of_grown hgrown, BuilderStep.run_perform_eq_ok_iff.2 hgrown,
        (BuilderStep.changes_of_grown hgrown).attributes]

variable (name : String) (hashKey : AttributeDefinition) (steps : List BuilderStep)

/-- The catalog has the first definition of each name. -/
theorem get?_attributes_build (key : String) :
    (build name hashKey steps).attributes.get? key =
      (hashKey :: offers (.withHashKey name hashKey) steps).find? fun other => other.name = key := by
  rw [build, attributes_foldl_after, Roster.get?_foldl_add, List.find?_cons]
  have hash : (withHashKey name hashKey).attributes.get? key =
      if hashKey.name = key then some hashKey else none := Roster.get?_add ∅ hashKey key
  rw [hash]
  by_cases h : hashKey.name = key <;> simp [h]

theorem hashKey_foldl_after (schema : TableSchema) :
    (steps.foldl BuilderStep.after schema).hashKey = schema.hashKey := by
  induction steps generalizing schema with
  | nil => rfl
  | cons step rest ih =>
    rw [List.foldl_cons, ih]
    rcases step.refused_or_grown schema with ⟨cause, hrefused⟩ | ⟨after, hgrown⟩
    · rw [BuilderStep.after_of_refused hrefused]
    · rw [BuilderStep.after_of_grown hgrown, (BuilderStep.changes_of_grown hgrown).hashKey]

theorem declaredType?_toCreateRequest (schema : TableSchema) (namePrefix key : String) :
    (schema.toCreateRequest namePrefix).declaredType? key =
      (schema.attributes.get? key).map fun definition => definition.wireType.tag := by
  simp only [CreateTable.declaredType?, toCreateRequest, Option.getD_some, List.find?_map,
    Option.map_map]
  rfl

theorem declaredType?_eq_tag_iff {schema : TableSchema} {definition : AttributeDefinition}
    (namePrefix : String) :
    (schema.toCreateRequest namePrefix).declaredType? definition.name =
        some definition.wireType.tag ↔
      schema.attributes.get? definition.name = some definition := by
  rw [declaredType?_toCreateRequest]
  constructor
  · intro h
    obtain ⟨found, hfound, htag⟩ := Option.map_eq_some_iff.1 h
    have hname := (Roster.get?_eq_some_iff.1 hfound).2
    have htype := WireType.tag_injective htag
    obtain ⟨_, _⟩ := found
    obtain ⟨_, _⟩ := definition
    subst hname htype
    exact hfound
  · intro h
    rw [h, Option.map_some]

/-- After any steps a definition of a key attribute is in the catalog, and its type is declared when
the table is created, exactly if it is the first of its name that was offered. The hash key is
offered before all others. The types that are enforced on keys, whether they are taken from items
or made from values, are those of the definitions in any case. -/
theorem keyTypes_declared_iff_offeredFirst :
    (build name hashKey steps).hashKey = hashKey ∧
    OfferedFirst (hashKey :: offers (.withHashKey name hashKey) steps) hashKey ∧
    ∀ definition ∈ (build name hashKey steps).keyDefinitions,
      ((build name hashKey steps).attributes.get? definition.name = some definition ↔
        OfferedFirst (hashKey :: offers (.withHashKey name hashKey) steps) definition) ∧
      (∀ namePrefix,
        ((build name hashKey steps).toCreateRequest namePrefix).declaredType? definition.name =
            some definition.wireType.tag ↔
          OfferedFirst (hashKey :: offers (.withHashKey name hashKey) steps) definition) ∧
      (∀ item key, (build name hashKey steps).keyOf item = .ok key →
        ∃ held, item.get? definition.name = some held ∧ held.wireType = definition.wireType) ∧
      ((build name hashKey steps).DistinctKeys → ∀ hash range primary key,
        (build name hashKey steps).keys hash range = .ok primary → primary.encode = .ok key →
          ∃ held, key.get? definition.name = some held ∧
            held.wireType = definition.wireType) := by
  refine ⟨hashKey_foldl_after steps _, ⟨[], _, rfl, fun _ h => nomatch h⟩, fun definition hm => ?_⟩
  have hcatalog : (build name hashKey steps).attributes.get? definition.name = some definition ↔
      OfferedFirst (hashKey :: offers (.withHashKey name hashKey) steps) definition := by
    rw [get?_attributes_build, find?_eq_some_iff_offeredFirst]
  refine ⟨hcatalog, fun namePrefix => (declaredType?_eq_tag_iff namePrefix).trans hcatalog, ?_, ?_⟩
  · exact fun item key h => ((keyOf_eq_ok_iff _ _ _).1 h).1 definition hm
  · intro hd hash range primary key hk he
    exact ((keyOf_eq_ok_iff _ _ _).1 (keyOf_of_encode hd hk he (.refl key))).1 definition hm

/-- The times of events are numbers wherever they are defined. -/
theorem keyTypes_declared_iff_offeredFirst_events :
    let events := build "events" ⟨"id", .number⟩
      [.addGlobalIndex "by_time" [⟨"time", .number⟩], .addRangeKey ⟨"time", .number⟩]
    events.attributes.get? "time" = some ⟨"time", .number⟩ ∧
      (events.toCreateRequest "dev_").declaredType? "time" = some "N" := by
  intro events
  obtain ⟨-, -, hkeys⟩ := keyTypes_declared_iff_offeredFirst "events" ⟨"id", .number⟩
    [.addGlobalIndex "by_time" [⟨"time", .number⟩], .addRangeKey ⟨"time", .number⟩]
  obtain ⟨hcatalog, hdeclared, -⟩ := hkeys ⟨"time", .number⟩ (.tail _ (.head _))
  have hfirst : OfferedFirst [⟨"id", .number⟩, ⟨"time", .number⟩, ⟨"time", .number⟩]
      ⟨"time", .number⟩ := ⟨[⟨"id", .number⟩], [⟨"time", .number⟩], rfl, by decide⟩
  exact ⟨hcatalog.2 hfirst, (hdeclared "dev_").2 hfirst⟩

def textEvent : WireItem :=
  Named.ofList [("id", .leaf (.string "1")), ("time", .leaf (.string "noon"))]

/-- A time that is a text for the catalog and then a number for the range key: the table is made for
texts, and an event that has one is refused. -/
theorem addRangeKey_parts_types :
    let events := build "events" ⟨"id", .string⟩
      [.addAttribute ⟨"time", .string⟩, .addRangeKey ⟨"time", .number⟩]
    events.rangeKey = some ⟨"time", .number⟩ ∧
    events.attributes.get? "time" = some ⟨"time", .string⟩ ∧
    (events.toCreateRequest "dev_").declaredType? "time" = some "S" ∧
    events.keyOf textEvent = .error (.keyType "events" "time" .number .string) :=
  ⟨rfl, rfl, rfl, rfl⟩

end TableSchema

end AttributeStore
