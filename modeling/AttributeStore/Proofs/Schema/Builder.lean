import AttributeStore.Proofs.Schema.Told
import AttributeStore.Schema.Builder
import AttributeStore.Schema.Key

/-!
# What a builder keeps

A builder changes its schema in place and goes on after a step that failed. Each step either fails
and leaves the schema as it was, or adds its attributes at the end of the catalog and its index
behind the others. So the catalog only grows, and holds the attributes of all keys at every point.
-/

namespace AttributeStore

namespace BuilderStep

variable {schema after : TableSchema} {step : BuilderStep} {cause : SchemaError}

/-- The schema that a step makes of another one. -/
def grown (schema : TableSchema) : BuilderStep → Except SchemaError TableSchema
  | addAttribute definition => .ok (schema.addAttribute definition)
  | addRangeKey definition => .ok (schema.addRangeKey definition)
  | setThroughput throughput => .ok (schema.setThroughput throughput)
  | addLocalIndex name rangeKey => schema.addLocalIndex name rangeKey
  | addGlobalIndex name keys => schema.addGlobalIndex name keys

/-- In place a step makes the same schema, and a step that fails makes none. -/
theorem run_perform (step : BuilderStep) (schema : TableSchema) :
    step.perform.run schema =
      match step.grown schema with
      | .ok grown => .ok () grown
      | .error cause => .error cause schema := by
  cases step with
  | addAttribute definition => rfl
  | addRangeKey definition => rfl
  | setThroughput throughput => rfl
  | addLocalIndex name rangeKey =>
    obtain ⟨_, _, range, _, _, _, _, _, _, _⟩ := schema
    cases range <;> rfl
  | addGlobalIndex name keys =>
    match keys with
    | [] => rfl
    | [hashKey] => rfl
    | [hashKey, rangeKey] => rfl
    | _ :: _ :: _ :: _ => rfl

/-! ## One step -/

def definitions : BuilderStep → List AttributeDefinition
  | addAttribute definition | addRangeKey definition => [definition]
  | setThroughput _ => []
  | addLocalIndex _ rangeKey => [rangeKey]
  | addGlobalIndex _ keys => keys

def tableRange? : BuilderStep → Option AttributeDefinition
  | addRangeKey definition => some definition
  | _ => none

/-- A step that is for an index appends one, of its name and its keys; others append none. -/
def Appends (schema after : TableSchema) : BuilderStep → Prop
  | addLocalIndex name rangeKey => ∃ index : Index, index.name = name ∧ index.IsLocal ∧
      index.keyNames = [schema.hashKey.name, rangeKey.name] ∧
      after.localIndexes = schema.localIndexes ++ [index] ∧
      after.globalIndexes = schema.globalIndexes
  | addGlobalIndex name keys => ∃ index : Index, index.name = name ∧ index.IsGlobal ∧
      index.keyNames = keys.map (·.name) ∧
      after.localIndexes = schema.localIndexes ∧
      after.globalIndexes = schema.globalIndexes ++ [index]
  | addAttribute _ | addRangeKey _ | setThroughput _ =>
      after.localIndexes = schema.localIndexes ∧ after.globalIndexes = schema.globalIndexes

/-- Why a step fails: a local index is for a table without range key, or a global index has no key
or more than two. -/
def Refused (schema : TableSchema) (cause : SchemaError) : BuilderStep → Prop
  | addLocalIndex name _ => schema.rangeKey = none ∧ cause = .localIndexWithoutRangeKey name
  | addGlobalIndex name keys =>
    (keys.length ≠ 1 ∧ keys.length ≠ 2) ∧ cause = .indexKeyCount name keys.length
  | addAttribute _ | addRangeKey _ | setThroughput _ => False

/-- All that a step changes when it succeeds. -/
structure Changes (step : BuilderStep) (schema after : TableSchema) : Prop where
  hashKey : after.hashKey = schema.hashKey
  rangeKey : after.rangeKey = step.tableRange?.or schema.rangeKey
  attributes : after.attributes = step.definitions.foldl Roster.add schema.attributes
  appends : step.Appends schema after

theorem changes_of_grown (h : step.grown schema = .ok after) : step.Changes schema after := by
  cases step with
  | addAttribute definition | addRangeKey definition | setThroughput throughput =>
    obtain rfl := Except.ok.inj h
    exact ⟨rfl, rfl, rfl, rfl, rfl⟩
  | addLocalIndex name rangeKey =>
    obtain ⟨index, hname, hlocal, hkeys, rfl⟩ := TableSchema.addLocalIndex_eq_ok h
    exact ⟨rfl, rfl, rfl, index, hname, hlocal, hkeys, rfl, rfl⟩
  | addGlobalIndex name keys =>
    obtain ⟨index, hname, hglobal, hkeys, rfl⟩ := TableSchema.addGlobalIndex_eq_ok h
    exact ⟨rfl, rfl, rfl, index, hname, hglobal, hkeys, rfl, rfl⟩

theorem grown_eq_error_iff : step.grown schema = .error cause ↔ step.Refused schema cause := by
  cases step with
  | addAttribute definition | addRangeKey definition | setThroughput throughput =>
    simp [grown, Refused]
  | addLocalIndex name rangeKey => exact TableSchema.addLocalIndex_eq_error_iff
  | addGlobalIndex name keys => exact TableSchema.addGlobalIndex_eq_error_iff

/-- A step that is refused leaves the schema, and only such a step fails. -/
theorem run_perform_eq_error_iff :
    step.perform.run schema = .error cause after ↔ step.Refused schema cause ∧ after = schema := by
  rw [run_perform, ← grown_eq_error_iff]
  cases step.grown schema with
  | ok grown => simp
  | error other => simp [eq_comm]

theorem run_perform_eq_ok_iff :
    step.perform.run schema = .ok () after ↔ step.grown schema = .ok after := by
  rw [run_perform]
  cases step.grown schema <;> simp

theorem after_of_refused (h : step.Refused schema cause) : step.after schema = schema := by
  rw [BuilderStep.after, run_perform, grown_eq_error_iff.2 h]

theorem after_of_grown (h : step.grown schema = .ok after) : step.after schema = after := by
  rw [BuilderStep.after, run_perform, h]

theorem refused_or_grown (schema : TableSchema) (step : BuilderStep) :
    (∃ cause, step.Refused schema cause) ∨ ∃ after, step.grown schema = .ok after := by
  cases h : step.grown schema with
  | error cause => exact .inl ⟨cause, grown_eq_error_iff.1 h⟩
  | ok after => exact .inr ⟨after, rfl⟩

end BuilderStep

/-! ## A run of steps -/

namespace TableSchema

variable {schema : TableSchema}

theorem Built.after (h : schema.Built) (step : BuilderStep) : (step.after schema).Built := by
  rcases step.refused_or_grown schema with ⟨cause, hrefused⟩ | ⟨after, hgrown⟩
  · rwa [BuilderStep.after_of_refused hrefused]
  · rw [BuilderStep.after_of_grown hgrown]
    cases step with
    | addAttribute definition =>
      obtain rfl := Except.ok.inj hgrown
      exact h.addAttribute definition
    | addRangeKey definition =>
      obtain rfl := Except.ok.inj hgrown
      exact h.addRangeKey definition
    | setThroughput throughput =>
      obtain rfl := Except.ok.inj hgrown
      exact h.setThroughput throughput
    | addLocalIndex name rangeKey => exact h.addLocalIndex hgrown
    | addGlobalIndex name keys => exact h.addGlobalIndex hgrown

theorem built_foldl_after (h : schema.Built) (steps : List BuilderStep) :
    (steps.foldl BuilderStep.after schema).Built := by
  induction steps generalizing schema with
  | nil => exact h
  | cons step rest ih => exact ih (h.after step)

/-- What a step registers comes behind what is registered. -/
theorem prefix_members_after (schema : TableSchema) (step : BuilderStep) :
    schema.attributes.members <+: (step.after schema).attributes.members := by
  rcases step.refused_or_grown schema with ⟨cause, hrefused⟩ | ⟨after, hgrown⟩
  · simp only [BuilderStep.after_of_refused hrefused, List.prefix_refl]
  · rw [BuilderStep.after_of_grown hgrown, (BuilderStep.changes_of_grown hgrown).attributes]
    exact Roster.prefix_members_foldl_add _ _

theorem prefix_members_foldl_after (schema : TableSchema) (steps : List BuilderStep) :
    schema.attributes.members <+: (steps.foldl BuilderStep.after schema).attributes.members := by
  induction steps generalizing schema with
  | nil => exact List.prefix_refl _
  | cons step rest ih => exact (schema.prefix_members_after step).trans (ih _)

variable (name : String) (hashKey : AttributeDefinition) (steps more : List BuilderStep)

theorem built_build : (build name hashKey steps).Built :=
  built_foldl_after (.withHashKey name hashKey) steps

theorem build_append :
    build name hashKey (steps ++ more) = more.foldl BuilderStep.after (build name hashKey steps) :=
  List.foldl_append

/-- The attributes of all keys are registered: those of the table and those of the indexes. -/
structure KeysRegistered (schema : TableSchema) : Prop where
  tableKeys : ∀ definition ∈ schema.keyDefinitions, definition.name ∈ schema.attributes.names
  indexKeys : ∀ index ∈ schema.localIndexes ++ schema.globalIndexes,
    index.DefinedIn schema.attributes

theorem Built.keysRegistered (h : schema.Built) : schema.KeysRegistered where
  tableKeys := by
    refine List.forall_mem_cons.2 ⟨h.sound.mem_names_hashKey, fun definition hm => ?_⟩
    exact h.mem_names_rangeKey definition (Option.mem_toList.1 hm)
  indexKeys := List.forall_mem_append.2
    ⟨fun index hm => (h.sound.localIndexes index hm).2,
      fun index hm => (h.sound.globalIndexes index hm).2⟩

/-- After any steps, failing ones among them, the attributes of all keys are registered, each under
its own name, and whatever steps come later leave the catalog in front of what they add. The next
step either is refused and leaves the whole schema, or it succeeds and appends the one index that
it is for. -/
theorem build_keeps_catalog_closed :
    (build name hashKey steps).KeysRegistered ∧
    (∀ key definition, (build name hashKey steps).attributes.get? key = some definition →
      definition.name = key) ∧
    (build name hashKey steps).attributes.members <+:
      (build name hashKey (steps ++ more)).attributes.members ∧
    ∀ step : BuilderStep,
      (∀ cause after,
        step.perform.run (build name hashKey steps) = .error cause after ↔
          step.Refused (build name hashKey steps) cause ∧ after = build name hashKey steps) ∧
      ∀ after, step.perform.run (build name hashKey steps) = .ok () after →
        after = build name hashKey (steps ++ [step]) ∧
          step.Appends (build name hashKey steps) after := by
  refine ⟨(built_build name hashKey steps).keysRegistered, ?_, ?_, fun step => ⟨?_, ?_⟩⟩
  · exact fun key definition h => (Roster.get?_eq_some_iff.1 h).2
  · rw [build_append]
    exact prefix_members_foldl_after _ more
  · exact fun cause after => BuilderStep.run_perform_eq_error_iff
  · intro after h
    have hgrown := BuilderStep.run_perform_eq_ok_iff.1 h
    rw [build_append, List.foldl_cons, List.foldl_nil, BuilderStep.after_of_grown hgrown]
    exact ⟨rfl, (BuilderStep.changes_of_grown hgrown).appends⟩

def eventsSteps : List BuilderStep :=
  [.addLocalIndex "by_score" ⟨"score", .number⟩, .addRangeKey ⟨"time", .number⟩,
    .setThroughput ⟨5, 3⟩, .addLocalIndex "by_score" ⟨"score", .number⟩]

theorem build_keeps_catalog_closed_events :
    let events := build "events" ⟨"id", .number⟩ eventsSteps
    let index := BuilderStep.addGlobalIndex "by_user" [⟨"user", .string⟩, ⟨"time", .number⟩]
    events.KeysRegistered ∧ events.attributes.names = ["id", "time", "score"] ∧
    index.perform.run events = .ok () (build "events" ⟨"id", .number⟩ (eventsSteps ++ [index])) ∧
    index.Appends events (build "events" ⟨"id", .number⟩ (eventsSteps ++ [index])) ∧
    (BuilderStep.addGlobalIndex "by_none" []).perform.run events =
      .error (.indexKeyCount "by_none" 0) events := by
  intro events index
  obtain ⟨hkeys, -, -, hsteps⟩ :=
    build_keeps_catalog_closed "events" ⟨"id", .number⟩ eventsSteps [index]
  have hrun : index.perform.run events =
      .ok () (build "events" ⟨"id", .number⟩ (eventsSteps ++ [index])) := rfl
  refine ⟨hkeys, rfl, hrun, ((hsteps index).2 _ hrun).2, ?_⟩
  exact ((hsteps (.addGlobalIndex "by_none" [])).1 _ _).2 ⟨⟨by decide, rfl⟩, rfl⟩

end TableSchema

end AttributeStore
