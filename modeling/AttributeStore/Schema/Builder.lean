import AttributeStore.Schema

/-!
# Builders

A builder changes one schema in place, step by step. A step that fails stops on its way and leaves
the schema as it has made it up to there; building goes on from that schema.
-/

namespace AttributeStore

open Wire (Throughput)

/-- A computation that changes a schema in place and may fail on its way. -/
abbrev Building := EStateM SchemaError TableSchema

namespace Building

/-- Registers an attribute, unless one of its name is registered. -/
def register (definition : AttributeDefinition) : Building Unit :=
  modify fun schema => schema.addAttribute definition

/-- Puts an index behind those of its kind. -/
def append (index : Index) : Building Unit :=
  modify fun schema => match index.kind with
    | .localIndex => { schema with localIndexes := schema.localIndexes ++ [index] }
    | .globalIndex => { schema with globalIndexes := schema.globalIndexes ++ [index] }

end Building

inductive BuilderStep
  | addAttribute (definition : AttributeDefinition)
  | addRangeKey (definition : AttributeDefinition)
  | setThroughput (throughput : Throughput)
  | addLocalIndex (name : String) (rangeKey : AttributeDefinition)
  | addGlobalIndex (name : String) (keys : List AttributeDefinition)
deriving DecidableEq, Repr

namespace BuilderStep

open Building

/-- What a step does. The checks of an index come before anything is registered. -/
def perform : BuilderStep → Building Unit
  | addAttribute definition => register definition
  | addRangeKey definition => do
    register definition
    modify fun schema => { schema with rangeKey := some definition }
  | setThroughput throughput => modify fun schema => schema.setThroughput throughput
  | addLocalIndex name rangeKey => do
    let schema ← get
    if schema.rangeKey.isNone then throw (.localIndexWithoutRangeKey name)
    register rangeKey
    append {
      name, kind := .localIndex, hashKey := schema.hashKey.name, rangeKey := rangeKey.name,
      projection := .all, throughput := none }
  | addGlobalIndex name keys => do
    let (hashKey, rangeKey) ← match keys with
      | [hashKey] => pure (hashKey, none)
      | [hashKey, rangeKey] => pure (hashKey, some rangeKey)
      | _ => throw (.indexKeyCount name keys.length)
    register hashKey
    if let some rangeKey := rangeKey then register rangeKey
    append {
      name, kind := .globalIndex, hashKey := hashKey.name, rangeKey := rangeKey.map (·.name),
      projection := .all, throughput := some Throughput.default }

/-- The schema after a step, whether the step succeeds or fails. -/
def after (schema : TableSchema) (step : BuilderStep) : TableSchema :=
  match step.perform.run schema with
  | .ok () schema | .error _ schema => schema

end BuilderStep

/-- The schema that a builder makes from a hash key on. A step that fails does not stop it. -/
def TableSchema.build (name : String) (hashKey : AttributeDefinition) (steps : List BuilderStep) :
    TableSchema :=
  steps.foldl BuilderStep.after (.withHashKey name hashKey)

end AttributeStore
