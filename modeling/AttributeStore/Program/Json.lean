import AttributeStore.Program
import AttributeStore.Wire.OperationJson

/-!
# Calls and events as JSON

What a running program did, as it is shown to people and tools.
-/

namespace AttributeStore

open Wire (Blob Operation)

def callToJson (blob : Blob) (operation : Operation) (request : operation.Request) : Json :=
  .object [("operation", .string operation.name), ("input", operation.requestToJson blob request)]

def Event.toJson (event : Event) : Json :=
  .object ([("level", .string event.level.name), ("message", .string event.message),
    ("service", .string serviceName), ("table", .string event.table),
    ("operation", .string event.operation)] ++
    (event.detail.toList.map fun (name, detail) => (name, .string detail)) ++
    event.counts.map fun (name, count) => (name, .ofNat count))

def callsToJson (blob : Blob) (steps : List Step) : List Json :=
  steps.filterMap fun
    | .called operation request => some (callToJson blob operation request)
    | .reported _ => none

def eventsToJson (steps : List Step) : List Json :=
  steps.filterMap fun
    | .called _ _ => none
    | .reported event => some event.toJson

end AttributeStore
