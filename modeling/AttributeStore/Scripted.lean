import AttributeStore.Program

/-!
# Prepared answers

A backend whose next calls of some operations are answered as prepared, without reaching the
store behind it.
-/

namespace AttributeStore

open Wire (Operation)

/-- An answer prepared for the next call of an operation. -/
structure PreparedAnswer where
  operation : Operation
  answer : Except BackendError operation.Reply

namespace PreparedAnswer

/-- The first answer prepared for an operation, and the answers without it. -/
def take? (operation : Operation) :
    List PreparedAnswer → Option (Except BackendError operation.Reply × List PreparedAnswer)
  | [] => none
  | prepared :: rest =>
    if h : prepared.operation = operation then some (h ▸ prepared.answer, rest)
    else (take? operation rest).map fun (answer, others) => (answer, prepared :: others)

end PreparedAnswer

/-- A backend that gives prepared answers first. -/
def Backend.scripted {σ : Type} (backend : Backend σ) : Backend (σ × List PreparedAnswer) where
  answer operation request := fun (state, prepared) =>
    match PreparedAnswer.take? operation prepared with
    | some (answer, rest) => (answer, state, rest)
    | none =>
      let (answer, state) := backend.answer operation request state
      (answer, state, prepared)

end AttributeStore
