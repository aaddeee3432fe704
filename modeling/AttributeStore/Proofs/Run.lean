import AttributeStore.Read

/-!
# Running programs

How a backend answers a program made of parts: a bind runs its two parts one after the other, and
a call is answered once. Every proof about a run goes through these lemmas and never unfolds
`Program.run`.
-/

namespace AttributeStore

open Wire (Operation)

namespace Program

variable {α β σ : Type} (backend : Backend σ)

@[simp] theorem run_pure (value : α) (state : σ) :
    (pure value : Program α).run backend state = ⟨value, state, []⟩ := rfl

theorem run_bind (program : Program α) (next : α → Program β) (state : σ) :
    (program >>= next).run backend state =
      let first := program.run backend state
      let second := (next first.value).run backend first.state
      ⟨second.value, second.state, first.trace ++ second.trace⟩ := by
  change (program.bind next).run backend state = _
  induction program generalizing state with
  | done value => rfl
  | call operation request rest ih => simp [bind, run, ih]
  | report event rest ih => simp [bind, run, ih]

@[simp] theorem value_run_bind (program : Program α) (next : α → Program β) (state : σ) :
    ((program >>= next).run backend state).value =
      ((next (program.run backend state).value).run backend
        (program.run backend state).state).value := by
  rw [run_bind]

@[simp] theorem state_run_bind (program : Program α) (next : α → Program β) (state : σ) :
    ((program >>= next).run backend state).state =
      ((next (program.run backend state).value).run backend
        (program.run backend state).state).state := by
  rw [run_bind]

@[simp] theorem run_emit (event : Event) (state : σ) :
    (emit event).run backend state = ⟨(), state, [.reported event]⟩ := rfl

end Program

abbrev Call : Type :=
  (operation : Operation) × operation.Request

def Step.call? : Step → Option Call
  | .called operation request => some ⟨operation, request⟩
  | .reported _ => none

def callsOf (trace : List Step) : List Call :=
  trace.filterMap Step.call?

@[simp] theorem callsOf_append (first second : List Step) :
    callsOf (first ++ second) = callsOf first ++ callsOf second :=
  List.filterMap_append

/-- What is reported of a call, if it fails. -/
def callEvents {α : Type} (operation : Operation) (table : String) :
    Except BackendError α → List Step
  | .ok _ => []
  | .error cause =>
    [.reported {
      level := .error, message := "wire call failed", table, operation := operation.name,
      detail := some ("error", cause.message) }]

/-- The outcome of a call that concerns a table, from the answer of the backend. -/
def callOutcome {σ : Type} (operation : Operation) (table : String) (request : operation.Request)
    (answer : Except BackendError operation.Reply × σ) :
    Run σ (Except Error operation.Reply) where
  value := answer.1.mapError (Error.wire operation.name table)
  state := answer.2
  trace := .called operation request :: callEvents operation table answer.1

theorem run_callTable {σ : Type} (backend : Backend σ) (operation : Operation) (table : String)
    (request : operation.Request) (state : σ) :
    (callTable operation table request).run backend state =
      callOutcome operation table request (backend.answer operation request state) := by
  unfold callTable
  rw [Program.run_bind]
  simp only [Program.send, Program.run]
  unfold callOutcome
  cases (backend.answer operation request state).1 with
  | ok reply => rfl
  | error cause => rfl

end AttributeStore
