import AttributeStore.Error
import AttributeStore.Wire.Operation

/-!
# Programs

What this library does to the store, apart from any store: a program ends with a value, calls an
operation and goes on with its answer, or reports an event. A backend answers calls from a state
of its own; `Program.run` lets it answer a program and records what happened on the way.
-/

namespace AttributeStore

open Wire (Operation)

inductive Level
  | debug
  | info
  | warn
  | error
deriving DecidableEq, Repr

def Level.name : Level → String
  | debug => "debug"
  | info => "info"
  | warn => "warn"
  | error => "error"

structure Event where
  level : Level
  message : String
  /-- The full name of the table concerned. -/
  table : String
  /-- The operation in progress. -/
  operation : String
  /-- A further text, by its name. -/
  detail : Option (String × String) := none
  /-- Counts, by their names. -/
  counts : List (String × Nat) := []
deriving DecidableEq, Repr

/-- A computation that calls the store. -/
inductive Program (α : Type) : Type 1
  | done (value : α)
  | call (operation : Operation) (request : operation.Request)
      (next : Except BackendError operation.Reply → Program α)
  | report (event : Event) (next : Program α)

namespace Program

variable {α β σ : Type}

def bind : Program α → (α → Program β) → Program β
  | done value, next => next value
  | call operation request rest, next =>
    call operation request fun answer => (rest answer).bind next
  | report event rest, next => report event (rest.bind next)

instance : Monad Program where
  pure := done
  bind := bind

def send (operation : Operation) (request : operation.Request) :
    Program (Except BackendError operation.Reply) :=
  call operation request done

def emit (event : Event) : Program Unit :=
  report event (done ())

end Program

/-- A store: from a state it answers each request and moves on to another state. -/
structure Backend (σ : Type) where
  answer : (operation : Operation) → operation.Request → σ →
    Except BackendError operation.Reply × σ

/-- What can be seen of a running program. -/
inductive Step
  | called (operation : Operation) (request : operation.Request)
  | reported (event : Event)

structure Run (σ α : Type) where
  value : α
  /-- The state in which the store is left. -/
  state : σ
  /-- The calls and events, in order. -/
  trace : List Step

namespace Program

variable {α σ : Type}

/-- The outcome of a program whose calls a backend answers. -/
def run (backend : Backend σ) : Program α → σ → Run σ α
  | done value, state => ⟨value, state, []⟩
  | call operation request next, state =>
    let (answer, state) := backend.answer operation request state
    let rest := (next answer).run backend state
    { rest with trace := .called operation request :: rest.trace }
  | report event next, state =>
    let rest := next.run backend state
    { rest with trace := .reported event :: rest.trace }

end Program

end AttributeStore
