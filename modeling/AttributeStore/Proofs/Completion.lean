import AttributeStore.Proofs.Run

/-!
# Completions of programs

A run has one backend answer every call from one state. Where programs take turns at a store, what
answers a call of one depends on all the others; a completion therefore says of a program only which
exchanges lead it to its end, whoever answers. Each run is a completion, and the completions of a
bind are put together from those of its two parts.
-/

namespace AttributeStore

open Wire (Operation)

structure Exchange where
  operation : Operation
  request : operation.Request
  answer : Except BackendError operation.Reply

def Exchange.call (exchange : Exchange) : Call :=
  ⟨exchange.operation, exchange.request⟩

namespace Program

variable {α β : Type}

/-- A program ends with a value if its calls, in order, are answered as in some exchanges. -/
inductive Completes : Program α → List Exchange → α → Prop
  | done (value : α) : Completes (.done value) [] value
  | call {operation : Operation} {request : operation.Request}
    {next : Except BackendError operation.Reply → Program α} {exchanges : List Exchange} {value : α}
    (answer : Except BackendError operation.Reply)
    (rest : Completes (next answer) exchanges value) :
    Completes (.call operation request next) (⟨operation, request, answer⟩ :: exchanges) value
  | report {event : Event} {next : Program α} {exchanges : List Exchange} {value : α}
    (rest : Completes next exchanges value) : Completes (.report event next) exchanges value

/-- A run completes the program with the calls that it makes. -/
theorem completes_run {σ : Type} (backend : Backend σ) (program : Program α) (state : σ) :
    ∃ exchanges, program.Completes exchanges (program.run backend state).value ∧
      exchanges.map Exchange.call = callsOf (program.run backend state).trace := by
  induction program generalizing state with
  | done value => exact ⟨[], .done value, rfl⟩
  | call operation request next ih =>
    obtain ⟨exchanges, hcompletes, hcalls⟩ := ih (backend.answer operation request state).1
      (backend.answer operation request state).2
    refine ⟨_, .call _ hcompletes, ?_⟩
    rw [List.map_cons, hcalls]
    rfl
  | report event next ih =>
    obtain ⟨exchanges, hcompletes, hcalls⟩ := ih state
    exact ⟨exchanges, .report hcompletes, hcalls⟩

section Parts

variable {exchanges : List Exchange}

theorem completes_pure_iff {value result : α} :
    (pure value : Program α).Completes exchanges result ↔ exchanges = [] ∧ result = value := by
  constructor
  · rintro ⟨⟩
    exact ⟨rfl, rfl⟩
  · rintro ⟨rfl, rfl⟩
    exact .done result

theorem completes_bind_iff {program : Program α} {next : α → Program β} {result : β} :
    (program >>= next).Completes exchanges result ↔
      ∃ first value second, program.Completes first value ∧ (next value).Completes second result ∧
        exchanges = first ++ second := by
  change (program.bind next).Completes exchanges result ↔ _
  induction program generalizing exchanges with
  | done value =>
    constructor
    · intro h
      exact ⟨[], value, exchanges, .done value, h, rfl⟩
    · rintro ⟨first, _, second, ⟨⟩, h, rfl⟩
      exact h
  | call operation request rest ih =>
    constructor
    · rintro (_ | ⟨answer, h⟩)
      obtain ⟨first, value, second, hfirst, hsecond, rfl⟩ := (ih answer).1 h
      exact ⟨_, value, second, .call answer hfirst, hsecond, rfl⟩
    · rintro ⟨_, value, second, _ | ⟨answer, hfirst⟩, hsecond, rfl⟩
      exact .call answer ((ih answer).2 ⟨_, value, second, hfirst, hsecond, rfl⟩)
  | report event rest ih =>
    constructor
    · rintro (_ | _ | h)
      obtain ⟨first, value, second, hfirst, hsecond, rfl⟩ := ih.1 h
      exact ⟨_, value, second, .report hfirst, hsecond, rfl⟩
    · rintro ⟨_, value, second, _ | _ | hfirst, hsecond, rfl⟩
      exact .report (ih.2 ⟨_, value, second, hfirst, hsecond, rfl⟩)

theorem completes_emit_iff {event : Event} {result : Unit} :
    (emit event).Completes exchanges result ↔ exchanges = [] := by
  constructor
  · rintro (_ | _ | h)
    cases h
    rfl
  · rintro rfl
    exact .report (.done ())

end Parts

end Program

theorem completes_callTable_iff {operation : Operation} {table : String}
    {request : operation.Request} {exchanges : List Exchange}
    {result : Except Error operation.Reply} :
    (callTable operation table request).Completes exchanges result ↔
      ∃ answer, exchanges = [⟨operation, request, answer⟩] ∧
        result = answer.mapError (Error.wire operation.name table) := by
  unfold callTable
  rw [Program.completes_bind_iff]
  constructor
  · rintro ⟨first, answer, second, _ | ⟨_, ⟨⟩⟩, hsecond, rfl⟩
    refine ⟨answer, ?_⟩
    cases answer with
    | ok reply =>
      obtain ⟨rfl, rfl⟩ := Program.completes_pure_iff.1 hsecond
      exact ⟨rfl, rfl⟩
    | error cause =>
      obtain ⟨_, _, _, hemit, hpure, rfl⟩ := Program.completes_bind_iff.1 hsecond
      obtain rfl := Program.completes_emit_iff.1 hemit
      obtain ⟨rfl, rfl⟩ := Program.completes_pure_iff.1 hpure
      exact ⟨rfl, rfl⟩
  · rintro ⟨answer, rfl, rfl⟩
    refine ⟨_, answer, _, .call answer (.done answer), ?_, (List.append_nil _).symm⟩
    cases answer with
    | ok reply => exact .done _
    | error cause => exact .report (.done _)

end AttributeStore
