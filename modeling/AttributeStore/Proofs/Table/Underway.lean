import AttributeStore.Proofs.Table.Accounts

/-!
# Flushes under way

A flush that has taken the spool goes on step by step: it makes a call and gets some answer, reports
an event, or ends. Whatever the answers, what it has sent so far are entries that it took, and once
it has ended its exchanges account for what it tells and keeps.
-/

namespace AttributeStore

open Wire (Operation)

inductive Manner
  | oneByOne
  | inBatches
deriving DecidableEq

def Manner.flush (table : Table) : Manner → Program (Except Error Unit × Table)
  | oneByOne => table.put
  | inBatches => table.batchPut

abbrev Answers : Type :=
  (operation : Operation) → operation.Request → Except BackendError operation.Reply

/-- How far a flush has got. -/
inductive Progress
  /-- What is left to do. -/
  | sending (rest : Program (Except Error Unit × Table))
  /-- The result, and the entries that failed. -/
  | ended (result : Except Error Unit) (errorItems : List Entry)

/-- A flush that has taken the spool. -/
structure Underway where
  manner : Manner
  /-- The handle as the flush found it, with the entries that it took. -/
  found : Table
  /-- The calls made so far and their answers. -/
  exchanges : List Exchange
  progress : Progress

namespace Underway

def taken (flush : Underway) : List Entry :=
  flush.found.spool

/-- A flush that begins: it takes what is staged. -/
def begin (manner : Manner) (table : Table) : Underway :=
  ⟨manner, table, [], .sending (manner.flush table)⟩

def step (flush : Underway) (answers : Answers) : Underway :=
  match flush.progress with
  | .sending (.call operation request next) =>
    let answer := answers operation request
    { flush with
      exchanges := flush.exchanges ++ [⟨operation, request, answer⟩]
      progress := .sending (next answer) }
  | .sending (.report _ next) => { flush with progress := .sending next }
  | .sending (.done (result, after)) => { flush with progress := .ended result after.errorItems }
  | .ended _ _ => flush

/-- The handle after a step of a flush: at its end the flush stores the entries that failed. -/
def leave (flush : Underway) (table : Table) : Table :=
  match flush.progress with
  | .sending (.done (_, after)) => { table with errorItems := after.errorItems }
  | _ => table

/-- A flush is under way if what is left to do leads, from its exchanges so far, to an end of the
flush. -/
def Sound (flush : Underway) : Prop :=
  match flush.progress with
  | .sending rest => ∀ exchanges value, rest.Completes exchanges value →
    (flush.manner.flush flush.found).Completes (flush.exchanges ++ exchanges) value
  | .ended result errorItems => ∃ after : Table, after.errorItems = errorItems ∧
    (flush.manner.flush flush.found).Completes flush.exchanges (result, after)

variable {flush : Underway}

theorem sound_begin (manner : Manner) (table : Table) : (begin manner table).Sound :=
  fun _ _ h => h

theorem Sound.step (h : flush.Sound) (answers : Answers) : (flush.step answers).Sound := by
  obtain ⟨manner, found, exchanges, progress⟩ := flush
  cases progress with
  | ended result errorItems => exact h
  | sending rest =>
    cases rest with
    | done value =>
      have hdone := h [] value (.done value)
      rw [List.append_nil] at hdone
      exact ⟨value.2, rfl, hdone⟩
    | call operation request next =>
      intro more value hmore
      have hcall := h _ value (.call (answers operation request) hmore)
      rwa [List.append_cons] at hcall
    | report event next => exact fun more value hmore => h more value (.report hmore)

@[simp] theorem found_step (flush : Underway) (answers : Answers) :
    (flush.step answers).found = flush.found := by
  obtain ⟨manner, found, exchanges, _ | _⟩ := flush
  · rename_i rest
    cases rest <;> rfl
  · rfl

theorem step_of_ended {result : Except Error Unit} {errorItems : List Entry}
    (h : flush.progress = .ended result errorItems) (answers : Answers) :
    flush.step answers = flush := by
  unfold Underway.step
  rw [h]

theorem leave_cases (flush : Underway) (table : Table) (answers : Answers) :
    flush.leave table = table ∨
      ∃ result, (flush.step answers).progress = .ended result (flush.leave table).errorItems := by
  obtain ⟨manner, found, exchanges, progress⟩ := flush
  cases progress with
  | ended result errorItems => exact .inl rfl
  | sending rest =>
    cases rest with
    | done value => exact .inr ⟨value.1, rfl⟩
    | call operation request next => exact .inl rfl
    | report event next => exact .inl rfl

/-- What accounts for a flush that was completed. -/
theorem accounts_of_completes {manner : Manner} {table : Table} {exchanges : List Exchange}
    {value : Except Error Unit × Table} (h : (manner.flush table).Completes exchanges value) :
    ∃ flush, Accounts table table.spool exchanges flush ∧
      value = (flush.result, { table with spool := [], errorItems := flush.items }) := by
  cases manner with
  | oneByOne => exact Table.accounts_flushWith Table.accounts_putEntries h
  | inBatches => exact Table.accounts_flushWith Table.accounts_batchEntries h

/-- Which entries a flush has sent, call by call. -/
def Sent (flush : Underway) (entries : List Entry) : Prop :=
  ∃ groups, List.Forall₂ (Carries flush.found.fullName) (flush.exchanges.map Exchange.call) groups ∧
    entries = groups.flatten

theorem Sound.exists_sent (h : flush.Sound) :
    ∃ entries, flush.Sent entries ∧ entries.Sublist flush.taken := by
  -- However the calls that are left are answered, the flush has an end, of which it is a beginning.
  have hends : ∃ more value,
      (flush.manner.flush flush.found).Completes (flush.exchanges ++ more) value := by
    obtain ⟨manner, found, exchanges, progress⟩ := flush
    cases progress with
    | sending rest =>
      obtain ⟨more, hmore, -⟩ := Program.completes_run Store.backend rest {}
      exact ⟨more, _, h more _ hmore⟩
    | ended result errorItems =>
      obtain ⟨after, -, hcompletes⟩ := h
      exact ⟨[], _, by rwa [List.append_nil]⟩
  obtain ⟨more, value, hcompletes⟩ := hends
  obtain ⟨_, haccounts, -⟩ := accounts_of_completes hcompletes
  obtain ⟨groups, hcarry, hsub⟩ := haccounts.carried
  have hprefix := List.forall₂_take flush.exchanges.length hcarry
  rw [List.map_append, List.take_left' (List.length_map _)] at hprefix
  refine ⟨_, ⟨_, hprefix, rfl⟩, List.Sublist.trans ?_ hsub⟩
  conv => rhs; rw [← List.take_append_drop flush.exchanges.length groups, List.flatten_append]
  exact List.sublist_append_left _ _

/-- What a flush that has ended tells is an aggregate of errors that speak of what it took, and what
it keeps are entries that it took. -/
theorem Sound.of_ended (h : flush.Sound) {result : Except Error Unit} {errorItems : List Entry}
    (ended : flush.progress = .ended result errorItems) :
    (∃ errors, result = Aggregate.toResult ⟨serviceName, errors⟩ ∧
      ∀ error ∈ errors, Speaks flush.found flush.taken flush.exchanges error) ∧
    ((∀ exchange ∈ flush.exchanges, exchange.GivesBack flush.found.fullName) →
      ∀ entry ∈ errorItems, entry ∈ flush.taken) := by
  unfold Sound at h
  rw [ended] at h
  obtain ⟨after, rfl, hcompletes⟩ := h
  obtain ⟨told, haccounts, hvalue⟩ := accounts_of_completes hcompletes
  obtain ⟨rfl, rfl⟩ := Prod.mk.inj hvalue
  exact ⟨⟨told.errors, rfl, haccounts.told⟩, haccounts.kept⟩

end Underway

end AttributeStore
