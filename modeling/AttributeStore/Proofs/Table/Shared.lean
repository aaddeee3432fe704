import AttributeStore.Proofs.Table.Capacity
import AttributeStore.Proofs.Table.Create

/-!
# Handles that share a table

Any number of handles to one table change its capacity in turn. Both capacities are written at once,
and the one that was not asked about is the one that the handle last read; so it is kept as long as
no other handle changed it since, and set back otherwise.
-/

namespace AttributeStore

open Store (backend)
open Wire (Throughput)

inductive CapacityCall
  | setRead (read : Int)
  | setWrite (write : Int)
  | set (throughput : Throughput)
  | refresh

namespace CapacityCall

def program (table : Table) : CapacityCall → Program (Except Error Unit × Table)
  | setRead read => table.updateReadThroughput read
  | setWrite write => table.updateWriteThroughput write
  | set throughput => table.updateThroughput throughput
  | refresh => table.refresh

/-- The capacity that a call of a handle sends, unless it only reads. -/
def wanted? (table : Table) : CapacityCall → Option Throughput
  | setRead read => some { table.schema.throughput with read }
  | setWrite write => some { table.schema.throughput with write }
  | set throughput => some throughput
  | refresh => none

/-- What a call of a handle can come to: what it gives, the handle after it and the store. -/
inductive Comes (table : Table) (state : Store.State) :
    CapacityCall → Except Error Unit × Table → Store.State → Prop
  | inactive {call : CapacityCall} {wanted : Throughput} {cause : Error}
    (asks : call.wanted? table = some wanted) : Comes table state call (.error cause, table) state
  | changed {call : CapacityCall} {wanted : Throughput} {stored : Store.StoredTable}
    (asks : call.wanted? table = some wanted)
    (has : state.tables.get? table.fullName = some stored) :
    Comes table state call
      (table.reread ((state.withCapacity table.fullName stored wanted).toldSchema
        table.namePrefix table.fullName))
      (state.withCapacity table.fullName stored wanted).described
  | refreshed :
    Comes table state refresh
      (table.reread (state.toldSchema table.namePrefix table.fullName)) state.described

variable {table : Table} {state after : Store.State} {call : CapacityCall}
  {answer : Except Error Unit × Table} {capacity wanted : Throughput} {decreases : Int}

theorem run_updateThroughput {stored : Store.StoredTable}
    (has : state.tables.get? table.fullName = some stored)
    (asks : call.wanted? table = some wanted) :
    let run := (table.updateThroughput wanted).run backend state
    Comes table state call run.value run.state := by
  by_cases hactive : table.schema.status = some Wire.activeStatus
  · obtain ⟨hvalue, hstate⟩ := Table.run_updateThroughput_active hactive has wanted
    dsimp only
    rw [hvalue, hstate]
    exact .changed asks has
  · rw [Table.run_updateThroughput_inactive hactive]
    exact .inactive asks

theorem run_spec (h : state.Offers table.fullName capacity decreases) (call : CapacityCall) :
    let run := (call.program table).run backend state
    Comes table state call run.value run.state := by
  obtain ⟨stored, has, -⟩ := h
  cases call with
  | setRead read => exact run_updateThroughput has rfl
  | setWrite write => exact run_updateThroughput has rfl
  | set throughput => exact run_updateThroughput has rfl
  | refresh =>
    obtain ⟨hvalue, hstate⟩ := Table.run_refresh table state
    dsimp only [program]
    rw [hvalue, hstate]
    exact .refreshed

/-! ## What every call keeps -/

theorem fullName_reread (h : state.Offers table.fullName capacity decreases) :
    (table.reread (state.toldSchema table.namePrefix table.fullName)).2.fullName =
      table.fullName := by
  cases htold : state.toldSchema table.namePrefix table.fullName with
  | error cause => rfl
  | ok schema =>
    obtain ⟨hname, -⟩ := h.told htold
    change table.namePrefix ++ schema.name = table.fullName
    rw [hname]
    unfold Table.fullName TableSchema.fullName
    rw [TableSchema.shortName_append]

theorem Comes.fullName_eq (c : Comes table state call answer after)
    (h : state.Offers table.fullName capacity decreases) :
    answer.2.fullName = table.fullName := by
  cases c with
  | inactive => rfl
  | changed asks has => exact fullName_reread (h.withCapacity has _)
  | refreshed => exact fullName_reread h

theorem Comes.offers (c : Comes table state call answer after)
    (h : state.Offers table.fullName capacity decreases) :
    ∃ capacity decreases, after.Offers table.fullName capacity decreases := by
  cases c with
  | inactive => exact ⟨_, _, h⟩
  | changed asks has => exact ⟨_, _, h.withCapacity has _⟩
  | refreshed => exact ⟨_, _, h⟩

/-! ## What a change that succeeds leaves -/

/-- A change that succeeds leaves the capacity that was sent at the store and at the handle. -/
theorem Comes.settled (c : Comes table state call answer after)
    (h : state.Offers table.fullName capacity decreases)
    (asks : call.wanted? table = some wanted) (done : answer.1 = .ok ()) :
    after.Offers table.fullName wanted (wanted.decreasesAfter capacity decreases) ∧
      answer.2.schema.throughput = wanted ∧
      answer.2.schema.decreasesToday = wanted.decreasesAfter capacity decreases := by
  cases c with
  | inactive => cases done
  | @changed _ sent stored sends has =>
    obtain rfl := Option.some.inj (sends.symm.trans asks)
    have hoffers := h.withCapacity has sent
    cases htold : (state.withCapacity table.fullName stored sent).toldSchema
        table.namePrefix table.fullName with
    | error cause =>
      rw [htold] at done
      cases done
    | ok schema =>
      obtain ⟨-, hthroughput, hdecreases⟩ := hoffers.told htold
      exact ⟨hoffers, hthroughput, hdecreases⟩
  | refreshed => cases asks

/-! ## Handles that know the capacity -/

/-- A handle knows the capacity that the store offers, and can read the schema of its table. -/
structure Knows (table : Table) (state : Store.State) : Prop where
  readable : ∃ schema, state.toldSchema table.namePrefix table.fullName = .ok schema
  offers : ∃ decreases, state.Offers table.fullName table.schema.throughput decreases

theorem knows_reread (h : state.Offers table.fullName capacity decreases) {schema : TableSchema}
    (told : state.toldSchema table.namePrefix table.fullName = .ok schema) :
    Knows (table.reread (.ok schema)).2 state.described := by
  have hfull := fullName_reread h
  rw [told] at hfull
  constructor
  · rw [hfull]
    exact ⟨schema, told⟩
  · rw [hfull]
    obtain ⟨-, hthroughput, -⟩ := h.told told
    exact ⟨decreases, hthroughput ▸ h⟩

theorem Comes.knows_of_done (c : Comes table state call answer after)
    (h : state.Offers table.fullName capacity decreases) (done : answer.1 = .ok ()) :
    Knows answer.2 after := by
  cases c with
  | inactive => cases done
  | @changed _ sent stored sends has =>
    have hoffers := h.withCapacity has sent
    cases htold : (state.withCapacity table.fullName stored sent).toldSchema
        table.namePrefix table.fullName with
    | error cause =>
      rw [htold] at done
      cases done
    | ok schema => exact knows_reread hoffers htold
  | refreshed =>
    cases htold : state.toldSchema table.namePrefix table.fullName with
    | error cause =>
      rw [htold] at done
      cases done
    | ok schema => exact knows_reread h htold

theorem Comes.knows_of_knows (c : Comes table state call answer after) (h : Knows table state) :
    Knows answer.2 after := by
  obtain ⟨⟨schema, htold⟩, decreases, hoffers⟩ := h
  cases c with
  | inactive => exact ⟨⟨schema, htold⟩, decreases, hoffers⟩
  | changed asks has =>
    obtain ⟨read, hread⟩ := Store.State.exists_told_withCapacity has htold _
    rw [hread]
    exact knows_reread (hoffers.withCapacity has _) hread
  | refreshed =>
    rw [htold]
    exact knows_reread hoffers htold

end CapacityCall

/-- Handles and the store behind them. -/
structure SharedTable where
  handles : List Table
  store : Store.State

namespace SharedTable

def outcome (shared : SharedTable) (table : Table) (call : CapacityCall) :
    Run Store.State (Except Error Unit × Table) :=
  (call.program table).run backend shared.store

def perform (shared : SharedTable) (turn : Nat × CapacityCall) : SharedTable :=
  match shared.handles[turn.1]? with
  | none => shared
  | some table =>
    let outcome := shared.outcome table turn.2
    ⟨shared.handles.set turn.1 outcome.value.2, outcome.state⟩

def after (shared : SharedTable) (turns : List (Nat × CapacityCall)) : SharedTable :=
  turns.foldl perform shared

/-- The handles are handles of one table, of which the store tells a capacity. -/
structure Of (shared : SharedTable) (name : String) : Prop where
  handles : ∀ table ∈ shared.handles, table.fullName = name
  store : ∃ capacity decreases, shared.store.Offers name capacity decreases

variable {shared : SharedTable} {name : String} {place : Nat} {table : Table}
  {call : CapacityCall}

theorem perform_of_held (held : shared.handles[place]? = some table) (call : CapacityCall) :
    shared.perform (place, call) =
      ⟨shared.handles.set place (shared.outcome table call).value.2,
        (shared.outcome table call).state⟩ := by
  unfold perform
  rw [held]

namespace Of

theorem outcome_spec (h : shared.Of name) (held : shared.handles[place]? = some table)
    (call : CapacityCall) :
    ∃ capacity decreases, shared.store.Offers table.fullName capacity decreases ∧
      call.Comes table shared.store (shared.outcome table call).value
        (shared.outcome table call).state := by
  obtain ⟨capacity, decreases, hoffers⟩ := h.store
  rw [← h.handles table (List.mem_of_getElem? held)] at hoffers
  exact ⟨capacity, decreases, hoffers, call.run_spec hoffers⟩

theorem perform (h : shared.Of name) (turn : Nat × CapacityCall) :
    (shared.perform turn).Of name := by
  obtain ⟨place, call⟩ := turn
  cases held : shared.handles[place]? with
  | none =>
    unfold SharedTable.perform
    rw [held]
    exact h
  | some table =>
    obtain ⟨capacity, decreases, hoffers, hcomes⟩ := h.outcome_spec held call
    have hname := h.handles table (List.mem_of_getElem? held)
    rw [perform_of_held held]
    constructor
    · intro other hother
      rcases List.mem_or_eq_of_mem_set hother with hold | hnew
      · exact h.handles other hold
      · rw [hnew, hcomes.fullName_eq hoffers, hname]
    · exact hname ▸ hcomes.offers hoffers

theorem after (h : shared.Of name) (turns : List (Nat × CapacityCall)) :
    (shared.after turns).Of name := by
  unfold SharedTable.after
  induction turns generalizing shared with
  | nil => exact h
  | cons turn rest ih => exact ih (h.perform turn)

end Of

/-- The handle at a place knows the capacity that the store offers. -/
def KnowsAt (shared : SharedTable) (place : Nat) : Prop :=
  ∃ table, shared.handles[place]? = some table ∧ CapacityCall.Knows table shared.store

theorem knowsAt_of_done (h : shared.Of name) (held : shared.handles[place]? = some table)
    (done : (shared.outcome table call).value.1 = .ok ()) :
    (shared.perform (place, call)).KnowsAt place := by
  obtain ⟨capacity, decreases, hoffers, hcomes⟩ := h.outcome_spec held call
  rw [perform_of_held held]
  obtain ⟨hlt, -⟩ := List.getElem?_eq_some_iff.1 held
  exact ⟨_, List.getElem?_set_self hlt, hcomes.knows_of_done hoffers done⟩

/-- A handle knows the capacity as long as others only read the schema. -/
theorem KnowsAt.perform (known : shared.KnowsAt place) (h : shared.Of name)
    {turn : Nat × CapacityCall} (alone : turn.1 = place ∨ turn.2 = .refresh) :
    (shared.perform turn).KnowsAt place := by
  obtain ⟨other, call⟩ := turn
  obtain ⟨table, held, hknows⟩ := known
  by_cases hown : other = place
  · subst hown
    obtain ⟨-, -, -, hcomes⟩ := h.outcome_spec held call
    rw [perform_of_held held]
    obtain ⟨hlt, -⟩ := List.getElem?_eq_some_iff.1 held
    exact ⟨_, List.getElem?_set_self hlt, hcomes.knows_of_knows hknows⟩
  · obtain rfl : call = .refresh := alone.resolve_left hown
    cases hother : shared.handles[other]? with
    | none =>
      unfold SharedTable.perform
      rw [hother]
      exact ⟨table, held, hknows⟩
    | some reader =>
      have hstate : (shared.outcome reader .refresh).state = shared.store.described :=
        (Table.run_refresh reader shared.store).2
      rw [perform_of_held hother, hstate]
      exact ⟨table, (List.getElem?_set_ne hown).trans held, hknows.readable, hknows.offers⟩

theorem KnowsAt.after (known : shared.KnowsAt place) (h : shared.Of name)
    {turns : List (Nat × CapacityCall)}
    (alone : ∀ turn ∈ turns, turn.1 = place ∨ turn.2 = .refresh) :
    (shared.after turns).KnowsAt place := by
  unfold SharedTable.after
  induction turns generalizing shared with
  | nil => exact known
  | cons turn rest ih =>
    rw [List.forall_mem_cons] at alone
    exact ih (known.perform h alone.1) (h.perform turn) alone.2

/-! ## Changes of one capacity -/

/-- A call leaves a capacity at the store and at its handle, and counts one more decrease exactly
if it lowered either part. -/
def Settles (shared : SharedTable) (name : String) (table : Table) (call : CapacityCall)
    (wanted : Throughput) : Prop :=
  ∃ had decreases, shared.store.Offers name had decreases ∧
    let outcome := shared.outcome table call
    let decreasesNow :=
      decreases + if wanted.read < had.read ∨ wanted.write < had.write then 1 else 0
    outcome.state.Offers name wanted decreasesNow ∧
      outcome.value.2.schema.throughput = wanted ∧
      outcome.value.2.schema.decreasesToday = decreasesNow

theorem settles_of_done (h : shared.Of name) (held : shared.handles[place]? = some table)
    {wanted : Throughput} (asks : call.wanted? table = some wanted)
    (done : (shared.outcome table call).value.1 = .ok ()) :
    shared.Settles name table call wanted := by
  obtain ⟨had, decreases, hoffers, hcomes⟩ := h.outcome_spec held call
  have hname := h.handles table (List.mem_of_getElem? held)
  have hsettled := hcomes.settled hoffers asks done
  rw [hname] at hoffers hsettled
  exact ⟨had, decreases, hoffers, hsettled⟩

/-- Whatever calls were made before, a change that succeeds sets what it was asked for, and sets the
other capacity to what the handle last read. So it keeps the other capacity as long as, since the
handle last succeeded, no other handle changed the capacity. -/
theorem change_sets_known_capacity {start : SharedTable} (shares : start.Of name)
    (turns : List (Nat × CapacityCall))
    (held : (start.after turns).handles[place]? = some table) :
    let shared := start.after turns
    (∀ read, (shared.outcome table (.setRead read)).value.1 = .ok () →
      shared.Settles name table (.setRead read) ⟨read, table.schema.throughput.write⟩) ∧
    (∀ write, (shared.outcome table (.setWrite write)).value.1 = .ok () →
      shared.Settles name table (.setWrite write) ⟨table.schema.throughput.read, write⟩) ∧
    (∀ throughput, (shared.outcome table (.set throughput)).value.1 = .ok () →
      shared.Settles name table (.set throughput) throughput) ∧
    ∀ first between, (shared.outcome table first).value.1 = .ok () →
      (∀ turn ∈ between, turn.1 = place ∨ turn.2 = .refresh) →
      let later := (shared.perform (place, first)).after between
      ∃ current had decreases, later.handles[place]? = some current ∧
        later.store.Offers name had decreases ∧
        (∀ read, (later.outcome current (.setRead read)).value.1 = .ok () →
          later.Settles name current (.setRead read) { had with read }) ∧
        (∀ write, (later.outcome current (.setWrite write)).value.1 = .ok () →
          later.Settles name current (.setWrite write) { had with write }) := by
  have h := shares.after turns
  refine ⟨fun _ done => settles_of_done h held rfl done,
    fun _ done => settles_of_done h held rfl done,
    fun _ done => settles_of_done h held rfl done, ?_⟩
  intro first between done alone
  have hnext := h.perform (place, first)
  have hlater := hnext.after between
  obtain ⟨current, hcurrent, hknows⟩ := (knowsAt_of_done h held done).after hnext alone
  obtain ⟨decreases, hoffers⟩ := hknows.offers
  rw [hlater.handles current (List.mem_of_getElem? hcurrent)] at hoffers
  exact ⟨current, current.schema.throughput, decreases, hcurrent, hoffers,
    fun _ done => settles_of_done hlater hcurrent rfl done,
    fun _ done => settles_of_done hlater hcurrent rfl done⟩

def pair : SharedTable where
  handles := [Table.peopleTable, Table.peopleTable]
  store := ({} : Store.State).setTable "dev_people"
    (Store.State.created (Table.people.toCreateRequest "dev_"))

theorem of_pair : pair.Of "dev_people" where
  handles := by
    simp only [pair, List.forall_mem_cons, List.not_mem_nil, false_implies, implies_true, and_true]
    exact ⟨rfl, rfl⟩
  store := ⟨⟨1, 1⟩, 0, _, rfl, rfl, rfl⟩

theorem change_sets_known_capacity_pair :
    ∃ table, (pair.after [(1, .setWrite 5)]).handles[0]? = some table ∧
      ((pair.after [(1, .setWrite 5)]).outcome table (.setRead 3)).value.1 = .ok () ∧
      (pair.after [(1, .setWrite 5)]).Settles "dev_people" table (.setRead 3) ⟨3, 1⟩ := by
  have held : (pair.after [(1, .setWrite 5)]).handles[0]? = some Table.peopleTable := rfl
  exact ⟨_, held, rfl, (change_sets_known_capacity of_pair [(1, .setWrite 5)] held).1 3 rfl⟩

/-- One handle raises the write capacity to five; when the other then sets the read capacity, the
write capacity is one again, and a decrease is counted. -/
theorem setRead_sets_write_back :
    ∃ table, (pair.after [(1, .setWrite 5)]).handles[0]? = some table ∧
      ((pair.after [(1, .setWrite 5)]).outcome table (.setRead 3)).value.1 = .ok () ∧
      (pair.after [(1, .setWrite 5)]).store.Offers "dev_people" ⟨1, 5⟩ 0 ∧
      ((pair.after [(1, .setWrite 5)]).outcome table (.setRead 3)).state.Offers
        "dev_people" ⟨3, 1⟩ 1 :=
  ⟨Table.peopleTable, rfl, rfl, ⟨_, rfl, rfl, rfl⟩, ⟨_, rfl, rfl, rfl⟩⟩

end SharedTable

end AttributeStore
