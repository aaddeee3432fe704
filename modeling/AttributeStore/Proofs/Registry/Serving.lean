import AttributeStore.Proofs.Registry.Coherent
import AttributeStore.Proofs.Table.Create

/-!
# Registries serve live tables

A fresh registry over a store of tables from built schemas, with no one else at the store, never
gives out the handle of a table that is gone or of another table, and it describes no table twice
before the table is deleted.
-/

namespace AttributeStore

open Registry (Request)

def Call.describes (fullName : String) : Call → Bool
  | ⟨.describeTable, request⟩ => request.tableName == some fullName
  | _ => false

namespace Service

/-- A service whose registry keeps no handles yet. -/
def fresh (namePrefix : String) (handles : Handles) (store : Store.State) : Service :=
  ⟨{ namePrefix }, handles, store⟩

/-- How often a request makes the store tell of a table that it has. -/
def tellings (service : Service) (fullName : String) (request : Request) : Nat :=
  if service.store.tables.contains fullName then
    (service.calls request).countP (·.describes fullName)
  else 0

def tellingsDuring (service : Service) (fullName : String) : List Request → Nat
  | [] => 0
  | request :: rest =>
    service.tellings fullName request + (service.perform request).tellingsDuring fullName rest

variable {service : Service} {requests : List Request}

/-! ## Runs of requests -/

theorem coherent_fresh (namePrefix : String) (handles : Handles) {store : Store.State}
    (created : store.HoldsCreated) : (fresh namePrefix handles store).Coherent where
  filed _ _ hkept := nomatch hkept
  live _ hkept := nomatch hkept
  created := created

theorem Coherent.perform (h : service.Coherent) {request : Request} (built : request.Built) :
    (service.perform request).Coherent :=
  h.comes built (service.perform_spec request).1

theorem Coherent.after (h : service.Coherent) (built : ∀ request ∈ requests, request.Built) :
    (service.after requests).Coherent := by
  unfold Service.after
  induction requests generalizing service with
  | nil => exact h
  | cons request rest ih =>
    rw [List.forall_mem_cons] at built
    exact ih (h.perform built.1) built.2

theorem namePrefix_perform (service : Service) (request : Request) :
    (service.perform request).registry.namePrefix = service.registry.namePrefix :=
  (service.perform_spec request).1.namePrefix_eq

theorem namePrefix_after (service : Service) (requests : List Request) :
    (service.after requests).registry.namePrefix = service.registry.namePrefix := by
  unfold Service.after
  induction requests generalizing service with
  | nil => rfl
  | cons request rest ih =>
    exact (ih (service.perform request)).trans (service.namePrefix_perform request)

/-- A handle stays kept through requests that do not delete its table. -/
theorem kept_after {name : String} {handle : Handle} (hkept : service.kept? name = some handle)
    (spared : .delete name ∉ requests) : (service.after requests).kept? name = some handle := by
  unfold Service.after
  induction requests generalizing service with
  | nil => exact hkept
  | cons request rest ih =>
    rw [List.mem_cons, not_or] at spared
    exact ih ((service.perform_spec request).1.kept_of_kept (Ne.symm spared.1) hkept) spared.2

theorem answer_of_kept {name : String} {handle : Handle}
    (hkept : service.kept? name = some handle) :
    service.answer (.lookup name) = .ok (some handle) := by
  unfold answer outcome program
  simp only [service.table_of_kept hkept, Program.run_bind, Program.run_pure]
  rfl

/-! ## Descriptions -/

theorem lookup_of_describes {request : Request} {call : Call} (made : call ∈ service.calls request)
    (describes : call.1 = .describeTable) :
    ∃ name, request = .lookup name ∧ service.kept? name = none ∧
      call = Store.describeCall (service.registry.fullName name) := by
  rw [(service.perform_spec request).2] at made
  unfold callsFor at made
  cases request with
  | create schema =>
    obtain rfl := List.mem_singleton.1 made
    cases describes
  | lookup name =>
    dsimp only at made
    cases hkept : service.kept? name with
    | some handle =>
      rw [hkept] at made
      cases made
    | none =>
      rw [hkept] at made
      exact ⟨name, rfl, hkept, List.mem_singleton.1 made⟩
  | delete name =>
    obtain rfl := List.mem_singleton.1 made
    cases describes

theorem tellings_cases (service : Service) (name : String) (request : Request) :
    service.tellings (service.registry.fullName name) request = 0 ∨
      request = .lookup name ∧ service.kept? name = none ∧
        service.store.tables.contains (service.registry.fullName name) = true ∧
        service.tellings (service.registry.fullName name) request = 1 := by
  unfold tellings
  split
  · rename_i hc
    rw [(service.perform_spec request).2]
    unfold callsFor
    cases request with
    | create schema => exact .inl rfl
    | delete other => exact .inl rfl
    | lookup other =>
      cases hkept : service.kept? other with
      | some handle => exact .inl (by simp only [hkept, List.countP_nil])
      | none =>
        simp only [hkept]
        by_cases hname : name = other
        · subst hname
          exact .inr ⟨rfl, hkept, hc, by simp [Call.describes, Store.describeCall]⟩
        · have hfull : service.registry.fullName other ≠ service.registry.fullName name :=
            fun heq => hname ((String.append_right_inj _).1 heq).symm
          exact .inl (by simp [Call.describes, Store.describeCall, hfull])
  · exact .inl rfl

theorem tellingsDuring_of_kept {name : String} {handle : Handle}
    (hkept : service.kept? name = some handle) (spared : .delete name ∉ requests) :
    service.tellingsDuring (service.registry.fullName name) requests = 0 := by
  induction requests generalizing service with
  | nil => rfl
  | cons request rest ih =>
    rw [List.mem_cons, not_or] at spared
    have hnext := (service.perform_spec request).1.kept_of_kept (Ne.symm spared.1) hkept
    have hrest := ih hnext spared.2
    unfold Registry.fullName at hrest
    rw [namePrefix_perform] at hrest
    have hhead : service.tellings (service.registry.fullName name) request = 0 := by
      rcases service.tellings_cases name request with h | ⟨-, hmiss, -⟩
      · exact h
      · rw [hkept] at hmiss
        cases hmiss
    rw [tellingsDuring, hhead, Nat.zero_add]
    exact hrest

/-- Until a table is deleted it is described at most once. -/
theorem Coherent.tellingsDuring_le_one (h : service.Coherent)
    (built : ∀ request ∈ requests, request.Built) {name : String}
    (spared : .delete name ∉ requests) :
    service.tellingsDuring (service.registry.fullName name) requests ≤ 1 := by
  induction requests generalizing service with
  | nil => exact Nat.zero_le 1
  | cons request rest ih =>
    rw [List.forall_mem_cons] at built
    rw [List.mem_cons, not_or] at spared
    have hfull : (service.perform request).registry.fullName name =
        service.registry.fullName name := by
      unfold Registry.fullName
      rw [namePrefix_perform]
    rw [tellingsDuring, ← hfull]
    rcases service.tellings_cases name request with hnone | ⟨rfl, -, hc, hone⟩
    · rw [hfull, hnone, Nat.zero_add, ← hfull]
      exact ih (h.perform built.1) built.2 spared.2
    · -- The one description leaves the handle kept, after which there is no other.
      have hcomes := (service.perform_spec (.lookup name)).1
      obtain ⟨handle, hanswer⟩ := (h.exists_handle_iff hcomes).2 hc
      rw [hanswer] at hcomes
      have hrest := tellingsDuring_of_kept (h.kept_of_ok built.1 hcomes rfl) spared.2
      refine Nat.le_of_eq ?_
      rw [hrest, hfull, hone]

/-! ## What is served -/

/-- What a registry owes to those who ask it. -/
structure Serves (service : Service) : Prop where
  /-- A kept handle stands under the full name of its own table. -/
  filed : ∀ fullName handle, service.registry.cached.get? fullName = some handle →
    ∃ table, service.handles.get? handle = some table ∧ table.fullName = fullName
  /-- The store has every table whose handle is kept. -/
  live : ∀ fullName, service.registry.cached.contains fullName = true →
    service.store.tables.contains fullName = true
  /-- A lookup succeeds exactly for the tables that the store has. -/
  found : ∀ name, (∃ handle, service.answer (.lookup name) = .ok (some handle)) ↔
    service.store.tables.contains (service.registry.fullName name) = true
  /-- A handle that is given out is one of the table that was asked for, and the store has it. -/
  given : ∀ request name handle, request.Built → request.asked? = some name →
    service.answer request = .ok (some handle) →
      (∃ table, (service.perform request).handles.get? handle = some table ∧
        table.fullName = service.registry.fullName name) ∧
      (service.perform request).store.tables.contains (service.registry.fullName name) = true
  /-- From its creation or first lookup to its deletion, a table has one handle. -/
  lasting : ∀ request name handle between, request.Built → request.asked? = some name →
    service.answer request = .ok (some handle) → .delete name ∉ between →
      ((service.perform request).after between).answer (.lookup name) = .ok (some handle)
  /-- Only a lookup that finds no handle kept has a table described. -/
  described : ∀ request, ∀ call ∈ service.calls request, call.1 = .describeTable →
    ∃ name, request = .lookup name ∧ service.kept? name = none ∧
      call = Store.describeCall (service.registry.fullName name)
  /-- Until its deletion, a table is described with success at most once. -/
  once : ∀ name between, (∀ request ∈ between, request.Built) → .delete name ∉ between →
    service.tellingsDuring (service.registry.fullName name) between ≤ 1

/-- A registry serves live tables, after whatever requests were made of it: it gives out no handle
of a table that is gone or of another table, one handle for each table as long as it lasts, and
describes a table only for want of a handle. -/
theorem registry_serves_live_tables (namePrefix : String) (handles : Handles)
    {store : Store.State} (created : store.HoldsCreated)
    (built : ∀ request ∈ requests, request.Built) :
    let service := (fresh namePrefix handles store).after requests
    service.registry.namePrefix = namePrefix ∧ service.Serves := by
  have h : ((fresh namePrefix handles store).after requests).Coherent :=
    (coherent_fresh namePrefix handles created).after built
  refine ⟨namePrefix_after _ requests, ?_⟩
  generalize (fresh namePrefix handles store).after requests = service at h
  have hgiven : ∀ {request name handle}, request.Built → request.asked? = some name →
      service.answer request = .ok (some handle) →
      (service.perform request).kept? name = some handle := by
    intro request name handle hbuilt hasked hanswer
    have hcomes := (service.perform_spec request).1
    rw [hanswer] at hcomes
    exact h.kept_of_ok hbuilt hcomes hasked
  exact {
    filed := h.filed
    live := h.live
    found := fun name => h.exists_handle_iff (service.perform_spec (.lookup name)).1
    given := by
      intro request name handle hbuilt hasked hanswer
      have hnext := h.perform hbuilt
      have hkept := hgiven hbuilt hasked hanswer
      unfold kept? Registry.fullName at hkept
      rw [namePrefix_perform] at hkept
      exact ⟨hnext.filed _ _ hkept, hnext.live _ ((Named.contains_iff _ _).2 ⟨_, hkept⟩)⟩
    lasting := by
      intro request name handle between hbuilt hasked hanswer hspared
      exact answer_of_kept (kept_after (hgiven hbuilt hasked hanswer) hspared)
    described := fun _ _ made hdescribes => lookup_of_describes made hdescribes
    once := fun _ _ hbuilt hspared => h.tellingsDuring_le_one hbuilt hspared }

def eventsStore : Store.State :=
  ({} : Store.State).setTable "dev_events"
    (Store.State.created (TableSchema.events.toCreateRequest "dev_"))

def eventsRequests : List Request :=
  [.lookup "events", .create Table.people, .delete "events"]

theorem holdsCreated_eventsStore : eventsStore.HoldsCreated := by
  have hempty : ({} : Store.State).HoldsCreated := fun _ _ h => nomatch h
  exact hempty.setTable (Store.State.createdAs_created TableSchema.built_events "dev_")

theorem built_eventsRequests : ∀ request ∈ eventsRequests, request.Built := by
  simp only [eventsRequests, List.forall_mem_cons, List.not_mem_nil, false_implies, implies_true,
    and_true]
  exact ⟨trivial, TableSchema.Built.withHashKey "people" ⟨"id", .string⟩, trivial⟩

theorem registry_serves_eventsStore :
    eventsStore.HoldsCreated ∧ (∀ request ∈ eventsRequests, request.Built) ∧
      (let service := (fresh "dev_" {} eventsStore).after eventsRequests
       service.registry.namePrefix = "dev_" ∧ service.Serves) :=
  ⟨holdsCreated_eventsStore, built_eventsRequests,
    registry_serves_live_tables "dev_" {} holdsCreated_eventsStore built_eventsRequests⟩

end Service

end AttributeStore
