import AttributeStore.Proofs.Registry.Service
import AttributeStore.Proofs.Schema.Creation

/-!
# Services that share a store

Services have a registry each and one store; a request is made of one of them. A handle that a
creation gives has the full name of the new table. It tells the schema of that table unless a
handle of the same name was kept already: then it is that older handle, even if the table it was
made for is gone because another service had it deleted.
-/

namespace AttributeStore

open Registry (Request)

/-- Registries over one store, and the handles that were given out. -/
structure Services where
  registries : List Registry
  handles : Handles
  store : Store.State

namespace Services

/-- Registries without handles, one behind each prefix. -/
def opened (namePrefixes : List String) (handles : Handles) (store : Store.State) : Services :=
  ⟨namePrefixes.map fun namePrefix => { namePrefix }, handles, store⟩

def service? (services : Services) (place : Nat) : Option Service :=
  services.registries[place]?.map fun registry => ⟨registry, services.handles, services.store⟩

def perform (services : Services) (turn : Nat × Request) : Services :=
  match services.service? turn.1 with
  | none => services
  | some service =>
    let next := service.perform turn.2
    ⟨services.registries.set turn.1 next.registry, next.handles, next.store⟩

def after (services : Services) (turns : List (Nat × Request)) : Services :=
  turns.foldl perform services

/-- The handles that the services keep stand under the full names of their tables. -/
def Filed (services : Services) : Prop :=
  ∀ place service, services.service? place = some service → service.Filed

theorem filed_opened (namePrefixes : List String) (handles : Handles) (store : Store.State) :
    (opened namePrefixes handles store).Filed := by
  intro place service hservice
  obtain ⟨registry, hregistry, rfl⟩ := Option.map_eq_some_iff.1 hservice
  obtain ⟨namePrefix, -, rfl⟩ := List.mem_map.1 (List.mem_of_getElem? hregistry)
  exact fun _ _ hkept => nomatch hkept

variable {services : Services}

theorem Filed.perform (h : services.Filed) (turn : Nat × Request) :
    (services.perform turn).Filed := by
  obtain ⟨place, request⟩ := turn
  unfold Services.perform
  cases hat : services.service? place with
  | none => exact h
  | some service =>
    have hcomes := (service.perform_spec request).1
    intro other found hfound
    obtain ⟨registry, hregistry, rfl⟩ := Option.map_eq_some_iff.1 hfound
    dsimp only at hregistry ⊢
    rcases List.mem_or_eq_of_mem_set (List.mem_of_getElem? hregistry) with hold | hnew
    · -- Another registry: its handles are among those that were given out before.
      obtain ⟨before, hbefore⟩ := List.getElem?_of_mem hold
      intro fullName handle hkept
      obtain ⟨table, hheld, hname⟩ :=
        h before ⟨registry, services.handles, services.store⟩ (Option.map_eq_some_iff.2
          ⟨registry, hbefore, rfl⟩) fullName handle hkept
      obtain ⟨own, -, rfl⟩ := Option.map_eq_some_iff.1 hat
      exact ⟨table, hcomes.get?_handles hheld, hname⟩
    · subst hnew
      exact hcomes.filed (h place service hat)

theorem Filed.after (h : services.Filed) (turns : List (Nat × Request)) :
    (services.after turns).Filed := by
  unfold Services.after
  induction turns generalizing services with
  | nil => exact h
  | cons turn rest ih => exact ih (h.perform turn)

end Services

namespace Service

variable {service : Service}

theorem toldSchema_withCreated (service : Service) {asked schema : TableSchema}
    (read : TableSchema.ofDescription
        (Store.describeCreated (asked.toCreateRequest service.registry.namePrefix))
        service.registry.namePrefix = .ok schema) :
    (service.withCreated asked).store.toldSchema service.registry.namePrefix
      (asked.fullName service.registry.namePrefix) = .ok schema :=
  Store.State.toldSchema_eq_ok_iff.2 ⟨_, Store.State.get?_setTable_self _ _ _, read⟩

theorem Filed.create (h : service.Filed) {asked : TableSchema} {handle : Handle}
    (given : service.answer (.create asked) = .ok (some handle)) :
    ∃ table told,
      (service.perform (.create asked)).handles.get? handle = some table ∧
      table.fullName = service.registry.fullName asked.name ∧
      (service.perform (.create asked)).store.toldSchema service.registry.namePrefix
        (service.registry.fullName asked.name) = .ok told ∧
      match service.kept? asked.name with
      | none => table.schema = told
      | some kept => handle = kept ∧ service.handles.get? kept = some table := by
  have hcomes := (service.create_spec asked).1
  rw [given] at hcomes
  generalize service.perform (.create asked) = next at hcomes ⊢
  cases hcomes with
  | @created _ schema fresh read =>
    set made : Table := ⟨service.registry.namePrefix, schema, [], []⟩ with hmade
    have hfull : made.fullName = service.registry.fullName asked.name := by
      rw [hmade, Table.fullName, TableSchema.fullName, TableSchema.name_of_created read]
      rfl
    have htold := service.toldSchema_withCreated read
    rw [store_file]
    unfold kept?
    cases hk : service.registry.cached.get? (service.registry.fullName asked.name) with
    | none =>
      rw [service.file_of_not_kept made _ (hfull ▸ hk)]
      exact ⟨made, schema, List.getElem?_concat_length, hfull, htold, rfl⟩
    | some kept =>
      obtain ⟨table, hheld, hname⟩ := h _ _ hk
      rw [service.file_of_kept made _ (hfull ▸ hk)]
      exact ⟨table, schema, hheld, hname, htold, rfl, hheld⟩

end Service

namespace Services

/-- A creation that succeeds gives a handle of the full name of the new table, of which the store
can tell. The handle tells the same schema if none of this name was kept; else it is the one that
was kept, as it was. -/
theorem createTable_gives_handle_of_name (namePrefixes : List String) (handles : Handles)
    (store : Store.State) (turns : List (Nat × Request)) {place : Nat} {service : Service}
    {asked : TableSchema} {handle : Handle}
    (found : ((opened namePrefixes handles store).after turns).service? place = some service)
    (given : service.answer (.create asked) = .ok (some handle)) :
    ∃ table told,
      (service.perform (.create asked)).handles.get? handle = some table ∧
      table.fullName = service.registry.fullName asked.name ∧
      (service.perform (.create asked)).store.toldSchema service.registry.namePrefix
        (service.registry.fullName asked.name) = .ok told ∧
      match service.kept? asked.name with
      | none => table.schema = told
      | some kept => handle = kept ∧ service.handles.get? kept = some table :=
  ((filed_opened namePrefixes handles store).after turns place service found).create given

def eventsById : TableSchema :=
  .withHashKey "events" ⟨"id", .number⟩

def eventsByUser : TableSchema :=
  .withHashKey "events" ⟨"user", .string⟩

/-- Two services behind one prefix, after the first created the events by number and the second
deleted them. -/
def deletedByOther : Services :=
  (opened ["dev_", "dev_"] {} {}).after [(0, .create eventsById), (1, .delete "events")]

theorem createTable_gives_handle_of_name_deletedByOther :
    ∃ service, deletedByOther.service? 0 = some service ∧
      service.answer (.create eventsByUser) = .ok (some 0) ∧
      ∃ table told,
        (service.perform (.create eventsByUser)).handles.get? 0 = some table ∧
        table.fullName = service.registry.fullName "events" ∧
        (service.perform (.create eventsByUser)).store.toldSchema service.registry.namePrefix
          (service.registry.fullName "events") = .ok told ∧
        match service.kept? "events" with
        | none => table.schema = told
        | some kept => (0 : Handle) = kept ∧ service.handles.get? kept = some table := by
  have hat : deletedByOther.service? 0 = some _ := rfl
  exact ⟨_, hat, rfl, createTable_gives_handle_of_name ["dev_", "dev_"] {} {}
    [(0, .create eventsById), (1, .delete "events")] hat rfl⟩

/-- The first service then creates the events by user, and gives the handle of the events by
number, which is gone from the store. -/
theorem createTable_gives_handle_of_deleted_table :
    ∃ service table told,
      deletedByOther.service? 0 = some service ∧
      service.answer (.create eventsByUser) = .ok (some 0) ∧
      (service.perform (.create eventsByUser)).handles.get? 0 = some table ∧
      (service.perform (.create eventsByUser)).store.toldSchema "dev_" "dev_events" = .ok told ∧
      table.schema.hashKey = ⟨"id", .number⟩ ∧ told.hashKey = ⟨"user", .string⟩ ∧
      table.schema ≠ told := by
  refine ⟨_, _, _, rfl, rfl, rfl, rfl, rfl, rfl, ?_⟩
  intro h
  exact absurd (congrArg (·.hashKey.name) h) (by decide)

end Services

end AttributeStore
