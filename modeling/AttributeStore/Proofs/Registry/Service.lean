import AttributeStore.Proofs.Table.Describe
import AttributeStore.Registry

/-!
# Requests to a registry

A service is a registry with the handles that were given out and the store behind them. `Comes`
lists all that a request to it can come to over the store in memory, each with what it takes;
`callsFor` says which calls it makes. What runs of requests keep is shown by the cases of `Comes`.
-/

namespace AttributeStore

open Store (backend)
open Wire (Operation)

/-- Something to ask of a registry. -/
inductive Registry.Request
  | create (schema : TableSchema)
  | lookup (name : String)
  | delete (name : String)

/-- A registry, the handles that were given out and the store behind them. -/
structure Service where
  registry : Registry
  handles : Handles
  store : Store.State

namespace Service

open Registry (Request)

/-- What is done about a request. It ends with the handle asked for, if any, and with the registry
and the handles after it. -/
def program (service : Service) :
    Request → Program (Except Error (Option Handle) × Registry × Handles)
  | .create schema => do
    let (answer, after) ← service.registry.createTable service.handles schema
    return (answer.map some, after)
  | .lookup name => do
    let (answer, after) ← service.registry.table service.handles name
    return (answer.map some, after)
  | .delete name => do
    let (answer, registry) ← service.registry.deleteTable name
    return (answer.map fun () => none, registry, service.handles)

def outcome (service : Service) (request : Request) :
    Run Store.State (Except Error (Option Handle) × Registry × Handles) :=
  (service.program request).run backend service.store

/-- The answer to a request: the handle that was asked for, none after a deletion. -/
def answer (service : Service) (request : Request) : Except Error (Option Handle) :=
  (service.outcome request).value.1

def calls (service : Service) (request : Request) : List Call :=
  callsOf (service.outcome request).trace

def perform (service : Service) (request : Request) : Service :=
  let outcome := service.outcome request
  ⟨outcome.value.2.1, outcome.value.2.2, outcome.state⟩

def after (service : Service) (requests : List Request) : Service :=
  requests.foldl perform service

/-- The place of the handle that is kept for a table. -/
def kept? (service : Service) (name : String) : Option Handle :=
  service.registry.cached.get? (service.registry.fullName name)

/-- The handle of a table that came from the store, and the service that keeps it. -/
def file (service : Service) (table : Table) (store : Store.State) : Handle × Service :=
  let (handle, registry, handles) := service.registry.cache service.handles table
  (handle, ⟨registry, handles, store⟩)

def withCreated (service : Service) (asked : TableSchema) : Service where
  registry := service.registry
  handles := service.handles
  store := service.store.setTable (asked.fullName service.registry.namePrefix)
    (Store.State.created (asked.toCreateRequest service.registry.namePrefix))

def without (service : Service) (fullName : String) : Service :=
  { service with
    registry := { service.registry with cached := service.registry.cached.erase fullName }
    store := { service.store with tables := service.store.tables.erase fullName } }

/-- What a request can come to: its answer and the service after it. -/
inductive Comes (service : Service) : Request → Except Error (Option Handle) → Service → Prop
  | kept {name : String} {handle : Handle} (hit : service.kept? name = some handle) :
    Comes service (.lookup name) (.ok (some handle)) service
  | untold {name : String} {cause : Error} (miss : service.kept? name = none)
    (told : service.store.toldSchema service.registry.namePrefix (service.registry.fullName name) =
      .error cause) :
    Comes service (.lookup name) (.error cause) { service with store := service.store.described }
  | opened {name : String} {schema : TableSchema} (miss : service.kept? name = none)
    (told : service.store.toldSchema service.registry.namePrefix (service.registry.fullName name) =
      .ok schema) :
    Comes service (.lookup name)
      (.ok (some (service.file ⟨service.registry.namePrefix, schema, [], []⟩
        service.store.described).1))
      (service.file ⟨service.registry.namePrefix, schema, [], []⟩ service.store.described).2
  | refused {asked : TableSchema}
    (taken : service.store.tables.contains (asked.fullName service.registry.namePrefix) = true) :
    Comes service (.create asked)
      (.error (.wire Operation.createTable.name (asked.fullName service.registry.namePrefix)
        (Store.tableExists (asked.fullName service.registry.namePrefix)))) service
  | unreadable {asked : TableSchema} {cause : SchemaError}
    (fresh : service.store.tables.contains (asked.fullName service.registry.namePrefix) = false)
    (read : TableSchema.ofDescription
        (Store.describeCreated (asked.toCreateRequest service.registry.namePrefix))
        service.registry.namePrefix = .error cause) :
    Comes service (.create asked) (.error (.schema cause)) (service.withCreated asked)
  | created {asked schema : TableSchema}
    (fresh : service.store.tables.contains (asked.fullName service.registry.namePrefix) = false)
    (read : TableSchema.ofDescription
        (Store.describeCreated (asked.toCreateRequest service.registry.namePrefix))
        service.registry.namePrefix = .ok schema) :
    Comes service (.create asked)
      (.ok (some (service.file ⟨service.registry.namePrefix, schema, [], []⟩
        (service.withCreated asked).store).1))
      (service.file ⟨service.registry.namePrefix, schema, [], []⟩
        (service.withCreated asked).store).2
  | missing {name : String} {cause : BackendError}
    (lacks : service.store.table (service.registry.fullName name) = .error cause) :
    Comes service (.delete name)
      (.error (.wire Operation.deleteTable.name (service.registry.fullName name) cause)) service
  | deleted {name : String}
    (holds : service.store.tables.contains (service.registry.fullName name) = true) :
    Comes service (.delete name) (.ok none) (service.without (service.registry.fullName name))

/-- The calls that a request makes: a lookup describes the table unless its handle is kept. -/
def callsFor (service : Service) : Request → List Call
  | .create schema => [Store.createCall schema service.registry.namePrefix]
  | .lookup name =>
    match service.kept? name with
    | some _ => []
    | none => [Store.describeCall (service.registry.fullName name)]
  | .delete name => [Store.deleteCall (service.registry.fullName name)]

/-! ## What comes of each request -/

section Outcomes

variable (service : Service)

theorem create_spec (asked : TableSchema) :
    Comes service (.create asked) (service.answer (.create asked))
      (service.perform (.create asked)) ∧
      service.calls (.create asked) = service.callsFor (.create asked) := by
  obtain ⟨hcalls, hcases⟩ := Table.run_create service.registry.namePrefix asked service.store
  unfold answer perform calls outcome program Registry.createTable
  simp only [Program.run_bind, Program.run_pure, List.append_nil]
  refine ⟨?_, hcalls⟩
  split at hcases
  · rename_i htaken
    obtain ⟨hvalue, hstate⟩ := hcases
    rw [hvalue, hstate]
    exact .refused htaken
  · rename_i hfresh
    obtain ⟨hvalue, hstate⟩ := hcases
    rw [hvalue, hstate]
    have hfresh := Bool.eq_false_iff.2 hfresh
    cases hread : TableSchema.ofDescription
        (Store.describeCreated (asked.toCreateRequest service.registry.namePrefix))
        service.registry.namePrefix with
    | error cause => exact .unreadable hfresh hread
    | ok schema => exact .created hfresh hread

theorem table_of_kept {name : String} {handle : Handle}
    (h : service.kept? name = some handle) :
    service.registry.table service.handles name =
      pure (.ok handle, service.registry, service.handles) := by
  unfold kept? at h
  unfold Registry.table
  rw [h]

theorem table_of_not_kept {name : String} (h : service.kept? name = none) :
    service.registry.table service.handles name =
      (Table.openTable service.registry.namePrefix name >>= fun table =>
        pure (service.registry.cacheResult service.handles table)) := by
  unfold kept? at h
  unfold Registry.table
  rw [h]

theorem lookup_spec (name : String) :
    Comes service (.lookup name) (service.answer (.lookup name)) (service.perform (.lookup name)) ∧
      service.calls (.lookup name) = service.callsFor (.lookup name) := by
  unfold answer perform calls outcome program callsFor
  cases hkept : service.kept? name with
  | some handle =>
    simp only [hkept, service.table_of_kept hkept, Program.run_bind, Program.run_pure]
    exact ⟨.kept hkept, rfl⟩
  | none =>
    obtain ⟨hvalue, hstate, hcalls⟩ :=
      Table.run_openTable service.registry.namePrefix name service.store
    simp only [hkept, service.table_of_not_kept hkept, Program.run_bind, Program.run_pure,
      List.append_nil, hvalue, hstate, hcalls]
    refine ⟨?_, rfl⟩
    cases htold : service.store.toldSchema service.registry.namePrefix
        (service.registry.namePrefix ++ name) with
    | error cause => exact .untold hkept htold
    | ok schema => exact .opened hkept htold

theorem delete_spec (name : String) :
    Comes service (.delete name) (service.answer (.delete name)) (service.perform (.delete name)) ∧
      service.calls (.delete name) = service.callsFor (.delete name) := by
  unfold answer perform calls outcome program Registry.deleteTable
  simp only [Program.run_bind, Store.run_deleteTable, callOutcome, Store.State.deleteTable,
    Option.getD_some]
  cases htable : service.store.table (service.registry.fullName name) with
  | error cause => exact ⟨.missing htable, rfl⟩
  | ok stored => exact ⟨.deleted (Store.State.contains_of_table htable), rfl⟩

theorem perform_spec (request : Request) :
    Comes service request (service.answer request) (service.perform request) ∧
      service.calls request = service.callsFor request := by
  cases request with
  | create asked => exact service.create_spec asked
  | lookup name => exact service.lookup_spec name
  | delete name => exact service.delete_spec name

end Outcomes

/-! ## Filing handles -/

variable {service next : Service} {request : Request} {answer : Except Error (Option Handle)}

section File

variable (service) (table : Table) (store : Store.State)

theorem file_of_kept {handle : Handle}
    (h : service.registry.cached.get? table.fullName = some handle) :
    service.file table store = (handle, { service with store }) := by
  unfold file Registry.cache
  rw [h]

theorem file_of_not_kept (h : service.registry.cached.get? table.fullName = none) :
    service.file table store =
      (service.handles.tables.length, {
        registry := { service.registry with
          cached := service.registry.cached.insert table.fullName service.handles.tables.length }
        handles := ⟨service.handles.tables ++ [table]⟩
        store }) := by
  unfold file Registry.cache
  rw [h]
  rfl

end File

theorem namePrefix_file (table : Table) (store : Store.State) :
    (service.file table store).2.registry.namePrefix = service.registry.namePrefix := by
  cases h : service.registry.cached.get? table.fullName with
  | some handle => rw [service.file_of_kept table store h]
  | none => rw [service.file_of_not_kept table store h]

theorem store_file (table : Table) (store : Store.State) :
    (service.file table store).2.store = store := by
  cases h : service.registry.cached.get? table.fullName with
  | some handle => rw [service.file_of_kept table store h]
  | none => rw [service.file_of_not_kept table store h]

/-- A filed table is kept under its full name; nothing else is kept that was not before. -/
theorem get?_file (table : Table) (store : Store.State) (key : String) :
    (service.file table store).2.registry.cached.get? key =
      if table.fullName = key then some (service.file table store).1
      else service.registry.cached.get? key := by
  cases h : service.registry.cached.get? table.fullName with
  | some handle =>
    rw [service.file_of_kept table store h]
    split
    · rename_i hkey
      exact hkey ▸ h
    · rfl
  | none =>
    rw [service.file_of_not_kept table store h]
    exact Named.get?_insert _ _ _ _

theorem get?_handles_file {handle : Handle} {kept : Table}
    (h : service.handles.get? handle = some kept) (table : Table) (store : Store.State) :
    (service.file table store).2.handles.get? handle = some kept := by
  cases hk : service.registry.cached.get? table.fullName with
  | some other =>
    rw [service.file_of_kept table store hk]
    exact h
  | none =>
    rw [service.file_of_not_kept table store hk]
    obtain ⟨hlt, -⟩ := List.getElem?_eq_some_iff.1 h
    exact (List.getElem?_append_left hlt).trans h

/-- Every kept handle stands under the full name of its own table. -/
def Filed (service : Service) : Prop :=
  ∀ fullName handle, service.registry.cached.get? fullName = some handle →
    ∃ table, service.handles.get? handle = some table ∧ table.fullName = fullName

theorem Filed.file (h : service.Filed) (table : Table) (store : Store.State) :
    (service.file table store).2.Filed := by
  intro fullName handle hkept
  cases hk : service.registry.cached.get? table.fullName with
  | some other =>
    rw [service.file_of_kept table store hk] at hkept ⊢
    exact h fullName handle hkept
  | none =>
    rw [get?_file] at hkept
    split at hkept
    · rename_i hname
      rw [service.file_of_not_kept table store hk] at hkept ⊢
      obtain rfl := Option.some.inj hkept
      exact ⟨table, List.getElem?_concat_length, hname⟩
    · obtain ⟨kept, hheld, hname⟩ := h fullName handle hkept
      exact ⟨kept, get?_handles_file hheld table store, hname⟩

theorem Filed.without (h : service.Filed) (gone : String) : (service.without gone).Filed := by
  intro fullName handle hkept
  refine h fullName handle ?_
  change (service.registry.cached.erase gone).get? fullName = some handle at hkept
  rw [Named.get?_erase] at hkept
  split at hkept
  · cases hkept
  · exact hkept

/-! ## What requests leave as it is -/

theorem Comes.namePrefix_eq (c : Comes service request answer next) :
    next.registry.namePrefix = service.registry.namePrefix := by
  cases c with
  | kept | untold | refused | unreadable | missing | deleted => rfl
  | opened | created => exact namePrefix_file _ _

theorem Comes.kept_of_kept (c : Comes service request answer next) {name : String} {handle : Handle}
    (spared : request ≠ .delete name) (hkept : service.kept? name = some handle) :
    next.kept? name = some handle := by
  have hfile : ∀ table store, (service.file table store).2.kept? name = some handle := by
    intro table store
    unfold kept? Registry.fullName at hkept ⊢
    rw [get?_file, namePrefix_file]
    split
    · rename_i hname
      rw [← hname] at hkept
      rw [service.file_of_kept table store hkept]
    · exact hkept
  cases c with
  | kept | untold | refused | unreadable | missing => exact hkept
  | opened | created => exact hfile _ _
  | @deleted other =>
    change (service.registry.cached.erase (service.registry.fullName other)).get?
      (service.registry.fullName name) = some handle
    rw [Named.get?_erase, if_neg]
    · exact hkept
    · intro hname
      exact spared (congrArg Request.delete ((String.append_right_inj _).1 hname).symm)

theorem Comes.filed (c : Comes service request answer next) (h : service.Filed) : next.Filed := by
  cases c with
  | kept | untold | refused | unreadable | missing => exact h
  | opened | created => exact h.file _ _
  | deleted => exact h.without _

theorem Comes.get?_handles (c : Comes service request answer next) {handle : Handle} {table : Table}
    (h : service.handles.get? handle = some table) : next.handles.get? handle = some table := by
  cases c with
  | kept | untold | refused | unreadable | missing | deleted => exact h
  | opened | created => exact get?_handles_file h _ _

end Service

end AttributeStore
