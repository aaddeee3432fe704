import AttributeStore.Proofs.Registry.Service
import AttributeStore.Proofs.Schema.Told

/-!
# Coherent registries

A service is coherent if every kept handle stands under the full name of its own table, if the store
has each table whose handle is kept, and if every stored table was created from a built schema.
Each request keeps that, as long as the schemas of new tables are built; and while a table is not
deleted, its handle stays the same one.
-/

namespace AttributeStore

namespace Store

/-- A table that was created from a built schema under a name. Its capacity, its status and its
items may be others since. -/
def StoredTable.CreatedAs (stored : StoredTable) (name : String) : Prop :=
  ∃ (schema : TableSchema) (namePrefix : String) (throughput : Option Wire.ThroughputDescription)
      (status : Option String),
    schema.Built ∧ schema.fullName namePrefix = name ∧
      stored.description =
        { describeCreated (schema.toCreateRequest namePrefix) with throughput, status }

/-- A store all of whose tables were created from built schemas. -/
def State.HoldsCreated (state : State) : Prop :=
  ∀ name stored, state.tables.get? name = some stored → stored.CreatedAs name

namespace State

variable {state : State} {name : String}

theorem createdAs_created {schema : TableSchema} (built : schema.Built) (namePrefix : String) :
    (created (schema.toCreateRequest namePrefix)).CreatedAs (schema.fullName namePrefix) :=
  ⟨schema, namePrefix, _, _, built, rfl, rfl⟩

theorem HoldsCreated.setTable (h : state.HoldsCreated) {stored : StoredTable}
    (hs : stored.CreatedAs name) : (state.setTable name stored).HoldsCreated := by
  intro key held hheld
  rw [get?_setTable] at hheld
  split at hheld
  · rename_i hkey
    obtain rfl := Option.some.inj hheld
    exact hkey ▸ hs
  · exact h key held hheld

theorem contains_setTable_self (state : State) (name : String) (stored : StoredTable) :
    (state.setTable name stored).tables.contains name = true :=
  contains_iff.2 ⟨stored, get?_setTable_self state name stored⟩

theorem contains_setTable {key : String} (h : state.tables.contains key = true) (name : String)
    (stored : StoredTable) : (state.setTable name stored).tables.contains key = true := by
  obtain ⟨held, hheld⟩ := contains_iff.1 h
  rw [contains_iff, get?_setTable]
  split
  · exact ⟨stored, rfl⟩
  · exact ⟨held, hheld⟩

theorem HoldsCreated.exists_told (h : state.HoldsCreated) {namePrefix : String}
    (hc : state.tables.contains (namePrefix ++ name) = true) :
    ∃ schema, state.toldSchema namePrefix (namePrefix ++ name) = .ok schema ∧
      schema.name = name := by
  obtain ⟨stored, hstored⟩ := contains_iff.1 hc
  obtain ⟨asked, creator, throughput, status, built, hname, hdescription⟩ := h _ _ hstored
  obtain ⟨read, hread, hreadName⟩ := built.exists_read creator namePrefix throughput status
    (some stored.items.length)
  refine ⟨read, toldSchema_eq_ok_iff.2 ⟨stored, hstored, ?_⟩, ?_⟩
  · unfold StoredTable.told
    rw [hdescription]
    exact hread
  · rw [hreadName, hname, TableSchema.shortName_append]

end State

end Store

def Registry.Request.Built : Registry.Request → Prop
  | .create schema => schema.Built
  | .lookup _ | .delete _ => True

def Registry.Request.asked? : Registry.Request → Option String
  | .create schema => some schema.name
  | .lookup name => some name
  | .delete _ => none

namespace Service

open Registry (Request)

variable {service next : Service} {request : Request} {answer : Except Error (Option Handle)}

/-! ## Coherence -/

/-- Every kept handle stands under the full name of its table, which the store has; and the store
has only tables of built schemas. -/
structure Coherent (service : Service) : Prop where
  filed : service.Filed
  live : ∀ fullName, service.registry.cached.contains fullName = true →
    service.store.tables.contains fullName = true
  created : service.store.HoldsCreated

namespace Coherent

theorem file (h : service.Coherent) {store : Store.State} (created : store.HoldsCreated)
    (grown : ∀ name, service.store.tables.contains name = true → store.tables.contains name = true)
    {table : Table} (stored : store.tables.contains table.fullName = true) :
    (service.file table store).2.Coherent where
  filed := h.filed.file table store
  live fullName hkept := by
    rw [store_file]
    obtain ⟨handle, hhandle⟩ := (Named.contains_iff _ _).1 hkept
    rw [get?_file] at hhandle
    split at hhandle
    · rename_i hname
      exact hname ▸ stored
    · exact grown _ (h.live fullName ((Named.contains_iff _ _).2 ⟨handle, hhandle⟩))
  created := by
    rw [store_file]
    exact created

theorem without (h : service.Coherent) (gone : String) : (service.without gone).Coherent where
  filed := h.filed.without gone
  live fullName hkept := by
    unfold Named.contains Service.without at hkept ⊢
    rw [Named.get?_erase] at hkept ⊢
    split at hkept
    · cases hkept
    · rename_i hne
      rw [if_neg hne]
      exact h.live fullName hkept
  created name stored hstored := by
    refine h.created name stored ?_
    change (service.store.tables.erase gone).get? name = some stored at hstored
    rw [Named.get?_erase] at hstored
    split at hstored
    · cases hstored
    · exact hstored

theorem withCreated (h : service.Coherent) {asked : TableSchema} (built : asked.Built) :
    (service.withCreated asked).Coherent where
  filed := h.filed
  live fullName hkept := Store.State.contains_setTable (h.live fullName hkept) _ _
  created := h.created.setTable (Store.State.createdAs_created built _)

theorem name_told (h : service.Coherent) {name : String} {schema : TableSchema}
    (told : service.store.toldSchema service.registry.namePrefix (service.registry.fullName name) =
      .ok schema) :
    service.store.tables.contains (service.registry.fullName name) = true ∧ schema.name = name := by
  obtain ⟨stored, hstored, -⟩ := Store.State.toldSchema_eq_ok_iff.1 told
  have hc := Store.State.contains_iff.2 ⟨stored, hstored⟩
  obtain ⟨same, hsame, hname⟩ := h.created.exists_told hc
  obtain rfl := Except.ok.inj (told.symm.trans hsame)
  exact ⟨hc, hname⟩

/-- Every request keeps coherence. -/
theorem comes (h : service.Coherent) (built : request.Built)
    (c : Comes service request answer next) :
    next.Coherent := by
  cases c with
  | kept | refused | missing => exact h
  | untold => exact ⟨h.filed, h.live, h.created⟩
  | opened miss told =>
    obtain ⟨hc, hname⟩ := h.name_told told
    have hcreated : service.store.described.HoldsCreated := h.created
    refine h.file hcreated (fun _ held => held) ?_
    unfold Table.fullName TableSchema.fullName
    rw [hname]
    exact hc
  | unreadable => exact h.withCreated built
  | created fresh read =>
    refine h.file (h.withCreated built).created
      (fun _ held => Store.State.contains_setTable held _ _) ?_
    unfold Table.fullName TableSchema.fullName
    rw [TableSchema.name_of_created read]
    exact Store.State.contains_setTable_self _ _ _
  | deleted => exact h.without _

/-- A lookup gives a handle exactly for the tables that the store has. -/
theorem exists_handle_iff (h : service.Coherent) {name : String}
    (c : Comes service (.lookup name) answer next) :
    (∃ handle, answer = .ok (some handle)) ↔
      service.store.tables.contains (service.registry.fullName name) = true := by
  cases c with
  | @kept _ handle hit =>
    have hc := h.live _ ((Named.contains_iff _ _).2 ⟨handle, hit⟩)
    exact ⟨fun _ => hc, fun _ => ⟨handle, rfl⟩⟩
  | untold miss told =>
    constructor
    · rintro ⟨handle, hanswer⟩
      cases hanswer
    · intro hc
      obtain ⟨schema, hschema, -⟩ := h.created.exists_told hc
      cases told.symm.trans hschema
  | opened miss told => exact ⟨fun _ => (h.name_told told).1, fun _ => ⟨_, rfl⟩⟩

theorem kept_of_ok (h : service.Coherent) (built : request.Built) {handle : Handle}
    (c : Comes service request (.ok (some handle)) next) {name : String}
    (asked : request.asked? = some name) : next.kept? name = some handle := by
  cases c with
  | kept hit => exact Option.some.inj asked ▸ hit
  | opened miss told =>
    obtain rfl := Option.some.inj asked
    unfold kept?
    rw [get?_file, if_pos]
    unfold Table.fullName TableSchema.fullName Registry.fullName
    rw [(h.name_told told).2, namePrefix_file]
  | created fresh read =>
    obtain rfl := Option.some.inj asked
    unfold kept?
    rw [get?_file, if_pos]
    unfold Table.fullName TableSchema.fullName Registry.fullName
    rw [TableSchema.name_of_created read, namePrefix_file]

end Coherent

end Service

end AttributeStore
