import AttributeStore.Proofs.Store.Projection
import AttributeStore.Proofs.Table.Keyed
import AttributeStore.Proofs.Table.Read
import AttributeStore.Proofs.Table.Wipe

/-!
# Scanning for keys

A sweep scans for the keys of its table alone. When the names of the key attributes can stand in
expressions the scan is sent, and each row of its page is the key of an item, cut to what the
schema declares. The store counts the scan and changes nothing else.
-/

namespace AttributeStore

open Store (StoredTable Page backend)

/-- The names of the key attributes can be written into expressions. -/
def TableSchema.NamedKeys (schema : TableSchema) : Prop :=
  ∀ definition ∈ schema.keyDefinitions, checkAttributeName definition.name = .ok ()

namespace Table

variable {table : Table} {state : Store.State} {stored : StoredTable}

def keyAttributes (table : Table) : List String :=
  table.schema.keyDefinitions.map (·.name)

def keyRendering (table : Table) : Rendering :=
  (table.sweepSelection none).assemble Fragment.empty Fragment.empty

theorem checked_keyAttributes (hn : table.schema.NamedKeys) :
    ∀ name ∈ table.keyAttributes, checkAttributeName name = .ok () := by
  intro name hname
  obtain ⟨definition, hd, rfl⟩ := List.mem_map.1 hname
  exact hn definition hd

theorem render_sweepSelection (hn : table.schema.NamedKeys) (startKey : Option Item)
    (attributes : Catalog) :
    (table.sweepSelection startKey).render .scan attributes = .ok table.keyRendering := by
  have hcheck : (table.sweepSelection startKey).check = .ok () := by
    unfold Selection.check
    have hnames : (table.sweepSelection startKey).keyConditions.names ++
        (table.sweepSelection startKey).filterConditions.names ++
          (table.sweepSelection startKey).projection = table.keyAttributes := rfl
    rw [hnames]
    exact forM_eq_ok.2 (checked_keyAttributes hn)
  unfold Selection.render
  rw [hcheck]
  rfl

theorem built_sweepSelection (table : Table) (startKey : Option Item) :
    (table.sweepSelection startKey).Built := by
  have hkeys := (Selection.Built.new.setConsistentRead true).setProjection table.keyAttributes
  cases startKey with
  | none => exact hkeys
  | some key => exact hkeys.setStartKey key

theorem name_keyRendering (table : Table) {name : String} (hname : name ∈ table.keyAttributes) :
    Store.Placeholders.name ⟨table.keyRendering.names, table.keyRendering.values⟩
      ("#p_" ++ name) = .ok name := by
  have hget : (Fragment.projection table.keyAttributes).names.get? ("#p_" ++ name) =
      some name := get?_projection_eq_some_iff.2 ⟨rfl, hname⟩
  have hnames : table.keyRendering.names =
      ((Fragment.empty.names.union Fragment.empty.names).union
        (Fragment.projection table.keyAttributes).names).present := rfl
  rw [hnames]
  refine Store.Placeholders.name_of_get? (Store.head?_append rfl name) ?_ _
  rw [Named.get?_union, hget]
  rfl

/-- A row of a scan for keys is the key of its item. -/
theorem project_keyRendering (hn : table.schema.NamedKeys) (item : WireItem) :
    Store.project table.keyRendering.projection
        ⟨table.keyRendering.names, table.keyRendering.values⟩ item =
      keyPart table.schema.keyDefinitions item := by
  have hne : table.keyAttributes ≠ [] := by
    simp [keyAttributes, TableSchema.keyDefinitions]
  exact Store.project_projection hne
    (fun name hname => Store.isListable_of_checked (checked_keyAttributes hn name hname))
    (fun name hname => table.name_keyRendering hname) item

theorem keyOf_keyPart {schema : TableSchema} {item : WireItem}
    (h : HasKey schema.keyDefinitions item) :
    schema.keyOf (keyPart schema.keyDefinitions item) =
      .ok (keyPart schema.keyDefinitions item) := by
  refine (schema.keyOf_eq_ok_iff _ _).2 ⟨?_, (keyPart_keyPart _ item).symm⟩
  intro definition hd
  obtain ⟨held, hheld, htype⟩ := h definition hd
  refine ⟨held, ?_, htype⟩
  rw [get?_keyPart, if_pos (List.mem_map_of_mem hd), hheld]

/-! ## The run of a scan -/

def scanError (table : Table) : Error :=
  .wire Wire.Operation.scan.name table.fullName Store.scanRejected

theorem deletesOf_run_scan (state : Store.State) {selection : Selection} {request : Wire.Scan}
    (h : scanRequest selection table.schema.attributes none table.fullName = .ok request) :
    deletesOf ((table.scan selection).run backend state).trace = [] := by
  unfold scan runScan sendIfOk
  simp only [h, Program.run_bind, Store.run_scan, Program.run_pure]
  rw [List.append_nil]
  exact deletesOf_callEvents .scan table.fullName (state.scan request).1

theorem run_scan_refused {selection : Selection} {request : Wire.Scan}
    (h : scanRequest selection table.schema.attributes none table.fullName = .ok request)
    (hrefused : state.scanCalls ∈ state.failingScans) :
    ((table.scan selection).run backend state).value = .error table.scanError ∧
      ((table.scan selection).run backend state).state =
        { state with scanCalls := state.scanCalls + 1 } := by
  have hscan : state.scan request =
      (.error Store.scanRejected, { state with scanCalls := state.scanCalls + 1 }) :=
    if_pos hrefused
  rw [value_run_scan h, state_run_scan h, hscan]
  exact ⟨rfl, rfl⟩

end Table

end AttributeStore
