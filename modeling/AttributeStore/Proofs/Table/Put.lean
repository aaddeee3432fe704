import AttributeStore.Proofs.Expectations
import AttributeStore.Proofs.Table.Written

/-!
# Flushes entry by entry

What becomes of the entries of a flush that sends each of them by itself. An entry is `Admitted`
over the item that its key finds, or it is `Refused` for one reason. `Puts` applies the rule to
entries one after the other, each to the items that those before it left. A flush of a table that
handles have written follows `Puts`, and changes nothing else in the store.
-/

namespace AttributeStore

open Store (StoredTable backend)

namespace Entry

/-- What has to hold for an entry to be written over an existing item. -/
structure Admitted (schema : TableSchema) (existing : WireItem) (entry : Entry) : Prop where
  named : ∀ name ∈ entry.expected.names, checkAttributeName name = .ok ()
  keyed : HasKey schema.keyDefinitions entry.item
  encodes : ∀ expectation ∈ entry.expected.members, expectation.2.Encodes
  met : ∀ expectation ∈ entry.expected.members,
    expectation.2.holds existing expectation.1 = true

/-- Why an entry is not written over an existing item. -/
inductive Refused (schema : TableSchema) (table : String) (existing : WireItem) (entry : Entry) :
    Error → Prop
  | invalid {cause : ValidationError} (h : entry.validate schema = .error cause) :
    Refused schema table existing entry (.validation cause)
  | unwritable {cause : CodecError} (valid : entry.validate schema = .ok ())
    (h : entry.condition = .error cause) : Refused schema table existing entry (.codec cause)
  | unmet (valid : entry.validate schema = .ok ())
    (encodes : ∀ expectation ∈ entry.expected.members, expectation.2.Encodes)
    {expectation : String × Precondition} (hm : expectation ∈ entry.expected.members)
    (h : expectation.2.holds existing expectation.1 = false) :
    Refused schema table existing entry
      (.wire Wire.Operation.putItem.name table Store.conditionFailed)

variable {schema : TableSchema} {name : String} {existing : WireItem} {entry : Entry}

theorem condition_of_putRequest {cause : CodecError} (h : entry.putRequest name = .error cause) :
    entry.condition = .error cause := by
  unfold putRequest at h
  cases hc : entry.condition with
  | error other =>
    rw [hc] at h
    rw [Except.error.inj h]
  | ok fragment =>
    rw [hc] at h
    cases h

theorem encodes_of_putRequest {request : Wire.PutItem}
    (h : entry.putRequest name = .ok request) :
    ∀ expectation ∈ entry.expected.members, expectation.2.Encodes := by
  unfold putRequest at h
  simp only [bind_eq_ok, pure_eq_ok] at h
  obtain ⟨fragment, hfragment, -⟩ := h
  exact exists_condition_iff.1 ⟨fragment, hfragment⟩

theorem Refused.not_admitted {cause : Error} (h : entry.Refused schema name existing cause) :
    ¬entry.Admitted schema existing := by
  rintro ⟨hnamed, hkeyed, hencodes, hmet⟩
  cases h with
  | invalid h =>
    rw [validate_eq_ok_iff.2 ⟨hnamed, hkeyed⟩] at h
    cases h
  | unwritable _ h =>
    obtain ⟨fragment, hfragment⟩ := exists_condition_iff.2 hencodes
    rw [hfragment] at h
    cases h
  | unmet _ _ hm h =>
    rw [hmet _ hm] at h
    cases h

end Entry

namespace TableSchema

/-- The item of a list with the key of another one, the empty item if there is none. -/
def heldUnder (schema : TableSchema) (items : List WireItem) (item : WireItem) : WireItem :=
  (items.find? fun held =>
    keyPart schema.keyDefinitions held = keyPart schema.keyDefinitions item).getD ∅

/-- The items with one in the place of that with its key, or else at the end. -/
def putInto (schema : TableSchema) (items : List WireItem) (item : WireItem) : List WireItem :=
  let key := keyPart schema.keyDefinitions
  if key item ∈ items.map key then items.map fun held => if key held = key item then item else held
  else items ++ [item]

end TableSchema

/-- Entries put one after the other into the items of a table. -/
inductive Puts (schema : TableSchema) (table : String) :
    List WireItem → List Entry → List WireItem → List (Entry × Error) → Prop
  | nil (items : List WireItem) : Puts schema table items [] items []
  | store {items after : List WireItem} {entry : Entry} {rest : List Entry}
    {refused : List (Entry × Error)}
    (h : entry.Admitted schema (schema.heldUnder items entry.item))
    (later : Puts schema table (schema.putInto items entry.item) rest after refused) :
    Puts schema table items (entry :: rest) after refused
  | refuse {items after : List WireItem} {entry : Entry} {rest : List Entry} {cause : Error}
    {refused : List (Entry × Error)}
    (h : ¬entry.Admitted schema (schema.heldUnder items entry.item))
    (because : entry.Refused schema table (schema.heldUnder items entry.item) cause)
    (later : Puts schema table items rest after refused) :
    Puts schema table items (entry :: rest) after ((entry, cause) :: refused)

namespace Store.StoredTable

variable {schema : TableSchema} {stored : StoredTable}

theorem keySize_eq (h : stored.keys = schema.keyNames) :
    stored.keySize = schema.keyDefinitions.length := by
  unfold keySize TableSchema.keyDefinitions
  rw [h]
  unfold TableSchema.keyNames
  cases schema.rangeKey with
  | none => rfl
  | some range => rfl

theorem getD_find? (h : stored.keys = schema.keyNames) (item : WireItem) :
    (stored.find? (stored.keyOf item)).getD ∅ = schema.heldUnder stored.items item := by
  unfold find? TableSchema.heldUnder
  simp only [stored.keyOf_eq h]

theorem Keyed.put_eq (h : stored.Keyed schema) (item : WireItem) :
    stored.put item = { stored with items := schema.putInto stored.items item } := by
  have hitems : (stored.put item).items = schema.putInto stored.items item := by
    rw [items_put h.distinct, show stored.keyOf = keyPart schema.keyDefinitions from
      funext (stored.keyOf_eq h.names)]
    rfl
  rw [← hitems]
  unfold StoredTable.put
  split <;> rfl

end Store.StoredTable

namespace Table

variable {table : Table} {state : Store.State} {stored : StoredTable}

theorem putItem_putRequest (h : state.tables.get? table.fullName = some stored)
    (hk : stored.keys = table.schema.keyNames) (hd : table.schema.DistinctKeys) {entry : Entry}
    (hv : entry.validate table.schema = .ok ()) {request : Wire.PutItem}
    (hr : entry.putRequest table.fullName = .ok request) :
    state.putItem request =
      if entry.expected.members.all fun expectation =>
          expectation.2.holds (table.schema.heldUnder stored.items entry.item) expectation.1 then
        (.ok {}, state.setTable table.fullName (stored.put entry.item))
      else (.error Store.conditionFailed, state) := by
  obtain ⟨hnames, hkey⟩ := Entry.validate_eq_ok_iff.1 hv
  unfold Entry.putRequest at hr
  simp only [bind_eq_ok, pure_eq_ok] at hr
  obtain ⟨fragment, hfragment, rfl⟩ := hr
  have hsize : (stored.keyOf entry.item).size = stored.keySize := by
    rw [stored.keyOf_eq hk, StoredTable.keySize_eq hk, size_keyPart hd.nodup hkey]
  unfold Store.State.putItem
  simp only [Option.getD_some, Store.State.table_eq_ok h, hsize, ne_eq, not_true_eq_false,
    ↓reduceIte, StoredTable.getD_find? hk, Entry.evaluate_condition hfragment hnames]
  cases entry.expected.members.all _ with
  | true => rfl
  | false => rfl

/-- An entry sent by itself is put into the table, or is refused and changes nothing. -/
theorem run_putEntry (h : state.tables.get? table.fullName = some stored)
    (hk : stored.keys = table.schema.keyNames) (hd : table.schema.DistinctKeys) (entry : Entry) :
    let existing := table.schema.heldUnder stored.items entry.item
    let run := (table.putEntry entry).run backend state
    (entry.Admitted table.schema existing ∧ run.value = none ∧
      run.state = state.setTable table.fullName (stored.put entry.item)) ∨
    ∃ cause, entry.Refused table.schema table.fullName existing cause ∧ run.value = some cause ∧
      run.state = state := by
  intro existing
  unfold putEntry
  cases hv : entry.validate table.schema with
  | error cause => exact Or.inr ⟨_, .invalid hv, rfl, rfl⟩
  | ok _ =>
    cases hr : entry.putRequest table.fullName with
    | error cause => exact Or.inr ⟨_, .unwritable hv (Entry.condition_of_putRequest hr), rfl, rfl⟩
    | ok request =>
      obtain ⟨hnames, hkey⟩ := Entry.validate_eq_ok_iff.1 hv
      have hencodes := Entry.encodes_of_putRequest hr
      have hput := putItem_putRequest h hk hd hv hr
      simp only [Program.run_bind, Store.run_putItem, callOutcome, hput]
      cases hmet : entry.expected.members.all fun expectation =>
          expectation.2.holds existing expectation.1 with
      | true =>
        rw [if_pos rfl]
        exact Or.inl ⟨⟨hnames, hkey, hencodes, List.all_eq_true.1 hmet⟩, rfl, rfl⟩
      | false =>
        obtain ⟨expectation, hm, hfails⟩ := List.all_eq_false.1 hmet
        rw [if_neg Bool.false_ne_true]
        exact Or.inr ⟨_, .unmet hv hencodes hm (Bool.eq_false_iff.2 hfails), rfl, rfl⟩

theorem run_putEntries_puts (h : state.tables.get? table.fullName = some stored)
    (hk : stored.Keyed table.schema) (hd : table.schema.DistinctKeys) (entries : List Entry) :
    let run := (table.putEntries entries).run backend state
    ∃ after refused, Puts table.schema table.fullName stored.items entries after refused ∧
      run.value = ⟨refused.map Prod.snd, refused.map Prod.fst⟩ ∧
      run.state = state.setTable table.fullName { stored with items := after } := by
  -- Each entry meets the table as the one before left it, so both state and table vary.
  induction entries generalizing state stored with
  | nil => exact ⟨stored.items, [], .nil _, rfl, (Store.State.setTable_self h).symm⟩
  | cons entry rest ih =>
    unfold putEntries
    rcases run_putEntry h hk.names hd entry with ⟨hadmitted, hv, hs⟩ | ⟨cause, hrefused, hv, hs⟩
    · have hnext := Store.State.get?_setTable_self state table.fullName (stored.put entry.item)
      obtain ⟨after, refused, hputs, hvalue, hstate⟩ := ih hnext (hk.put hadmitted.keyed)
      have hitems : (stored.put entry.item).items =
          table.schema.putInto stored.items entry.item := by
        rw [hk.put_eq]
      rw [hitems] at hputs
      refine ⟨after, refused, .store hadmitted hputs, ?_, ?_⟩
      · simp only [Program.run_bind, hv, hs, Program.run_pure, hvalue]
      · simp only [Program.run_bind, hv, hs, Program.run_pure, hstate]
        rw [Store.State.setTable_setTable, hk.put_eq]
    · obtain ⟨after, refused, hputs, hvalue, hstate⟩ := ih h hk
      refine ⟨after, (entry, cause) :: refused,
        .refuse hrefused.not_admitted hrefused hputs, ?_, ?_⟩
      · simp only [Program.run_bind, hv, hs, Program.run_pure, hvalue, List.map_cons]
      · simp only [Program.run_bind, hv, hs, Program.run_pure, hstate]

/-- A flush puts the staged entries one after the other: it stores each entry that is admitted over
the item that its key finds at that moment, and keeps every other one with an error of its own.
Nothing but the items of the table changes. -/
theorem put_applies_in_order (hw : table.Written state) (hd : table.schema.DistinctKeys) :
    let run := table.put.run backend state
    ∃ stored after refused,
      state.tables.get? table.fullName = some stored ∧
      Puts table.schema table.fullName stored.items table.spool after refused ∧
      run.state = state.setTable table.fullName { stored with items := after } ∧
      run.value.2 = { table with spool := [], errorItems := refused.map Prod.fst } ∧
      run.value.1 = Aggregate.toResult ⟨serviceName, refused.map Prod.snd⟩ ∧
      (run.value.1 = .ok () ↔ refused = []) := by
  intro run
  obtain ⟨stored, hstored, hkeyed⟩ := hw.holds
  obtain ⟨after, refused, hputs, hvalue, hstate⟩ :=
    run_putEntries_puts hstored hkeyed hd table.spool
  obtain ⟨hflush, hafter, -⟩ := run_flushWith backend table "put" table.putEntries state
  have hrun : run.value =
      (Aggregate.toResult ⟨serviceName, refused.map Prod.snd⟩,
        { table with spool := [], errorItems := refused.map Prod.fst }) := by
    change (table.put.run backend state).value = _
    rw [put, hflush, hvalue]
    rfl
  refine ⟨stored, after, refused, hstored, hputs, hafter.trans hstate, ?_, ?_, ?_⟩
  · rw [hrun]
  · rw [hrun]
  · rw [hrun, toResult_eq_ok_iff, List.map_eq_nil_iff]

def visits : TableSchema :=
  (TableSchema.withHashKey "visits" ⟨"id", .string⟩).addRangeKey ⟨"at", .number⟩

def visitsState : Store.State :=
  ((Table.create "dev_" visits).run backend {}).state

def visitItem (id time : String) : WireItem :=
  Named.ofList [("id", .leaf (.string id)), ("at", .leaf (.number time))]

def lateVisit : Entry where
  item := (visitItem "ada" "1").insert "note" (.leaf (.string "late"))
  expected := Roster.ofList [("at", .equals (.leaf (.number ⟨"1.0"⟩))), ("id", .present)]

/-- A visit that is new, the same once more, and a note on it that is expected to be there. -/
def repeatedVisit : List Entry :=
  [⟨visitItem "ada" "1", Roster.ofList [("at", .absent)]⟩,
    ⟨visitItem "ada" "1", Roster.ofList [("at", .absent)]⟩, lateVisit]

def spoiltVisits : List Entry :=
  [⟨visitItem "bob" "2", Roster.ofList [("no te", .present)]⟩, ⟨∅, ∅⟩,
    ⟨visitItem "eve" "3", Roster.ofList [("tags", .equals (.leaf (.stringSet [])))]⟩]

def visitsTable : Table where
  namePrefix := "dev_"
  schema := { visits with status := some Wire.activeStatus }
  spool := repeatedVisit ++ spoiltVisits

theorem put_applies_in_order_visits :
    visitsTable.Written visitsState ∧ visitsTable.schema.DistinctKeys ∧
    ∃ refused, Puts visitsTable.schema "dev_visits" [] visitsTable.spool [lateVisit.item] refused ∧
      refused.map Prod.fst = ⟨visitItem "ada" "1", Roster.ofList [("at", .absent)]⟩ ::
        spoiltVisits ∧
      (visitsTable.put.run backend visitsState).value.1 ≠ .ok () := by
  have hw : visitsTable.Written visitsState := .create rfl ⟨rfl, rfl, rfl⟩
  have hd : visitsTable.schema.DistinctKeys := by
    rintro range ⟨⟩
    decide
  obtain ⟨stored, after, refused, hstored, hputs, hstate, hhandle, -, hok⟩ :=
    put_applies_in_order hw hd
  have hbefore : stored.items = [] := by
    rw [← Store.State.items_eq hstored]
    rfl
  have hafter : after = [lateVisit.item] := by
    have hitems := congrArg (fun state => state.items visitsTable.fullName) hstate
    simp only [Store.State.items_eq (Store.State.get?_setTable_self _ _ _)] at hitems
    rw [← hitems]
    decide +kernel
  have hrefused : refused.map Prod.fst =
      ⟨visitItem "ada" "1", Roster.ofList [("at", .absent)]⟩ :: spoiltVisits := by
    have hkept := congrArg Table.errorItems hhandle
    dsimp only at hkept
    rw [← hkept]
    decide +kernel
  refine ⟨hw, hd, refused, ?_, hrefused, ?_⟩
  · rw [hbefore, hafter] at hputs
    exact hputs
  · intro hall
    rw [hok.1 hall] at hrefused
    cases hrefused

end Table

end AttributeStore
