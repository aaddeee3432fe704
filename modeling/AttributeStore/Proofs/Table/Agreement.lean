import AttributeStore.Proofs.Table.BatchPut
import AttributeStore.Proofs.Table.Put

/-!
# Batches agree with single writes

On a quiet store, both flushes of entries without expectations come to the same when no two of
them have one identity: the entries that have a key are put into the table in their order, and the
others are kept (`Screening.byKey`). One flush screens all entries and cuts them into batches, the
other sends each by itself.
-/

namespace AttributeStore

open Store (StoredTable backend)

def keyIdentities (schema : TableSchema) (entries : List Entry) : List KeyIdentity :=
  entries.filterMap fun entry => (schema.keyOf entry.item).toOption.map keyIdentity

namespace Screening

variable {schema : TableSchema}

/-- Entries told apart by their keys alone. -/
def byKey (schema : TableSchema) : List Entry → Screening
  | [] => {}
  | entry :: rest =>
    let later := byKey schema rest
    match schema.keyOf entry.item with
    | .ok _ => { later with accepted := entry :: later.accepted }
    | .error cause => { later with refused := (entry, cause) :: later.refused }

theorem mem_keyIdentities {key : WireItem} {before : List Entry} {other : Entry}
    (hm : other ∈ before) (h : Shares schema key other) :
    keyIdentity key ∈ keyIdentities schema before := by
  obtain ⟨held, hheld, hsame⟩ := h
  refine List.mem_filterMap.2 ⟨other, hm, ?_⟩
  rw [hheld, ← hsame]
  rfl

/-- Where no identity recurs, nothing but a missing key keeps a plain entry out of a batch. -/
theorem screens_byKey {before entries : List Entry}
    (hp : ∀ entry ∈ entries, entry.expected.isEmpty = true)
    (hfresh : (keyIdentities schema (before ++ entries)).Nodup) :
    Screens schema before entries (byKey schema entries).accepted
      (byKey schema entries).refused := by
  -- The identities of what was accepted stay part of the list that has no repetitions, so that the
  -- batch being filled, whichever it is, shares none with the next entry.
  induction entries generalizing before with
  | nil => exact .nil before
  | cons entry rest ih =>
    have hplain := hp entry List.mem_cons_self
    have hrest := fun e he => hp e (List.mem_cons_of_mem _ he)
    unfold byKey
    cases hkey : schema.keyOf entry.item with
    | ok key =>
      have hsplit : keyIdentities schema (before ++ entry :: rest) =
          keyIdentities schema before ++ keyIdentity key :: keyIdentities schema rest := by
        simp [keyIdentities, hkey, Except.toOption]
      have hnew : keyIdentity key ∉ keyIdentities schema before := by
        rw [hsplit, List.nodup_append] at hfresh
        intro hm
        exact hfresh.2.2 _ hm _ List.mem_cons_self rfl
      refine .accept ⟨hplain, key, hkey, ?_⟩ (ih hrest ?_)
      · intro other hm hshares
        exact hnew (mem_keyIdentities (List.mem_of_mem_drop hm) hshares)
      · rwa [List.append_assoc, List.singleton_append]
    | error cause =>
      have hskip : keyIdentities schema (before ++ entry :: rest) =
          keyIdentities schema (before ++ rest) := by
        simp [keyIdentities, hkey, Except.toOption]
      rw [hskip] at hfresh
      exact .refuse (.key hplain hkey) (ih hrest hfresh)

theorem screen_eq_byKey {entries : List Entry}
    (hp : ∀ entry ∈ entries, entry.expected.isEmpty = true)
    (hfresh : (keyIdentities schema entries).Nodup) :
    screen schema 0 [] entries = byKey schema entries := by
  obtain ⟨haccepted, hrefused⟩ :=
    (screens_screen schema entries).unique (screens_byKey hp hfresh)
  rw [Screening.mk.injEq]
  exact ⟨haccepted, hrefused⟩

end Screening

theorem Entry.validate_plain {schema : TableSchema} {entry : Entry}
    (hp : entry.expected.isEmpty = true) :
    entry.validate schema = (schema.keyOf entry.item).map fun _ => () := by
  have hnames : entry.expected.names = [] := by
    rw [Roster.names, List.isEmpty_iff.1 hp, List.map_nil]
  unfold validate
  rw [hnames]
  cases schema.keyOf entry.item <;> rfl

namespace Table

variable {table : Table} {state : Store.State} {stored : StoredTable}

/-! ## Plain entries sent by themselves -/

theorem run_putEntry_keyed (h : state.tables.get? table.fullName = some stored)
    (hk : stored.keys = table.schema.keyNames) (hd : table.schema.DistinctKeys) {entry : Entry}
    (hp : entry.expected.isEmpty = true) {key : WireItem}
    (hkey : table.schema.keyOf entry.item = .ok key) :
    let run := (table.putEntry entry).run backend state
    run.value = none ∧
      run.state = state.setTable table.fullName (stored.put entry.item) := by
  have hmembers : entry.expected.members = [] := List.isEmpty_iff.1 hp
  have hadmitted : entry.Admitted table.schema
      (table.schema.heldUnder stored.items entry.item) := by
    refine ⟨?_, ((table.schema.keyOf_eq_ok_iff _ _).1 hkey).1, ?_, ?_⟩
    · simp [Roster.names, hmembers]
    · simp [hmembers]
    · simp [hmembers]
  rcases run_putEntry h hk hd entry with ⟨-, hrun⟩ | ⟨cause, hrefused, -⟩
  · exact hrun
  · exact absurd hadmitted hrefused.not_admitted

theorem run_putEntry_keyless {entry : Entry} (hp : entry.expected.isEmpty = true)
    {cause : ValidationError} (hkey : table.schema.keyOf entry.item = .error cause) :
    let run := (table.putEntry entry).run backend state
    run.value = some (.validation cause) ∧ run.state = state := by
  have hinvalid : entry.validate table.schema = .error cause := by
    rw [Entry.validate_plain hp, hkey]
    rfl
  unfold putEntry
  rw [hinvalid]
  exact ⟨rfl, rfl⟩

theorem run_putEntries_byKey (h : state.tables.get? table.fullName = some stored)
    (hk : stored.keys = table.schema.keyNames) (hd : table.schema.DistinctKeys)
    {entries : List Entry} (hp : ∀ entry ∈ entries, entry.expected.isEmpty = true) :
    let run := (table.putEntries entries).run backend state
    let screening := Screening.byKey table.schema entries
    run.value = screening.flush ∧
      run.state = state.setTable table.fullName (stored.putAll screening.accepted) := by
  induction entries generalizing state stored with
  | nil => exact ⟨rfl, (Store.State.setTable_self h).symm⟩
  | cons entry rest ih =>
    have hplain := hp entry List.mem_cons_self
    have hrest := fun e he => hp e (List.mem_cons_of_mem _ he)
    unfold putEntries Screening.byKey
    cases hkey : table.schema.keyOf entry.item with
    | ok key =>
      obtain ⟨hv, hs⟩ := run_putEntry_keyed h hk hd hplain hkey
      have hnext := Store.State.get?_setTable_self state table.fullName (stored.put entry.item)
      obtain ⟨hvalue, hstate⟩ := ih hnext ((StoredTable.keys_put _ _).trans hk) hrest
      simp only [Program.run_bind, hv, hs, Program.run_pure, hvalue, hstate]
      exact ⟨rfl, Store.State.setTable_setTable _ _ _ _⟩
    | error cause =>
      obtain ⟨hv, hs⟩ := @run_putEntry_keyless table state entry hplain cause hkey
      obtain ⟨hvalue, hstate⟩ := ih h hk hrest
      simp only [Program.run_bind, hv, hs, Program.run_pure, hvalue, hstate]
      exact ⟨rfl, trivial⟩

/-! ## Batches sent to a quiet store -/

theorem answerBatch_quiet (hq : state.Quiet) {name : String}
    (h : state.tables.get? name = some stored) {batch : List Entry} (hlength : batch.length ≤ 25) :
    answerBatch backend name batch state =
      (.ok {}, (state.counted batch.length).setTable name (stored.putAll batch)) := by
  have hwrites : (batchWrites batch).length = batch.length := List.length_map _
  have hanswer := hq.batchWriteItem h (hwrites ▸ hlength)
  rw [hwrites, foldl_applyWrite] at hanswer
  exact hanswer

theorem run_putBatches_quiet (hq : state.Quiet)
    (h : state.tables.get? table.fullName = some stored) {batches : List (List Entry)}
    (hlength : ∀ batch ∈ batches, batch.length ≤ 25)
    (hp : ∀ entry ∈ batches.flatten, entry.expected.isEmpty = true) :
    let run := (table.putBatches (batches.map batchWrites)).run backend state
    run.value = {} ∧ run.state.tables =
      (state.setTable table.fullName (stored.putAll batches.flatten)).tables := by
  induction batches generalizing state stored with
  | nil => exact ⟨rfl, congrArg Store.State.tables (Store.State.setTable_self h).symm⟩
  | cons batch rest ih =>
    rw [List.flatten_cons] at hp ⊢
    have hanswer := answerBatch_quiet hq h (hlength batch List.mem_cons_self)
    obtain ⟨hv, hs, -⟩ := table.run_putBatch_deliver backend
      (fun e he => hp e (List.mem_append_left _ he)) state
    have hnothing : (deliver backend table.fullName batch state).answer = .ok [] := by
      unfold deliver
      rw [hanswer]
      rfl
    simp only [Delivery.errors, Delivery.kept, hnothing] at hv
    rw [hanswer] at hs
    have hnext := Store.State.get?_setTable_self (state.counted batch.length) table.fullName
      (stored.putAll batch)
    have hquiet : ((state.counted batch.length).setTable table.fullName
        (stored.putAll batch)).Quiet := ⟨hq.whole, (hq.counted batch.length).served⟩
    obtain ⟨hvalue, htables⟩ := ih hquiet hnext (fun b hb => hlength b (List.mem_cons_of_mem _ hb))
      (fun e he => hp e (List.mem_append_right _ he))
    rw [List.map_cons, putBatches]
    simp only [Program.run_bind, hv, hs, Program.run_pure, hvalue, htables]
    refine ⟨rfl, ?_⟩
    rw [Store.State.setTable_setTable, StoredTable.putAll_append]
    rfl

/-- In batches, too, plain entries of different identities are put into the table if they have a
key. -/
theorem run_batchEntries_byKey (hq : state.Quiet)
    (h : state.tables.get? table.fullName = some stored)
    (hp : ∀ entry ∈ table.spool, entry.expected.isEmpty = true)
    (hfresh : (keyIdentities table.schema table.spool).Nodup) :
    let run := (table.batchEntries table.spool).run backend state
    let screening := Screening.byKey table.schema table.spool
    run.value = screening.flush ∧ run.state.tables =
      (state.setTable table.fullName (stored.putAll screening.accepted)).tables := by
  have hscreen := Screening.screen_eq_byKey hp hfresh
  have hwrites : chunks batchSize ((Screening.byKey table.schema table.spool).accepted.map
      fun entry => Write.put entry.item) = table.batches.map batchWrites := by
    rw [← hscreen]
    exact (map_chunks (fun entry : Entry => Write.put entry.item) _).symm
  have hlength : ∀ batch ∈ table.batches, batch.length ≤ 25 :=
    fun _ hm => length_le_of_mem_chunks hm
  obtain ⟨hvalue, htables⟩ := run_putBatches_quiet hq h hlength
    fun entry hm => (table.of_mem_batches hm).1
  rw [flatten_batches, hscreen] at htables
  unfold batchEntries
  simp only [Program.run_bind, Program.run_pure, hscreen, hwrites, hvalue, htables]
  refine ⟨?_, trivial⟩
  unfold Flush.append
  rw [List.append_nil, List.append_nil]

/-- On a quiet store, a flush in batches and a flush entry by entry of the same plain entries of
different identities tell the same, keep the same and leave the same tables. The table is one that
a creation made, with any items in it. -/
theorem batchPut_agrees_with_put {before : Store.State} (hw : table.Written before)
    (hb : before.tables.get? table.fullName = some stored) {items : List WireItem}
    (h : state.tables.get? table.fullName = some { stored with items })
    (hd : table.schema.DistinctKeys) (hq : state.Quiet)
    (hp : ∀ entry ∈ table.spool, entry.expected.isEmpty = true)
    (hfresh : (keyIdentities table.schema table.spool).Nodup) :
    let batched := table.batchPut.run backend state
    let single := table.put.run backend state
    batched.state.items table.fullName = single.state.items table.fullName ∧
      batched.value.2.errorItems = single.value.2.errorItems ∧
      batched.value.1 = single.value.1 ∧
      batched.state.tables = single.state.tables := by
  intro batched single
  obtain ⟨_, hstored, hkeyed⟩ := hw.holds
  obtain rfl := Option.some.inj (hb.symm.trans hstored)
  obtain ⟨hbatches, hafter⟩ := run_batchEntries_byKey hq h hp hfresh
  obtain ⟨hentries, hafter'⟩ := run_putEntries_byKey h hkeyed.names hd hp
  obtain ⟨hvalue, hstate, -⟩ := run_flushWith backend table "batch_put" table.batchEntries state
  obtain ⟨hvalue', hstate', -⟩ := run_flushWith backend table "put" table.putEntries state
  have htables : batched.state.tables = single.state.tables := by
    change (table.batchPut.run backend state).state.tables =
      (table.put.run backend state).state.tables
    rw [batchPut, put, hstate, hstate', hafter, hafter']
  have hsame : batched.value = single.value := by
    change (table.batchPut.run backend state).value = (table.put.run backend state).value
    rw [batchPut, put, hvalue, hvalue', hbatches, hentries]
  refine ⟨?_, ?_, ?_, htables⟩
  · unfold Store.State.items
    rw [htables]
  · rw [hsame]
  · rw [hsame]

def manyPeople : Table :=
  { peopleTable with spool := numbered 0 24 ++ [⟨∅, ∅⟩] ++ numbered 24 4 }

def peopleStored : StoredTable :=
  (peopleState.tables.get? manyPeople.fullName).get (by decide +kernel)

/-- The store with one person there twice, which no handle brings about. -/
def twinsState : Store.State :=
  peopleState.setTable manyPeople.fullName
    { peopleStored with items := [personItem "7", personItem "7"] }

theorem batchPut_agrees_with_put_manyPeople :
    manyPeople.Written peopleState ∧ manyPeople.schema.DistinctKeys ∧ twinsState.Quiet ∧
    (keyIdentities manyPeople.schema manyPeople.spool).Nodup ∧
    (manyPeople.batchPut.run backend twinsState).state.items manyPeople.fullName =
      (manyPeople.put.run backend twinsState).state.items manyPeople.fullName ∧
    (manyPeople.put.run backend twinsState).value.2.errorItems = [⟨∅, ∅⟩] ∧
    (manyPeople.batchPut.run backend twinsState).value.2.errorItems = [⟨∅, ∅⟩] ∧
    (manyPeople.batchPut.run backend twinsState).value.1 =
      (manyPeople.put.run backend twinsState).value.1 := by
  have hmade : manyPeople.SameTable peopleTable := ⟨rfl, rfl, rfl⟩
  have hw : manyPeople.Written peopleState := .put (.create rfl hmade) ⟨rfl, rfl, rfl⟩
  have hb : peopleState.tables.get? manyPeople.fullName = some peopleStored :=
    (Option.some_get _).symm
  have hd : manyPeople.schema.DistinctKeys := by
    rintro range ⟨⟩
  have hq : twinsState.Quiet := ⟨rfl, fun _ hm => (List.not_mem_nil hm).elim⟩
  have hp : ∀ entry ∈ manyPeople.spool, entry.expected.isEmpty = true := by
    decide +kernel
  have hfresh : (keyIdentities manyPeople.schema manyPeople.spool).Nodup := by
    decide +kernel
  obtain ⟨hitems, hkept, hresult, -⟩ :=
    batchPut_agrees_with_put hw hb (Store.State.get?_setTable_self _ _ _) hd hq hp hfresh
  have hone : (manyPeople.put.run backend twinsState).value.2.errorItems = [⟨∅, ∅⟩] := by
    decide +kernel
  exact ⟨hw, hd, hq, hfresh, hitems, hone, hkept.trans hone, hresult⟩

end Table

end AttributeStore
