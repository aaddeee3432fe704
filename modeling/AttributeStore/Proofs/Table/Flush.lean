import AttributeStore.Proofs.Batch
import AttributeStore.Proofs.Store.Calls
import AttributeStore.Proofs.Store.Contents

/-!
# What a flush writes

A flush takes the staged entries, writes some of them to the table and keeps the others as error
items. `putWritten` and `batchWritten` are the entries written, occurrence by occurrence and in
the order of staging; the two main lemmas say that a flush settles every entry it took (`Settled`)
and leaves the table with exactly the written ones put into it, one after the other.
-/

namespace AttributeStore

open Store (StoredTable backend)

/-- Which of the entries that were taken are written: in their order, all but those kept. -/
structure Settled (taken written kept : List Entry) : Prop where
  inOrder : written.Sublist taken
  complete : (written ++ kept).Perm taken

theorem Settled.nil : Settled [] [] [] :=
  ⟨List.Sublist.refl _, List.Perm.refl _⟩

theorem Settled.consWritten {taken written kept : List Entry} (h : Settled taken written kept)
    (entry : Entry) : Settled (entry :: taken) (entry :: written) kept :=
  ⟨h.inOrder.cons_cons entry, h.complete.cons entry⟩

theorem Settled.consKept {taken written kept : List Entry} (h : Settled taken written kept)
    (entry : Entry) : Settled (entry :: taken) written (entry :: kept) :=
  ⟨h.inOrder.cons entry, List.perm_middle.trans (h.complete.cons entry)⟩

theorem Settled.append {taken taken' written written' kept kept' : List Entry}
    (h : Settled taken written kept) (h' : Settled taken' written' kept') :
    Settled (taken ++ taken') (written ++ written') (kept ++ kept') where
  inOrder := h.inOrder.append h'.inOrder
  complete := by
    have hswap : ((written ++ written') ++ (kept ++ kept')).Perm
        ((written ++ kept) ++ (written' ++ kept')) := by
      simp only [List.append_assoc]
      refine List.Perm.append_left written ?_
      rw [← List.append_assoc, ← List.append_assoc]
      exact List.Perm.append_right kept' List.perm_append_comm
    exact hswap.trans (h.complete.append h'.complete)

/-- Where the accepted entries are settled, all entries are: the refused ones come first among
those kept. -/
theorem Settled.screened {schema : TableSchema} {entries written kept : List Entry}
    (h : Settled (Screening.screen schema 0 [] entries).accepted written kept) :
    Settled entries written ((Screening.screen schema 0 [] entries).flush.items ++ kept) := by
  have hscreen := @Screening.accepted_append_refused_perm schema 0 [] entries
  have horder := @Screening.accepted_sublist schema 0 [] entries
  refine ⟨h.inOrder.trans horder, List.Perm.trans ?_ hscreen⟩
  refine List.Perm.trans ?_ (h.complete.append_right _)
  rw [List.append_assoc]
  exact List.Perm.append_left _ List.perm_append_comm

theorem Entry.validate_eq_ok_iff {schema : TableSchema} {entry : Entry} :
    entry.validate schema = .ok () ↔
      (∀ name ∈ entry.expected.names, checkAttributeName name = .ok ()) ∧
        HasKey schema.keyDefinitions entry.item := by
  unfold validate
  simp only [bind_eq_ok, pure_eq_ok, List.forM_eq_forM]
  constructor
  · rintro ⟨⟨⟩, hnames, key, hkey, -⟩
    exact ⟨forM_eq_ok.1 hnames, ((schema.keyOf_eq_ok_iff _ _).1 hkey).1⟩
  · rintro ⟨hnames, hkey⟩
    exact ⟨(), forM_eq_ok.2 hnames, _, TableSchema.keyOf_of_hasKey hkey, trivial⟩

def Store.StoredTable.putAll (stored : StoredTable) (entries : List Entry) : StoredTable :=
  entries.foldl (fun stored entry => stored.put entry.item) stored

theorem Store.StoredTable.putAll_append (stored : StoredTable) (first second : List Entry) :
    stored.putAll (first ++ second) = (stored.putAll first).putAll second :=
  List.foldl_append

namespace Table

variable (table : Table)

/-! ## Entries sent by themselves -/

/-- Those of some entries that are written when each is sent by itself, in order. -/
def putWritten : List Entry → Store.State → List Entry
  | [], _ => []
  | entry :: rest, state =>
    let run := (table.putEntry entry).run backend state
    let later := putWritten rest run.state
    if run.value.isNone then entry :: later else later

variable {table} {state : Store.State} {stored : StoredTable}

theorem of_putRequest {entry : Entry} {name : String} {request : Wire.PutItem}
    (h : entry.putRequest name = .ok request) :
    request.tableName.getD "" = name ∧ request.item.getD ∅ = entry.item := by
  unfold Entry.putRequest at h
  simp only [bind_eq_ok, pure_eq_ok] at h
  obtain ⟨condition, _, rfl⟩ := h
  exact ⟨rfl, rfl⟩

/-- An entry sent by itself is kept with an error and nothing changes, or it is put into the
table. -/
theorem putEntry_cases (h : state.tables.get? table.fullName = some stored) (entry : Entry) :
    (∃ cause, ((table.putEntry entry).run backend state).value = some cause ∧
      ((table.putEntry entry).run backend state).state = state) ∨
    (((table.putEntry entry).run backend state).value = none ∧
      HasKey table.schema.keyDefinitions entry.item ∧
      ((table.putEntry entry).run backend state).state =
        state.setTable table.fullName (stored.put entry.item)) := by
  unfold putEntry
  cases hv : entry.validate table.schema with
  | error cause => exact Or.inl ⟨_, rfl, rfl⟩
  | ok _ =>
    cases hr : entry.putRequest table.fullName with
    | error cause => exact Or.inl ⟨_, rfl, rfl⟩
    | ok request =>
      have hrequest := of_putRequest hr
      rw [← hrequest.1] at h
      simp only [Program.value_run_bind, Program.state_run_bind, Store.run_putItem]
      rcases Store.State.putItem_cases h with ⟨cause, hc⟩ | hc
      · rw [hc]
        exact Or.inl ⟨_, rfl, rfl⟩
      · rw [hc, hrequest.1, hrequest.2]
        exact Or.inr ⟨rfl, (Entry.validate_eq_ok_iff.1 hv).2, rfl⟩

/-- What a flush settles and what it leaves in the table of its handle. -/
structure Flushed (table : Table) (stored : StoredTable) (taken written : List Entry)
    (run : Run Store.State Flush) : Prop where
  settled : Settled taken written run.value.items
  keyed : ∀ entry ∈ written, HasKey table.schema.keyDefinitions entry.item
  holds : run.state.tables.get? table.fullName = some (stored.putAll written)

theorem run_putEntries (h : state.tables.get? table.fullName = some stored)
    (entries : List Entry) :
    Flushed table stored entries (table.putWritten entries state)
      ((table.putEntries entries).run backend state) := by
  induction entries generalizing state stored with
  | nil => exact ⟨Settled.nil, fun _ hm => (List.not_mem_nil hm).elim, h⟩
  | cons entry rest ih =>
    unfold putEntries putWritten
    rcases putEntry_cases h entry with ⟨cause, hv, hs⟩ | ⟨hv, hk, hs⟩
    · have hrest := ih h
      simp only [Program.run_bind, hv, hs, Program.run_pure, Option.isNone_some,
        Bool.false_eq_true, ↓reduceIte]
      exact ⟨hrest.settled.consKept entry, hrest.keyed, hrest.holds⟩
    · have hrest := ih (Store.State.get?_setTable_self state table.fullName (stored.put entry.item))
      simp only [Program.run_bind, hv, hs, Program.run_pure, Option.isNone_none, ↓reduceIte]
      refine ⟨hrest.settled.consWritten entry, ?_, hrest.holds⟩
      intro written hw
      rcases List.mem_cons.1 hw with rfl | hw
      · exact hk
      · exact hrest.keyed written hw

/-! ## Entries sent in batches -/

def batchWrites (batch : List Entry) : List Write :=
  batch.map fun entry => Write.put entry.item

theorem entry_eq_of_isEmpty {entry : Entry} (h : entry.expected.isEmpty = true) :
    ({ item := entry.item } : Entry) = entry := by
  obtain ⟨item, members, distinct⟩ := entry
  obtain rfl : members = [] := List.isEmpty_iff.1 h
  rfl

theorem entriesOf_batchWrites {batch : List Entry}
    (hp : ∀ entry ∈ batch, entry.expected.isEmpty = true) :
    entriesOf (batchWrites batch) = batch := by
  unfold entriesOf batchWrites
  rw [List.map_map]
  conv => rhs; rw [← List.map_id batch]
  apply List.map_congr_left
  intro entry he
  exact entry_eq_of_isEmpty (hp entry he)

theorem foldl_applyWrite (batch : List Entry) (stored : StoredTable) :
    ((batchWrites batch).map Write.toWire).foldl Store.State.applyWrite stored =
      stored.putAll batch := by
  unfold batchWrites StoredTable.putAll
  rw [List.map_map, List.foldl_map]
  rfl

theorem run_putBatch (h : state.tables.get? table.fullName = some stored) {batch : List Entry}
    (hp : ∀ entry ∈ batch, entry.expected.isEmpty = true) :
    ∃ done,
      ((table.putBatch (batchWrites batch)).run backend state).value.items = batch.drop done ∧
      ((table.putBatch (batchWrites batch)).run backend state).state.tables.get?
        table.fullName = some (stored.putAll (batch.take done)) := by
  unfold putBatch sendBatch
  simp only [Program.run_bind, Store.run_batchWriteItem, callOutcome]
  rcases Store.State.batchWriteItem_cases h (batchWrites batch) with
    ⟨cause, hanswer, htable⟩ | ⟨reply, done, hanswer, hundone, htable⟩
  · refine ⟨0, ?_, ?_⟩
    · rw [hanswer]
      exact entriesOf_batchWrites hp
    · rw [List.take_zero, show stored.putAll [] = stored from rfl, hanswer]
      exact htable
  · refine ⟨done, ?_, ?_⟩
    · have hdrop : unprocessedWrites table.fullName reply = batchWrites (batch.drop done) := by
        rw [hundone, batchWrites, batchWrites, List.map_drop]
      have hitems : entriesOf (batchWrites (batch.drop done)) = batch.drop done :=
        entriesOf_batchWrites fun entry he => hp entry (List.mem_of_mem_drop he)
      unfold Except.mapError Except.map
      simp only [hanswer, Program.run_pure, hdrop]
      conv => rhs; rw [← hitems]
      cases batchWrites (batch.drop done) with
      | nil => rfl
      | cons write rest => rfl
    · have htake : (batchWrites batch).take done = batchWrites (batch.take done) := by
        rw [batchWrites, batchWrites, List.map_take]
      rw [htake, foldl_applyWrite] at htable
      rw [← htable]
      unfold Except.mapError Except.map
      simp only [hanswer, Program.run_pure]
      cases unprocessedWrites table.fullName reply with
      | nil => rfl
      | cons write rest => rfl

variable (table) in
/-- Those of some entries, cut into batches, that are written when the batches are sent in
order: all of a batch but what it keeps. -/
def batchesWritten : List (List Entry) → Store.State → List Entry
  | [], _ => []
  | batch :: rest, state =>
    let run := (table.putBatch (batchWrites batch)).run backend state
    batch.filter (· ∉ run.value.items) ++ batchesWritten rest run.state

theorem filter_notMem_drop {α : Type} [DecidableEq α] {list : List α} (hd : list.Nodup) (n : Nat) :
    list.filter (· ∉ list.drop n) = list.take n := by
  have hsplit : (list.take n ++ list.drop n).Nodup := by rwa [List.take_append_drop]
  obtain ⟨-, -, hdisjoint⟩ := List.nodup_append.1 hsplit
  conv => lhs; rw [← List.take_append_drop n list]
  rw [List.filter_append, List.take_append_drop]
  have hfirst : (list.take n).filter (· ∉ list.drop n) = list.take n := by
    apply List.filter_eq_self.2
    intro x hx
    exact decide_eq_true fun hm => hdisjoint x hx x hm rfl
  have hsecond : (list.drop n).filter (· ∉ list.drop n) = [] := by
    apply List.filter_eq_nil_iff.2
    intro x hx
    simpa using hx
  rw [hfirst, hsecond, List.append_nil]

theorem run_putBatches (h : state.tables.get? table.fullName = some stored)
    {batches : List (List Entry)} (hd : ∀ batch ∈ batches, batch.Nodup)
    (hp : ∀ entry ∈ batches.flatten, entry.expected.isEmpty = true)
    (hk : ∀ entry ∈ batches.flatten, HasKey table.schema.keyDefinitions entry.item) :
    Flushed table stored batches.flatten (table.batchesWritten batches state)
      ((table.putBatches (batches.map batchWrites)).run backend state) := by
  induction batches generalizing state stored with
  | nil => exact ⟨Settled.nil, fun _ hm => (List.not_mem_nil hm).elim, h⟩
  | cons batch rest ih =>
    rw [List.flatten_cons] at hp hk ⊢
    obtain ⟨done, hitems, htable⟩ :=
      run_putBatch h fun entry he => hp entry (List.mem_append_left _ he)
    have hwritten : batch.filter (· ∉ ((table.putBatch (batchWrites batch)).run backend
        state).value.items) = batch.take done := by
      rw [hitems]
      exact filter_notMem_drop (hd batch List.mem_cons_self) done
    have hrest := ih htable (fun b hb => hd b (List.mem_cons_of_mem _ hb))
      (fun entry he => hp entry (List.mem_append_right _ he))
      (fun entry he => hk entry (List.mem_append_right _ he))
    unfold batchesWritten
    rw [List.map_cons, putBatches]
    simp only [hwritten, Program.run_bind, Program.run_pure]
    refine ⟨?_, ?_, ?_⟩
    · have hfirst : Settled batch (batch.take done) (batch.drop done) :=
        ⟨List.take_sublist _ _, by rw [List.take_append_drop]⟩
      simp only [Flush.append, hitems]
      exact hfirst.append hrest.settled
    · intro entry he
      rcases List.mem_append.1 he with he | he
      · exact hk entry (List.mem_append_left _ (List.mem_of_mem_take he))
      · exact hrest.keyed entry he
    · rw [StoredTable.putAll_append]
      exact hrest.holds

variable (table) in
def batchWritten (entries : List Entry) (state : Store.State) : List Entry :=
  table.batchesWritten
    (chunks batchSize (Screening.screen table.schema 0 [] entries).accepted) state

theorem run_batchEntries (h : state.tables.get? table.fullName = some stored)
    (entries : List Entry) :
    Flushed table stored entries (table.batchWritten entries state)
      ((table.batchEntries entries).run backend state) := by
  unfold batchEntries batchWritten
  generalize hs : Screening.screen table.schema 0 [] entries = screening
  have hwrites : chunks batchSize (screening.accepted.map fun entry => Write.put entry.item) =
      (chunks batchSize screening.accepted).map batchWrites :=
    (map_chunks (fun entry : Entry => Write.put entry.item) screening.accepted).symm
  have hflat : (chunks batchSize screening.accepted).flatten = screening.accepted :=
    flatten_chunks (by decide) screening.accepted
  have hmem : ∀ entry ∈ screening.accepted, entry.expected.isEmpty = true ∧
      HasKey table.schema.keyDefinitions entry.item := by
    intro entry he
    exact Screening.of_mem_accepted (hs ▸ he)
  have hdistinct : ∀ batch ∈ chunks batchSize screening.accepted, batch.Nodup := by
    intro batch hb
    rw [← hs] at hb
    exact List.Nodup.of_map _ (Screening.identities_nodup hb)
  have hrun := run_putBatches h hdistinct (by rw [hflat]; exact fun entry he => (hmem entry he).1)
    (by rw [hflat]; exact fun entry he => (hmem entry he).2)
  rw [hflat, ← hwrites] at hrun
  simp only [Program.run_bind, Program.run_pure]
  subst hs
  exact ⟨hrun.settled.screened, hrun.keyed, hrun.holds⟩

/-! ## Flushes of the spool -/

theorem toResult_eq_ok_iff (aggregate : Aggregate) :
    aggregate.toResult = .ok () ↔ aggregate.errors = [] := by
  unfold Aggregate.toResult
  cases aggregate.errors <;> simp

theorem run_flushWith {σ : Type} (server : Backend σ) (table : Table) (name : String)
    (send : List Entry → Program Flush) (state : σ) :
    let run := (send table.spool).run server state
    ((table.flushWith name send).run server state).value =
        (run.value.result, { table with spool := [], errorItems := run.value.items }) ∧
      ((table.flushWith name send).run server state).state = run.state ∧
      callsOf ((table.flushWith name send).run server state).trace = callsOf run.trace := by
  unfold flushWith takeSpool
  simp only [Program.run_bind, Program.run_emit, Program.run_pure, List.append_nil]
  exact ⟨trivial, trivial, rfl⟩

end Table

end AttributeStore
