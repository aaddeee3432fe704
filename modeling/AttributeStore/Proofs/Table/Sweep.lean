import AttributeStore.Proofs.Table.Cursor
import AttributeStore.Proofs.Table.Written

/-!
# Deleting all items

A sweep goes over the pages that its table has at the start, in the order of keys, up to the first
scan that is refused. Each item of these pages is deleted with one call of its own and nothing else
is touched, whatever deletes fail on the way.
-/

namespace AttributeStore

open Store (StoredTable backend compareItems sortItems)

namespace Table

variable {table : Table} {items visited remaining failing : List WireItem} {stored : StoredTable}
  {state : Store.State}

/-- The pages that a sweep over some items reads from a store. -/
def readOf (state : Store.State) (items : List WireItem) : List (List WireItem) :=
  pagesRead state.failingScans state.scanCalls (pagesOf state.pageSize items)

def keysOf (schema : TableSchema) (pages : List (List WireItem)) : List WireItem :=
  pages.flatten.map (keyPart schema.keyDefinitions)

/-- The failures of a sweep over some pages of which the first ones could be read: one for each
key that cannot be deleted, and one for a scan that was refused. -/
def sweepErrors (table : Table) (failing : List WireItem) (pages read : List (List WireItem)) :
    List Error :=
  ((keysOf table.schema read).filter failing.contains).map (fun _ => table.deleteError) ++
    if read.length < pages.length then [table.scanError] else []

def sweepOfPages (table : Table) (failing : List WireItem) (pages read : List (List WireItem)) :
    Sweep where
  deleted := ((keysOf table.schema read).filter (!failing.contains ·)).length
  errors := table.sweepErrors failing pages read

theorem keysOf_cons (schema : TableSchema) (page : List WireItem)
    (pages : List (List WireItem)) :
    keysOf schema (page :: pages) =
      page.map (keyPart schema.keyDefinitions) ++ keysOf schema pages := by
  rw [keysOf, List.flatten_cons, List.map_append, keysOf]

theorem sweepOfPages_cons (table : Table) (failing page : List WireItem)
    (pages read : List (List WireItem)) :
    (table.sweepOf failing (page.map (keyPart table.schema.keyDefinitions))).append
        (table.sweepOfPages failing pages read) =
      table.sweepOfPages failing (page :: pages) (page :: read) := by
  simp [sweepOfPages, sweepErrors, sweepOf, Sweep.append, keysOf_cons, -List.map_const']

/-- What the run of a sweep does when some items remain. -/
structure Swept (table : Table) (stored : StoredTable) (state : Store.State)
    (remaining : List WireItem) (run : Run Store.State (Option Sweep)) : Prop where
  value : run.value = some (table.sweepOfPages state.failingDeletes
    (pagesOf state.pageSize remaining) (readOf state remaining))
  deletes : deletesOf run.trace =
    (keysOf table.schema (readOf state remaining)).map (deleteRequest · table.fullName)
  wiped : Wiped table stored (keysOf table.schema (readOf state remaining)) state run.state

theorem readOf_cons {after : Store.State}
    (hp : ∀ size, state.pageSize = some size → 1 ≤ size)
    (hserved : state.scanCalls ∉ state.failingScans)
    (hmore : pageShare state.pageSize remaining.length < remaining.length)
    (hafter : after = { state with tables := after.tables, scanCalls := state.scanCalls + 1 }) :
    readOf state remaining =
      remaining.take (pageShare state.pageSize remaining.length) ::
        readOf after (remaining.drop (pageShare state.pageSize remaining.length)) := by
  rw [readOf, pagesOf_cons hp hmore, pagesRead_served hserved, hafter]
  rfl

theorem readOf_last (hp : ∀ size, state.pageSize = some size → 1 ≤ size)
    (hserved : state.scanCalls ∉ state.failingScans)
    (hlast : ¬pageShare state.pageSize remaining.length < remaining.length) :
    readOf state remaining = [remaining] := by
  rw [readOf, pagesOf_last hp hlast, pagesRead_served hserved]
  rfl

theorem Swept.refused {trace : List Step} (h : state.tables.get? table.fullName = some stored)
    (hk : stored.Keyed table.schema) (hrefused : state.scanCalls ∈ state.failingScans)
    (hquiet : deletesOf trace = []) :
    Swept table stored state remaining
      ⟨some { errors := [table.scanError] }, { state with scanCalls := state.scanCalls + 1 },
        trace⟩ := by
  have hread : readOf state remaining = [] := pagesRead_refused hrefused
  have hpages : 0 < (pagesOf state.pageSize remaining).length :=
    List.length_pos_iff.2 pagesOf_ne_nil
  refine ⟨?_, ?_, ?_⟩
  · rw [hread]
    simp [sweepOfPages, sweepErrors, keysOf, hpages]
  · rw [hread]
    exact hquiet
  · rw [hread]
    exact .nil h hk _

theorem Swept.last {after : Store.State} {before trace : List Step}
    (hp : ∀ size, state.pageSize = some size → 1 ≤ size)
    (hserved : state.scanCalls ∉ state.failingScans)
    (hlast : ¬pageShare state.pageSize remaining.length < remaining.length)
    (hw : Wiped table stored (remaining.map (keyPart table.schema.keyDefinitions)) state after)
    (hquiet : deletesOf before = [])
    (ht : deletesOf trace = (remaining.map (keyPart table.schema.keyDefinitions)).map
      (deleteRequest · table.fullName)) :
    Swept table stored state remaining
      ⟨some (table.sweepOf state.failingDeletes
          (remaining.map (keyPart table.schema.keyDefinitions))), after, before ++ trace⟩ := by
  have hread := readOf_last hp hserved hlast
  have hkeys : keysOf table.schema [remaining] =
      remaining.map (keyPart table.schema.keyDefinitions) := by
    simp [keysOf]
  refine ⟨?_, ?_, ?_⟩
  · rw [hread, pagesOf_last hp hlast]
    simp [sweepOfPages, sweepErrors, sweepOf, hkeys]
  · rw [hread, hkeys, deletesOf_append, hquiet, ht, List.nil_append]
  · rw [hread, hkeys]
    exact hw

/-- A page in front of the sweep over what then remains. -/
theorem Swept.cons {left : StoredTable} {after : Store.State}
    {rest : Run Store.State (Option Sweep)} {before trace : List Step}
    (hp : ∀ size, state.pageSize = some size → 1 ≤ size)
    (hserved : state.scanCalls ∉ state.failingScans)
    (hmore : pageShare state.pageSize remaining.length < remaining.length)
    (hafter : after = { state with tables := after.tables, scanCalls := state.scanCalls + 1 })
    (hleft : after.tables.get? table.fullName = some left)
    (hw : Wiped table stored ((remaining.take (pageShare state.pageSize remaining.length)).map
      (keyPart table.schema.keyDefinitions)) state after)
    (hquiet : deletesOf before = [])
    (ht : deletesOf trace = ((remaining.take (pageShare state.pageSize remaining.length)).map
      (keyPart table.schema.keyDefinitions)).map (deleteRequest · table.fullName))
    (h : Swept table left after
      (remaining.drop (pageShare state.pageSize remaining.length)) rest) :
    Swept table stored state remaining
      ⟨rest.value.map (table.sweepOf state.failingDeletes
          ((remaining.take (pageShare state.pageSize remaining.length)).map
            (keyPart table.schema.keyDefinitions))).append,
        rest.state, before ++ (trace ++ rest.trace)⟩ := by
  have hread := readOf_cons hp hserved hmore hafter
  have hfailing : after.failingDeletes = state.failingDeletes := by
    rw [hafter]
  have hsize : after.pageSize = state.pageSize := by
    rw [hafter]
  refine ⟨?_, ?_, ?_⟩
  · dsimp only
    rw [h.value, hread, pagesOf_cons hp hmore, Option.map_some, hfailing, hsize,
      sweepOfPages_cons]
  · rw [deletesOf_append, deletesOf_append, hquiet, ht, h.deletes, hread, keysOf_cons,
      List.map_append, List.nil_append]
  · rw [hread, keysOf_cons]
    exact hw.append hleft h.wiped

theorem run_deleteRows_cursor (hi : Sortable table.schema items)
    (h : state.tables.get? table.fullName = some stored)
    (hc : Cursor table.schema items failing stored visited remaining) :
    let rows := (keyOutput table.schema state.pageSize remaining).rows
    let run := (table.deleteRows rows).run backend
      { state with scanCalls := state.scanCalls + 1 }
    run.value = table.sweepOf state.failingDeletes rows ∧
      Wiped table stored rows state run.state ∧
      run.state = { state with
        tables := run.state.tables, scanCalls := state.scanCalls + 1 } ∧
      deletesOf run.trace = rows.map (deleteRequest · table.fullName) := by
  intro rows run
  have hrows (row : WireItem) (hrow : row ∈ rows) : table.schema.keyOf row = .ok row := by
    obtain ⟨item, hitem, rfl⟩ := List.mem_map.1 hrow
    have hmem := List.mem_append_right visited (List.mem_of_mem_take hitem)
    exact keyOf_keyPart (hc.ordered hi item hmem).hasKey
  have hcounted : ({ state with scanCalls := state.scanCalls + 1 } : Store.State).tables.get?
      table.fullName = some stored := h
  obtain ⟨hvalue, hwiped, hcalls, hdeletes⟩ := run_deleteRows hcounted hc.keyed hrows
  have hafter := hwiped.rest
  rw [hcalls] at hafter
  exact ⟨hvalue, hwiped.of_counted, hafter, hdeletes⟩

/-- A sweep from a cursor on goes over the pages of all that remains. -/
theorem run_sweepPages (hs : table.schema.ScalarKeys) (hn : table.schema.NamedKeys)
    (hi : Sortable table.schema items)
    (hp : ∀ size, state.pageSize = some size → 1 ≤ size)
    (h : state.tables.get? table.fullName = some stored)
    (hc : Cursor table.schema items state.failingDeletes stored visited remaining)
    {allowed : Nat} (ha : remaining.length < allowed) :
    Swept table stored state remaining
      ((table.sweepPages allowed (cursorKey table.schema visited)).run backend state) := by
  induction allowed generalizing state stored visited remaining with
  | zero => exact (Nat.not_lt_zero _ ha).elim
  | succ allowed ih =>
    have hquiet := deletesOf_run_scan state (hc.scanRequest_eq hs hn hi)
    unfold sweepPages
    by_cases hrefused : state.scanCalls ∈ state.failingScans
    · obtain ⟨hvalue, hscanned⟩ := run_scan_refused (hc.scanRequest_eq hs hn hi) hrefused
      simp only [Program.run_bind, hvalue, hscanned, Program.run_pure, List.append_nil]
      exact .refused h hc.keyed hrefused hquiet
    · obtain ⟨hvalue, hscanned⟩ := run_scan_cursor hs hn hi hc h hrefused
      obtain ⟨hpage, hwiped, hafter, hdeletes⟩ := run_deleteRows_cursor hi h hc
      simp only [Program.run_bind, hvalue, hscanned, hpage]
      by_cases hmore : pageShare state.pageSize remaining.length < remaining.length
      · -- The sweep goes on behind the last item of the page.
        have hpos := pageShare_pos hp (Nat.zero_lt_of_lt hmore)
        have hne := Store.take_ne_nil hpos hmore
        have hshorter : (remaining.drop (pageShare state.pageSize remaining.length)).length <
            allowed := by
          rw [List.length_drop]
          omega
        obtain ⟨key, hkey⟩ := cursorKey_eq_some table.schema hne
        have hnext : (keyOutput table.schema state.pageSize remaining).lastEvaluatedKey =
            some key := (if_pos hmore).trans hkey
        obtain ⟨left, hleft, hkeyed, hitems⟩ := hwiped.holds
        rw [← List.take_append_drop (pageShare state.pageSize remaining.length) remaining] at hc
        have hsweep := ih (by rwa [hafter]) hleft (by rw [hafter]; exact hc.next hkeyed hitems)
          hshorter
        rw [cursorKey_append _ _ hne, hkey] at hsweep
        simp only [hnext, Program.run_bind, Program.run_pure, List.append_nil]
        exact hsweep.cons hp hrefused hmore hafter hleft hwiped hquiet hdeletes
      · have hnext : (keyOutput table.schema state.pageSize remaining).lastEvaluatedKey = none :=
          if_neg hmore
        have hrows : (keyOutput table.schema state.pageSize remaining).rows =
            remaining.map (keyPart table.schema.keyDefinitions) := by
          rw [keyOutput, List.take_of_length_le (Nat.le_of_not_lt hmore)]
        simp only [hnext, Program.run_pure, List.append_nil]
        rw [hrows] at hwiped hdeletes ⊢
        exact .last hp hrefused hmore hwiped hquiet hdeletes

theorem run_forceDeleteAll {allowed : Nat} {sweep : Sweep}
    (h : ((table.sweepPages allowed none).run backend state).value = some sweep) :
    ((table.forceDeleteAll allowed).run backend state).value =
        some (if sweep.errors.isEmpty then .ok sweep.deleted
          else .error (.aggregate serviceName sweep.errors)) ∧
      ((table.forceDeleteAll allowed).run backend state).state =
        ((table.sweepPages allowed none).run backend state).state ∧
      deletesOf ((table.forceDeleteAll allowed).run backend state).trace =
        deletesOf ((table.sweepPages allowed none).run backend state).trace := by
  unfold forceDeleteAll
  simp only [Program.run_bind, h, Program.run_emit, Program.run_pure]
  refine ⟨?_, trivial, ?_⟩
  · unfold Aggregate.toResult
    dsimp only
    split <;> rfl
  · rw [deletesOf_append]
    exact List.append_nil _

theorem keysOf_readOf (state : Store.State) (hi : Sortable table.schema items)
    (hp : ∀ size, state.pageSize = some size → 1 ≤ size) :
    let pages := pagesOf state.pageSize (sortItems table.schema.keyNames false items)
    let read := pagesRead state.failingScans state.scanCalls pages
    (keysOf table.schema read).Nodup ∧
      ((∀ place < pages.length, state.scanCalls + place ∉ state.failingScans) →
        (keysOf table.schema read).Perm (items.map (keyPart table.schema.keyDefinitions))) := by
  intro pages read
  have hflat : pages.flatten = sortItems table.schema.keyNames false items :=
    flatten_pagesOf hp
  refine ⟨?_, ?_⟩
  · obtain ⟨later, hlater⟩ : read <+: pages := pagesRead_prefix _ _ pages
    refine hi.nodup_sorted.sublist ?_
    rw [← hflat, ← hlater, List.flatten_append]
    exact (List.sublist_append_left _ _).map _
  · intro hserved
    have hread : read = pages := pagesRead_eq_self hserved
    rw [hread, keysOf, hflat]
    exact (Store.sortItems_perm _ _ items).map _

/-- Deleting all items of a written table visits every item of the pages that can be read once, in
the order of keys: it deletes what can be deleted, keeps everything else, and tells each failure.
Keys have to be decimal where they are numbers, and no two items may be equal in their order. -/
theorem forceDeleteAll_visits_each (hw : table.Written state) (hs : table.schema.ScalarKeys)
    (hn : table.schema.NamedKeys)
    (hdecimal : ∀ item ∈ state.items table.fullName,
      ∀ definition ∈ table.schema.keyDefinitions, ∀ text,
        item.get? definition.name = some (.leaf (.number text)) → Decimal.isDecimal text = true)
    (huntied : (state.items table.fullName).Pairwise fun left right =>
      compareItems table.schema.keyNames false left right ≠ .eq)
    (hp : ∀ size, state.pageSize = some size → 1 ≤ size) {allowed : Nat}
    (ha : (state.items table.fullName).length < allowed) :
    let pages := pagesOf state.pageSize
      (sortItems table.schema.keyNames false (state.items table.fullName))
    let read := pagesRead state.failingScans state.scanCalls pages
    let keys := keysOf table.schema read
    let errors := table.sweepErrors state.failingDeletes pages read
    let run := (table.forceDeleteAll allowed).run backend state
    run.value = some (
      if errors.isEmpty then .ok (keys.filter (!state.failingDeletes.contains ·)).length
      else .error (.aggregate serviceName errors)) ∧
    deletesOf run.trace = keys.map (deleteRequest · table.fullName) ∧
    keys.Nodup ∧
    ((∀ place < pages.length, state.scanCalls + place ∉ state.failingScans) →
      keys.Perm ((state.items table.fullName).map (keyPart table.schema.keyDefinitions))) ∧
    run.state.items table.fullName =
      (state.items table.fullName).filter (stays table.schema state.failingDeletes keys) ∧
    ∀ name, name ≠ table.fullName → run.state.tables.get? name = state.tables.get? name := by
  obtain ⟨stored, h, hk⟩ := hw.holds
  rw [Store.State.items_eq h] at hdecimal huntied ha ⊢
  have hi := Sortable.of_keyed hk hdecimal huntied
  have hlength := (Store.sortItems_perm table.schema.keyNames false stored.items).length_eq
  have hswept : Swept table stored state (sortItems table.schema.keyNames false stored.items)
      ((table.sweepPages allowed none).run backend state) :=
    run_sweepPages hs hn hi hp h (.start hk) (hlength ▸ ha)
  intro pages read keys errors run
  obtain ⟨hvalue, hstate, htrace⟩ := run_forceDeleteAll hswept.value
  obtain ⟨hnodup, hperm⟩ := keysOf_readOf state hi hp
  obtain ⟨left, hleft, _, hleftItems⟩ := hswept.wiped.holds
  refine ⟨hvalue, htrace.trans hswept.deletes, hnodup, hperm, ?_, ?_⟩
  · rw [hstate, Store.State.items_eq hleft]
    exact hleftItems
  · intro name hname
    rw [hstate]
    exact hswept.wiped.others name hname

/-- People of whom one cannot be deleted, read one by one until the third scan fails. -/
def undeletablePeople : Store.State :=
  { peopleState with
    pageSize := some 1
    failingDeletes := [personItem "ada"]
    failingScans := [2] }

theorem forceDeleteAll_undeletablePeople :
    peopleTable.Written undeletablePeople ∧ peopleTable.schema.ScalarKeys ∧
    peopleTable.schema.NamedKeys ∧
    ((peopleTable.forceDeleteAll 4).run backend undeletablePeople).value =
      some (.error (.aggregate serviceName [peopleTable.deleteError, peopleTable.scanError])) ∧
    ((peopleTable.forceDeleteAll 4).run backend undeletablePeople).state.items "dev_people" =
      [personItem "ada", personItem "eve"] := by
  have hw : peopleTable.Written undeletablePeople := .elsewhere written_people rfl
  have hs : peopleTable.schema.ScalarKeys := by decide
  have hn : peopleTable.schema.NamedKeys := by
    intro definition hd
    rw [List.mem_singleton.1 hd]
    rfl
  have hitems : undeletablePeople.items peopleTable.fullName =
      [personItem "ada", personItem "bob", personItem "eve"] := by
    decide +kernel
  have hdecimal : ∀ item ∈ undeletablePeople.items peopleTable.fullName,
      ∀ definition ∈ peopleTable.schema.keyDefinitions, ∀ text,
        item.get? definition.name = some (.leaf (.number text)) →
          Decimal.isDecimal text = true := by
    rw [hitems]
    intro item hitem definition hd text htext
    rw [List.mem_singleton.1 hd] at htext
    simp only [List.mem_cons, List.not_mem_nil, or_false] at hitem
    rcases hitem with rfl | rfl | rfl <;> cases htext
  have huntied : (undeletablePeople.items peopleTable.fullName).Pairwise fun left right =>
      compareItems peopleTable.schema.keyNames false left right ≠ .eq := by
    decide +kernel
  have hallowed : (undeletablePeople.items peopleTable.fullName).length < 4 := by
    decide +kernel
  obtain ⟨hvalue, _, _, _, hleft, _⟩ := forceDeleteAll_visits_each hw hs hn hdecimal huntied
    (by rintro _ ⟨⟩; decide) hallowed
  refine ⟨hw, hs, hn, hvalue.trans ?_, hleft.trans ?_⟩
  · rfl
  · decide +kernel

end Table

end AttributeStore
