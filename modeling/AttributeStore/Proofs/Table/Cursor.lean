import AttributeStore.Proofs.Pages
import AttributeStore.Proofs.Store.KeyOrder
import AttributeStore.Proofs.Store.Stable
import AttributeStore.Proofs.Table.KeyScan

/-!
# The cursor of a sweep

A sweep goes on from the key of the last item of a page, whether that item is gone or could not be
deleted. Before each page the items of the table, in order, are those of the pages so far that
could not be deleted and then all that remain; the key finds the place between the two, because no
two items are equal in the order of keys.
-/

namespace AttributeStore

open Store (StoredTable PageRequest Ordered backend compareItems sortItems sortItems? keyOrder
  startPlace)

namespace Table

variable {table : Table} {schema : TableSchema} {items visited remaining failing : List WireItem}
  {stored : StoredTable} {state : Store.State}

/-- Items that their keys put in an order without ties. -/
structure Sortable (schema : TableSchema) (items : List WireItem) : Prop where
  distinct : (items.map (keyPart schema.keyDefinitions)).Nodup
  ordered : ∀ item ∈ items, Ordered schema item
  untied : items.Pairwise fun left right => compareItems schema.keyNames false left right ≠ .eq

namespace Sortable

theorem of_keyed (hk : stored.Keyed schema)
    (hd : ∀ item ∈ stored.items, ∀ definition ∈ schema.keyDefinitions, ∀ text,
      item.get? definition.name = some (.leaf (.number text)) → Decimal.isDecimal text = true)
    (hu : stored.items.Pairwise fun left right =>
      compareItems schema.keyNames false left right ≠ .eq) : Sortable schema stored.items := by
  refine ⟨?_, fun item hitem => ⟨hk.complete item hitem, hd item hitem⟩, hu⟩
  have hdistinct := hk.distinct
  rwa [StoredTable.Distinct, funext (stored.keyOf_eq hk.names)] at hdistinct

variable (hs : schema.ScalarKeys) (h : Sortable schema items)
include hs h

theorem pairwise_ne : items.Pairwise fun left right =>
    keyOrder schema.keyNames left right ≠ .eq := by
  refine h.untied.imp_of_mem ?_
  intro left right hl hr hne
  rwa [← Store.compareItems_of_ordered hs (h.ordered left hl) (h.ordered right hr)]

theorem pairwise_lt : (sortItems schema.keyNames false items).Pairwise fun left right =>
    keyOrder schema.keyNames left right = .lt := by
  rw [Store.sortItems_of_ordered hs h.ordered]
  exact Store.pairwise_lt_sort (h.pairwise_ne hs)

theorem sortItems_filter (keep : WireItem → Bool) :
    sortItems schema.keyNames false (items.filter keep) =
      (sortItems schema.keyNames false items).filter keep := by
  rw [Store.sortItems_of_ordered hs h.ordered, Store.sortItems_of_ordered hs]
  · exact Store.sort_filter (keyOrder schema.keyNames) items keep
  · intro item hitem
    exact h.ordered item (List.mem_of_mem_filter hitem)

omit hs in
theorem nodup_sorted :
    ((sortItems schema.keyNames false items).map (keyPart schema.keyDefinitions)).Nodup :=
  (((Store.sortItems_perm _ _ items).map _).nodup_iff).2 h.distinct

end Sortable

/-- Where a sweep stands: the items that it began with are those that it has gone over and those
that remain, and the table still holds what cannot be deleted of the former. -/
structure Cursor (schema : TableSchema) (items failing : List WireItem) (stored : StoredTable)
    (visited remaining : List WireItem) : Prop where
  sorted : sortItems schema.keyNames false items = visited ++ remaining
  keyed : stored.Keyed schema
  items_eq : stored.items =
    items.filter (stays schema failing (visited.map (keyPart schema.keyDefinitions)))

def undeleted (schema : TableSchema) (failing items : List WireItem) : List WireItem :=
  items.filter fun item => failing.contains (keyPart schema.keyDefinitions item)

/-- The key behind which a sweep goes on after some items. -/
def cursorKey (schema : TableSchema) (visited : List WireItem) : Option Item :=
  visited.getLast?.map fun item => (keyPart schema.keyDefinitions item).decode

theorem cursorKey_append (schema : TableSchema) (visited : List WireItem) {page : List WireItem}
    (h : page ≠ []) : cursorKey schema (visited ++ page) = cursorKey schema page := by
  rw [cursorKey, List.getLast?_append_of_ne_nil visited h, cursorKey]

theorem cursorKey_eq_some (schema : TableSchema) {page : List WireItem} (h : page ≠ []) :
    ∃ key, cursorKey schema page = some key := by
  unfold cursorKey
  rw [List.getLast?_eq_some_getLast h]
  exact ⟨_, rfl⟩

namespace Cursor

theorem start (hk : stored.Keyed schema) : Cursor schema stored.items failing stored []
    (sortItems schema.keyNames false stored.items) :=
  ⟨rfl, hk, (List.filter_eq_self.2 fun item _ => stays_nil schema failing item).symm⟩

theorem ordered (hi : Sortable schema items)
    (h : Cursor schema items failing stored visited remaining) :
    ∀ item ∈ visited ++ remaining, Ordered schema item := by
  intro item hitem
  rw [← h.sorted, (Store.sortItems_perm _ _ _).mem_iff] at hitem
  exact hi.ordered item hitem

theorem next {left : StoredTable} {page rest : List WireItem}
    (h : Cursor schema items failing stored visited (page ++ rest)) (hleft : left.Keyed schema)
    (hitems : left.items =
      stored.items.filter (stays schema failing (page.map (keyPart schema.keyDefinitions)))) :
    Cursor schema items failing left (visited ++ page) rest where
  sorted := by
    rw [h.sorted, List.append_assoc]
  keyed := hleft
  items_eq := by
    rw [hitems, h.items_eq, List.filter_filter, List.map_append]
    apply List.filter_congr
    intro item _
    exact (stays_append schema failing _ _ item).symm

variable (hs : schema.ScalarKeys) (hi : Sortable schema items)
include hs hi

theorem sortItems_eq (h : Cursor schema items failing stored visited remaining) :
    sortItems schema.keyNames false stored.items =
      undeleted schema failing visited ++ remaining := by
  have hkeys := hi.nodup_sorted
  rw [h.sorted, List.map_append, List.nodup_append] at hkeys
  rw [h.items_eq, hi.sortItems_filter hs, h.sorted, List.filter_append]
  congr 1
  · apply List.filter_congr
    intro item hitem
    exact stays_of_mem schema failing (List.mem_map_of_mem hitem)
  · apply List.filter_eq_self.2
    intro item hitem
    apply stays_of_notMem
    intro hold
    exact hkeys.2.2 _ hold _ (List.mem_map_of_mem hitem) rfl

theorem sortItems?_eq (h : Cursor schema items failing stored visited remaining) :
    sortItems? schema.keyNames false stored.items =
      some (undeleted schema failing visited ++ remaining) := by
  have hordered : ∀ item ∈ stored.items, Ordered schema item := by
    intro item hitem
    rw [h.items_eq] at hitem
    exact hi.ordered item (List.mem_of_mem_filter hitem)
  rw [Store.sortItems?_of_ordered hs hordered, h.sortItems_eq hs hi]

/-- The key of a last item that is still there finds the place behind it. -/
theorem startPlace_kept {before : List WireItem} {last : WireItem}
    (h : Cursor schema items failing stored (before ++ [last]) remaining)
    (hfail : keyPart schema.keyDefinitions last ∈ failing) :
    startPlace stored schema.keyNames false (keyPart schema.keyDefinitions last)
        (undeleted schema failing (before ++ [last]) ++ remaining) =
      (undeleted schema failing (before ++ [last])).length := by
  have hleft : undeleted schema failing (before ++ [last]) =
      undeleted schema failing before ++ [last] := by
    simp [undeleted, hfail]
  have hd : ((sortItems schema.keyNames false stored.items).map stored.keyOf).Nodup :=
    (((Store.sortItems_perm _ _ stored.items).map _).nodup_iff).2 h.keyed.distinct
  rw [h.sortItems_eq hs hi, hleft] at hd
  have hsplit : undeleted schema failing before ++ [last] ++ remaining =
      undeleted schema failing before ++ last :: remaining := by
    rw [List.append_assoc, List.singleton_append]
  rw [hleft, ← stored.keyOf_eq h.keyed.names, Store.startPlace_eq hd hsplit, List.length_append,
    List.length_singleton]

/-- The key of a last item that is gone finds its place by the order. -/
theorem startPlace_deleted {before : List WireItem} {last : WireItem}
    (h : Cursor schema items failing stored (before ++ [last]) remaining)
    (hfail : keyPart schema.keyDefinitions last ∉ failing) :
    startPlace stored schema.keyNames false (keyPart schema.keyDefinitions last)
        (undeleted schema failing (before ++ [last]) ++ remaining) =
      (undeleted schema failing (before ++ [last])).length := by
  have hleft : undeleted schema failing (before ++ [last]) = undeleted schema failing before := by
    simp [undeleted, hfail]
  have hlt := hi.pairwise_lt hs
  have hkeys := hi.nodup_sorted
  have hordered := h.ordered hi
  have hlast := hordered last (by simp)
  rw [h.sorted, List.append_assoc, List.singleton_append] at hlt hkeys
  obtain ⟨_, hlt', hltBefore⟩ := List.pairwise_append.1 hlt
  have hltAfter := (List.pairwise_cons.1 hlt').1
  rw [List.map_append, List.map_cons, List.nodup_append] at hkeys
  obtain ⟨_, hkeys', hkeysBefore⟩ := hkeys
  rw [hleft]
  refine Store.startPlace_gone ?_ ?_ ?_
  · intro item hitem
    rw [stored.keyOf_eq h.keyed.names]
    rcases List.mem_append.1 hitem with hitem | hitem
    · exact hkeysBefore _ (List.mem_map_of_mem (List.mem_of_mem_filter hitem)) _
        List.mem_cons_self
    · intro heq
      exact (List.nodup_cons.1 hkeys').1 (heq ▸ List.mem_map_of_mem hitem)
  · intro item hitem
    have hbefore := List.mem_of_mem_filter hitem
    rw [Store.compareItems_keyPart, Store.compareItems_of_ordered hs
      (hordered item (by simp [hbefore])) hlast, hltBefore item hbefore last List.mem_cons_self]
    decide
  · intro item hitem
    rw [Store.compareItems_keyPart, Store.compareItems_of_ordered hs
      (hordered item (by simp [hitem])) hlast]
    exact Std.OrientedCmp.gt_of_lt (hltAfter item hitem)

theorem startPlace_eq {before : List WireItem} {last : WireItem}
    (h : Cursor schema items failing stored (before ++ [last]) remaining) :
    startPlace stored schema.keyNames false (keyPart schema.keyDefinitions last)
        (undeleted schema failing (before ++ [last]) ++ remaining) =
      (undeleted schema failing (before ++ [last])).length := by
  by_cases hfail : keyPart schema.keyDefinitions last ∈ failing
  · exact h.startPlace_kept hs hi hfail
  · exact h.startPlace_deleted hs hi hfail

end Cursor

/-! ## The page of a cursor -/

theorem encode_cursorKey (hs : schema.ScalarKeys)
    (hv : ∀ item ∈ visited, HasKey schema.keyDefinitions item) :
    (cursorKey schema visited).mapM Item.encode =
      .ok (visited.getLast?.map (keyPart schema.keyDefinitions)) := by
  unfold cursorKey
  cases hlast : visited.getLast? with
  | none => rfl
  | some last =>
    rw [Option.map_some, Option.mapM_some,
      WireItem.encode_decode_keyPart hs (hv last (List.mem_of_getLast? hlast))]
    rfl

theorem Cursor.scanRequest_eq (hs : table.schema.ScalarKeys) (hn : table.schema.NamedKeys)
    (hi : Sortable table.schema items)
    (hc : Cursor table.schema items failing stored visited remaining) :
    scanRequest (table.sweepSelection (cursorKey table.schema visited)) table.schema.attributes
        none table.fullName =
      .ok { readMany (table.sweepSelection (cursorKey table.schema visited)) table.keyRendering
        (visited.getLast?.map (keyPart table.schema.keyDefinitions)) table.fullName with } := by
  refine Table.scanRequest_eq (render_sweepSelection hn _ _) (encode_cursorKey hs ?_) _
  intro item hitem
  exact (hc.ordered hi item (List.mem_append_left _ hitem)).hasKey

theorem walk_all (hk : stored.Keyed schema) (descending : Bool) :
    stored.walk stored.keys descending (fun _ => true) =
      stored.sorted schema.keyNames descending := by
  unfold StoredTable.walk
  rw [List.filter_true, hk.names]
  apply List.filter_eq_self.2
  intro item hitem
  obtain ⟨held, hheld, _⟩ := hk.complete item ((stored.sorted_subperm _ _).subset hitem)
    schema.hashKey ((schema.mem_keyDefinitions schema.hashKey).2 (Or.inl rfl))
  exact (Named.contains_iff item schema.hashKey.name).2 ⟨held, hheld⟩

def keyOutput (schema : TableSchema) (pageSize : Option Nat) (remaining : List WireItem) :
    ReadOutput :=
  let page := remaining.take (pageShare pageSize remaining.length)
  { rows := page.map (keyPart schema.keyDefinitions)
    count := page.length
    scannedCount := page.length
    lastEvaluatedKey :=
      if pageShare pageSize remaining.length < remaining.length then cursorKey schema page
      else none }

theorem pageOutput_keyRendering (hn : table.schema.NamedKeys) (hk : stored.Keyed table.schema)
    (pageSize : Option Nat) (remaining : List WireItem) :
    pageOutput table.keyRendering (stored.pageFrom (fun _ => true)
        (pageShare pageSize remaining.length) remaining) =
      keyOutput table.schema pageSize remaining := by
  have hkeyOf : stored.keyOf = keyPart table.schema.keyDefinitions :=
    funext (stored.keyOf_eq hk.names)
  have hproject : Store.project table.keyRendering.projection
      ⟨table.keyRendering.names, table.keyRendering.values⟩ =
        keyPart table.schema.keyDefinitions := funext (project_keyRendering hn)
  unfold pageOutput keyOutput StoredTable.pageFrom
  simp only [List.filter_true, hproject, hkeyOf, ReadOutput.mk.injEq, true_and]
  split
  · rw [Option.map_map]
    rfl
  · rfl

theorem readPage_cursor (hs : table.schema.ScalarKeys) (hn : table.schema.NamedKeys)
    (hi : Sortable table.schema items)
    (hc : Cursor table.schema items failing stored visited remaining) (pageSize : Option Nat) :
    Store.readPage stored
      (pageRequest .scan (table.sweepSelection (cursorKey table.schema visited))
        table.keyRendering (visited.getLast?.map (keyPart table.schema.keyDefinitions)) pageSize) =
      some (.ok (stored.pageFrom (fun _ => true) (pageShare pageSize remaining.length)
        remaining)) := by
  have hr := render_sweepSelection hn (cursorKey table.schema visited) table.schema.attributes
  have hmeans (startKey : Option WireItem) (item : WireItem) :
      let request := pageRequest .scan (table.sweepSelection (cursorKey table.schema visited))
        table.keyRendering startKey pageSize
      Store.evaluate request.keyCondition request.placeholders item = .ok true ∧
        Store.evaluate request.filter request.placeholders item = .ok true :=
    evaluate_pageRequest (built_sweepSelection table (cursorKey table.schema visited)) hr startKey
      pageSize item
  have hsorted := hc.sortItems?_eq hs hi
  have hwalk : stored.walk stored.keys false (fun _ => true) =
      undeleted table.schema failing visited ++ remaining :=
    (walk_all hc.keyed false).trans (StoredTable.sorted_eq hsorted)
  rw [← hc.keyed.names] at hsorted
  have hsorts (startKey : Option WireItem) :
      let request := pageRequest .scan (table.sweepSelection (cursorKey table.schema visited))
        table.keyRendering startKey pageSize
      stored.Sorts (stored.indexKeys request.indexName) request.descending :=
    StoredTable.sorts_of_eq hsorted
  rcases List.eq_nil_or_concat' visited with rfl | ⟨before, last, rfl⟩
  · refine (Store.readPage_start rfl (hsorts none) (fun item => (hmeans none item).1)
      fun item => (hmeans none item).2).trans ?_
    change some (Except.ok (stored.pageFrom _ (pageShare pageSize
      (stored.walk stored.keys false fun _ => true).length)
        (stored.walk stored.keys false fun _ => true))) = _
    rw [hwalk]
    rfl
  · have hplace := hc.startPlace_eq hs hi
    rw [← hc.keyed.names] at hplace
    rw [List.getLast?_concat, Option.map_some]
    exact Store.readPage_resume rfl (hsorts _) hwalk hplace (fun item => (hmeans _ item).1)
      fun item => (hmeans _ item).2

/-- A scan that is served gives the page at the cursor and is counted. -/
theorem run_scan_cursor (hs : table.schema.ScalarKeys) (hn : table.schema.NamedKeys)
    (hi : Sortable table.schema items)
    (hc : Cursor table.schema items failing stored visited remaining)
    (h : state.tables.get? table.fullName = some stored)
    (hserved : state.scanCalls ∉ state.failingScans) :
    let run := (table.scan (table.sweepSelection (cursorKey table.schema visited))).run backend
      state
    run.value = .ok (keyOutput table.schema state.pageSize remaining) ∧
      run.state = { state with scanCalls := state.scanCalls + 1 } := by
  intro run
  have hpage := readPage_cursor hs hn hi hc state.pageSize
  have hrequest := hc.scanRequest_eq hs hn hi
  refine ⟨?_, (state_run_scan hrequest).trans ?_⟩
  · rw [← pageOutput_keyRendering hn hc.keyed]
    have hencode := encode_cursorKey hs fun item hitem =>
      (hc.ordered hi item (List.mem_append_left _ hitem)).hasKey
    change ((table.read .scan _).run backend state).value = _
    exact value_run_read (render_sweepSelection hn _ _) hencode h (fun _ => hserved) hpage
  · rw [scan_eq h hserved hpage]

end Table

end AttributeStore
