import AttributeStore.Proofs.Store.Reachable
import AttributeStore.Proofs.Store.Resuming
import AttributeStore.Proofs.Table.Listing

/-!
# Reads that go on behind an item that is gone

Between a page and the next one, items may be deleted, also the one with which the page ended. A
read of the table itself still goes on with the items that came after it. A read of an index does
only if the key of the table tells what the index reads: upwards it goes back, downwards it skips
items.
-/

namespace AttributeStore

open Store (StoredTable Page compareItems)

namespace Store.StoredTable

variable {stored : StoredTable} {request : PageRequest} {holds keep : WireItem → Bool}

/-- A page of a read is made of the items from some place on. -/
theorem readPage_suffix
    (hsorts : stored.Sorts (stored.indexKeys request.indexName) request.descending)
    (h : ∀ item, evaluate request.keyCondition request.placeholders item = .ok (holds item))
    (h' : ∀ item, evaluate request.filter request.placeholders item = .ok (keep item)) :
    ∃ remaining, remaining <:+ stored.walk (stored.indexKeys request.indexName)
        request.descending holds ∧
      readPage stored request =
        some (.ok (stored.pageFrom keep (pageLimit request remaining.length) remaining)) := by
  cases hs : request.startKey with
  | none => exact ⟨_, List.suffix_rfl, readPage_start hs hsorts h h'⟩
  | some key => exact ⟨_, List.drop_suffix _ _, readPage_drop hs hsorts h h'⟩

theorem exists_of_lastEvaluatedKey {page : Page} {key : WireItem}
    (hsorts : stored.Sorts (stored.indexKeys request.indexName) request.descending)
    (h : ∀ item, evaluate request.keyCondition request.placeholders item = .ok (holds item))
    (h' : ∀ item, evaluate request.filter request.placeholders item = .ok (keep item))
    (hp : readPage stored request = some (.ok page)) (hk : page.lastEvaluatedKey = some key) :
    ∃ before start after, stored.walk (stored.indexKeys request.indexName) request.descending
      holds = before ++ start :: after ∧ stored.keyOf start = key := by
  obtain ⟨remaining, hsuffix, hpage⟩ := readPage_suffix hsorts h h'
  obtain rfl := Except.ok.inj (Option.some.inj (hpage.symm.trans hp))
  unfold pageFrom at hk
  dsimp only at hk
  split at hk
  · obtain ⟨start, hstart, rfl⟩ := Option.map_eq_some_iff.1 hk
    have hmem := hsuffix.subset (List.mem_of_mem_take (List.mem_of_getLast? hstart))
    obtain ⟨before, after, hsplit⟩ := List.append_of_mem hmem
    exact ⟨before, start, after, hsplit, rfl⟩
  · cases hk

end Store.StoredTable

namespace Table

variable {state : Store.State} {stored : StoredTable} {name : String} {kind : ReadKind}
  {selection : Selection} {attributes : Catalog} {rendering : Rendering}

/-- When items were deleted behind a page, the next page goes on at the place of the last key, and
with the items of `Resumes`: those left of the items that came after the last one, unless this is
gone and its key does not tell what the index reads. -/
theorem readPage_resumes_after_deletes (hs : state.Reachable)
    (h : state.tables.get? name = some stored) (hb : selection.Built)
    (hr : selection.render kind attributes = .ok rendering)
    (hc : ∀ left ∈ stored.items, ∀ right ∈ stored.items,
      Store.ComparableBy (stored.indexKeys selection.indexName) left right)
    (hu : (stored.walk (stored.indexKeys selection.indexName) (selection.reverses kind)
      (selection.walks attributes kind)).Pairwise fun left right =>
        compareItems (stored.indexKeys selection.indexName) (selection.reverses kind)
          left right ≠ .eq)
    {startKey : Option WireItem} {pageSize : Option Nat} {page : Page} {key : WireItem}
    (hp : Store.readPage stored (pageRequest kind selection rendering startKey pageSize) =
      some (.ok page))
    (hk : page.lastEvaluatedKey = some key) (deleted : List WireItem) (limit : Option Int)
    (nextSize : Option Nat) :
    let keys := stored.indexKeys selection.indexName
    let next := pageRequest kind { selection with limit } rendering (some key) nextSize
    let left := stored.deleteAll deleted
    ∃ before start after resumed,
      stored.walk keys (selection.reverses kind) (selection.walks attributes kind) =
        before ++ start :: after ∧
      stored.keyOf start = key ∧
      Store.readPage left next = some (.ok (left.pageFrom (selection.keeps attributes kind)
        (Store.pageLimit next resumed.length) resumed)) ∧
      stored.Resumes keys (selection.reverses kind) deleted before start after resumed := by
  intro keys next left
  have hfirst := evaluate_pageRequest hb hr startKey pageSize
  have hnext := evaluate_pageRequest hb hr (some key) nextSize
  have hsorts :
      let request := pageRequest kind selection rendering startKey pageSize
      stored.Sorts (stored.indexKeys request.indexName) request.descending :=
    Store.StoredTable.sorts_of_eq (Store.sortItems?_of_comparableBy hc _)
  obtain ⟨before, start, after, hw, rfl⟩ := Store.StoredTable.exists_of_lastEvaluatedKey
    hsorts (fun item => (hfirst item).1) (fun item => (hfirst item).2) hp hk
  have hd : stored.Distinct := hs.keysDistinct name stored h
  have hindex : left.indexKeys next.indexName = keys :=
    stored.indexKeys_deleteAll deleted selection.indexName
  have hsorts' : left.Sorts (left.indexKeys next.indexName) next.descending := by
    have hleft := Store.StoredTable.comparableBy_deleteAll hd hc deleted
    rw [hindex]
    exact Store.StoredTable.sorts_of_eq (Store.sortItems?_of_comparableBy hleft _)
  have hpage : Store.readPage left next = _ :=
    Store.readPage_drop rfl hsorts' (fun item => (hnext item).1) fun item => (hnext item).2
  refine ⟨before, start, after, _, hw, rfl, hpage, ?_⟩
  rw [hindex]
  exact Store.StoredTable.resumes_drop_startPlace hd hc hu hw deleted

def teamMember (id age : String) : WireItem :=
  Named.ofList [("id", .leaf (.string id)), ("team", .leaf (.string "red")),
    ("age", .leaf (.number age))]

def personKey (id : String) : WireItem :=
  Named.singleton "id" (.leaf (.string id))

def redStored : StoredTable :=
  { Store.State.created (teams.toCreateRequest "dev_") with
    items := [teamMember "ada" "1", teamMember "bob" "2", teamMember "cal" "3"] }

def redState : Store.State :=
  .afterCalls {} <| ⟨.createTable, teams.toCreateRequest "dev_"⟩ ::
    redStored.items.map fun item =>
      ⟨.putItem, { tableName := some "dev_people", item := some item }⟩

def firstTwo : Selection :=
  .build [.setLimit 2]

def youngestTwo : Selection :=
  .build [.add ⟨"team", .compare .equal (.leaf (.string "red")), .key, .and⟩, .setIndex "by_team",
    .setLimit 2]

theorem readPage_resumes_after_deletes_bob :
    redState.Reachable ∧ redState.tables.get? "dev_people" = some redStored ∧ firstTwo.Built ∧
    firstTwo.render .scan ∅ = .ok {} ∧
    (∀ left ∈ redStored.items, ∀ right ∈ redStored.items,
      Store.ComparableBy redStored.keys left right) ∧
    ((redStored.walk redStored.keys false fun _ => true).Pairwise fun left right =>
      compareItems redStored.keys false left right ≠ .eq) ∧
    Store.readPage redStored (pageRequest .scan firstTwo {} none none) =
      some (.ok ⟨[teamMember "ada" "1", teamMember "bob" "2"], 2, some (personKey "bob")⟩) ∧
    ∃ before start after,
      redStored.walk redStored.keys false (fun _ => true) = before ++ start :: after ∧
      redStored.keyOf start = personKey "bob" ∧
      let next := pageRequest .scan firstTwo {} (some (personKey "bob")) none
      let left := redStored.deleteAll [personKey "bob"]
      let resumed := after.filter (redStored.survives [personKey "bob"])
      Store.readPage left next = some (.ok (left.pageFrom (firstTwo.keeps ∅ .scan)
        (Store.pageLimit next resumed.length) resumed)) := by
  have hreachable : redState.Reachable := Store.State.Reachable.empty.afterCalls _
  have hstored : redState.tables.get? "dev_people" = some redStored := rfl
  have hbuilt : firstTwo.Built := Selection.built_iff.2 ⟨_, rfl⟩
  have hcomparable : ∀ left ∈ redStored.items, ∀ right ∈ redStored.items,
      Store.ComparableBy redStored.keys left right := by decide +kernel
  have huntied : (redStored.walk redStored.keys false fun _ => true).Pairwise fun left right =>
      compareItems redStored.keys false left right ≠ .eq := by decide +kernel
  have hrender : firstTwo.render .scan ∅ = .ok {} := rfl
  have hpage : Store.readPage redStored (pageRequest .scan firstTwo {} none none) =
      some (.ok ⟨[teamMember "ada" "1", teamMember "bob" "2"], 2, some (personKey "bob")⟩) := rfl
  refine ⟨hreachable, hstored, hbuilt, hrender, hcomparable, huntied, hpage, ?_⟩
  obtain ⟨before, start, after, resumed, hw, hkey, hnext, hresumes⟩ :=
    readPage_resumes_after_deletes hreachable hstored hbuilt hrender hcomparable huntied hpage rfl
      [personKey "bob"] (some 2) none
  obtain rfl := hresumes.after_start (.inr (.inl rfl))
  exact ⟨before, start, after, hw, hkey, hnext⟩

/-- The items and the last key of a page of the two youngest people. -/
def youngestPage (stored : StoredTable) (startKey : Option WireItem) :
    Option (List WireItem × Option WireItem) :=
  (youngestTwo.render .query teams.attributes).toOption.bind fun rendering =>
    (Store.readPage stored (pageRequest .query youngestTwo rendering startKey none)).bind
      fun page => page.toOption.map fun page => (page.items, page.lastEvaluatedKey)

/-- A read of an index that ended with somebody who is then deleted gives the person before that one
again. -/
theorem readPage_of_index_goes_back :
    redState.tables.get? "dev_people" = some redStored ∧
    (∀ left ∈ redStored.items, ∀ right ∈ redStored.items,
      Store.ComparableBy (redStored.indexKeys (some "by_team")) left right) ∧
    (redStored.items.Pairwise fun left right =>
      compareItems (redStored.indexKeys (some "by_team")) false left right ≠ .eq) ∧
    youngestPage redStored none =
      some ([teamMember "ada" "1", teamMember "bob" "2"], some (personKey "bob")) ∧
    youngestPage (redStored.deleteAll [personKey "bob"]) (some (personKey "bob")) =
      some ([teamMember "ada" "1", teamMember "cal" "3"], none) :=
  ⟨rfl, by decide +kernel⟩

end Table

end AttributeStore
