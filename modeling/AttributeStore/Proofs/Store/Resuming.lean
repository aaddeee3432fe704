import AttributeStore.Proofs.Store.IndexOrder
import AttributeStore.Proofs.Store.Paging

/-!
# Pages behind an item that is gone

A page that is asked to go on behind a key finds the item that has it, as long as that is there.
When it was deleted, all that the store knows of it is the key, and it takes the items that come
after the key in the order of the index. For these to be the items that came after the deleted one,
the key must tell what the index reads of an item; it tells nothing of the other attributes, and an
item that has one of those comes after all that lack it.
-/

namespace AttributeStore.Store

/-- Where only elements of a kind follow one, leaving out a list up to the first is choosing the
kind. -/
theorem drop_findIdx?_of_pairwise {α : Type} {kind : α → Bool} {list : List α}
    (h : list.Pairwise fun a b => kind a = true → kind b = true) :
    list.drop ((list.findIdx? kind).getD list.length) = list.filter kind := by
  induction list with
  | nil => rfl
  | cons a rest ih =>
    obtain ⟨hrest, h⟩ := List.pairwise_cons.1 h
    rw [List.findIdx?_cons]
    cases ha : kind a with
    | true =>
      rw [List.filter_cons_of_pos ha, List.filter_eq_self.2 fun b hb => hrest b hb ha]
      rfl
    | false =>
      rw [List.filter_cons_of_neg (by simp [ha]), ← ih h]
      cases rest.findIdx? kind <;> rfl

theorem ComparableBy.keyOf {keys : KeyNames} {item start : WireItem}
    (h : ComparableBy keys item start) (stored : StoredTable) :
    ComparableBy keys item (stored.keyOf start) := by
  intro name hname held hheld held' hheld'
  rw [StoredTable.keyOf, Named.get?_filterNames] at hheld'
  split at hheld'
  · exact h name hname held hheld held' hheld'
  · cases hheld'

namespace StoredTable

variable {stored : StoredTable} {keys : KeyNames} {descending : Bool} {start : WireItem}

/-! ## Deleting -/

def deleteAll (stored : StoredTable) (deleted : List WireItem) : StoredTable :=
  deleted.foldl delete stored

@[simp] theorem keyOf_deleteAll (stored : StoredTable) (deleted : List WireItem) :
    (stored.deleteAll deleted).keyOf = stored.keyOf := by
  induction deleted generalizing stored with
  | nil => rfl
  | cons key rest ih => exact (ih (stored.delete key)).trans (keyOf_delete stored key)

theorem indexKeys_delete (stored : StoredTable) (key : WireItem) (indexName : Option String) :
    (stored.delete key).indexKeys indexName = stored.indexKeys indexName := by
  unfold delete
  split <;> rfl

@[simp] theorem indexKeys_deleteAll (stored : StoredTable) (deleted : List WireItem)
    (indexName : Option String) :
    (stored.deleteAll deleted).indexKeys indexName = stored.indexKeys indexName := by
  induction deleted generalizing stored with
  | nil => rfl
  | cons key rest ih => exact (ih (stored.delete key)).trans (indexKeys_delete stored key indexName)

theorem Distinct.deleteAll (hd : stored.Distinct) (deleted : List WireItem) :
    (stored.deleteAll deleted).Distinct := by
  induction deleted generalizing stored with
  | nil => exact hd
  | cons key rest ih => exact ih (hd.delete key)

def survives (stored : StoredTable) (deleted : List WireItem) (item : WireItem) : Bool :=
  stored.keyOf item ∉ deleted

theorem items_deleteAll (hd : stored.Distinct) (deleted : List WireItem) :
    (stored.deleteAll deleted).items = stored.items.filter (stored.survives deleted) := by
  induction deleted generalizing stored with
  | nil => exact (List.filter_eq_self.2 fun item _ => rfl).symm
  | cons key rest ih =>
    refine (ih (hd.delete key)).trans ?_
    rw [items_delete hd, List.filter_filter]
    refine List.filter_congr fun item _ => ?_
    simp [survives, Bool.and_comm]

theorem sorted_of_comparableBy
    (hc : ∀ left ∈ stored.items, ∀ right ∈ stored.items, ComparableBy keys left right)
    (descending : Bool) :
    stored.sorted keys descending = sortItems keys descending stored.items :=
  sorted_eq (sortItems?_of_comparableBy hc descending)

theorem comparableBy_deleteAll (hd : stored.Distinct)
    (hc : ∀ left ∈ stored.items, ∀ right ∈ stored.items, ComparableBy keys left right)
    (deleted : List WireItem) :
    ∀ left ∈ (stored.deleteAll deleted).items, ∀ right ∈ (stored.deleteAll deleted).items,
      ComparableBy keys left right := by
  rw [items_deleteAll hd]
  exact fun left hl right hr =>
    hc left (List.mem_of_mem_filter hl) right (List.mem_of_mem_filter hr)

/-- Deletes leave the other items of a read in their order. -/
theorem walk_deleteAll (hd : stored.Distinct)
    (hc : ∀ left ∈ stored.items, ∀ right ∈ stored.items, ComparableBy keys left right)
    (descending : Bool) (holds : WireItem → Bool) (deleted : List WireItem) :
    (stored.deleteAll deleted).walk keys descending holds =
      (stored.walk keys descending holds).filter (stored.survives deleted) := by
  unfold walk
  rw [sorted_of_comparableBy hc, sorted_of_comparableBy (comparableBy_deleteAll hd hc deleted),
    items_deleteAll hd, sortItems_filter_of_comparableBy hc,
    List.filter_comm (stored.survives deleted) holds, List.filter_comm (stored.survives deleted)]

/-! ## Going on by the order -/

theorem get?_keyOf_of_mem_names (stored : StoredTable) (item : WireItem) {name : String}
    (h : name ∈ stored.keys.names) : (stored.keyOf item).get? name = item.get? name := by
  have hname : name = stored.keys.hashKey ∨ some name = stored.keys.rangeKey := by
    simpa [KeyNames.names, eq_comm] using h
  rw [keyOf, Named.get?_filterNames, if_pos (by simpa using hname)]

theorem contains_of_mem_walk {holds : WireItem → Bool} {item : WireItem}
    (h : item ∈ stored.walk keys descending holds) : item.contains keys.hashKey = true := by
  unfold walk at h
  rw [List.mem_filter, List.mem_filter] at h
  exact h.1.2

/-- Where no item has a key, the items behind its place are those that come after it. -/
theorem drop_startPlace_of_gone {key : WireItem} {all : List WireItem}
    (hs : all.Pairwise fun left right => (indexOrder keys descending left right).isLE)
    (hc : ∀ item ∈ all, ComparableBy keys item key)
    (hgone : ∀ item ∈ all, stored.keyOf item ≠ key) :
    all.drop (startPlace stored keys descending key all) =
      all.filter fun item => compareItems keys descending item key = .gt := by
  have hnone : all.findIdx? (fun item => stored.keyOf item = key) = none := by
    rw [List.findIdx?_eq_none_iff]
    exact fun item hitem => decide_eq_false (hgone item hitem)
  unfold startPlace
  rw [hnone]
  refine drop_findIdx?_of_pairwise (hs.imp_of_mem ?_)
  intro left right hl hr hle
  rw [decide_eq_true_eq, decide_eq_true_eq, compareItems_of_comparableBy (hc left hl),
    compareItems_of_comparableBy (hc right hr)]
  exact Std.TransCmp.gt_of_isGE_of_gt (Std.OrientedCmp.isGE_iff_isLE.2 hle)

variable {holds : WireItem → Bool} {before after : List WireItem}

theorem pairwise_walk
    (hc : ∀ left ∈ stored.items, ∀ right ∈ stored.items, ComparableBy keys left right)
    (descending : Bool) (holds : WireItem → Bool) :
    (stored.walk keys descending holds).Pairwise fun left right =>
      (indexOrder keys descending left right).isLE := by
  have hsorted := pairwise_sortItems hc descending
  rw [← sorted_of_comparableBy hc] at hsorted
  exact hsorted.sublist (stored.walk_sublist keys descending holds)

section Deleted

variable (hd : stored.Distinct)
  (hc : ∀ left ∈ stored.items, ∀ right ∈ stored.items, ComparableBy keys left right)
  (hw : stored.walk keys descending holds = before ++ start :: after) {deleted : List WireItem}
include hd hc hw

theorem drop_startPlace_of_survives (hs : stored.keyOf start ∉ deleted) :
    let left := stored.deleteAll deleted
    let all := left.walk keys descending holds
    all.drop (startPlace left keys descending (stored.keyOf start) all) =
      after.filter (stored.survives deleted) := by
  intro left all
  have hall : all = before.filter (stored.survives deleted) ++
      start :: after.filter (stored.survives deleted) := by
    have hkept : stored.survives deleted start = true := decide_eq_true hs
    rw [← List.filter_cons_of_pos hkept, ← List.filter_append, ← hw]
    exact walk_deleteAll hd hc descending holds deleted
  have hkeys := (hd.deleteAll deleted).walk keys descending holds
  have hkey : stored.keyOf start = left.keyOf start := by rw [keyOf_deleteAll]
  rw [hkey, startPlace_eq hkeys hall, hall, ← List.singleton_append, ← List.append_assoc]
  exact List.drop_left' List.length_append

theorem drop_startPlace_of_deleted (hs : stored.keyOf start ∈ deleted) :
    let left := stored.deleteAll deleted
    let all := left.walk keys descending holds
    all.drop (startPlace left keys descending (stored.keyOf start) all) =
      ((before ++ after).filter (stored.survives deleted)).filter fun item =>
        compareItems keys descending item (stored.keyOf start) = .gt := by
  intro left all
  have hmem {item : WireItem} (h : item ∈ stored.walk keys descending holds) :
      item ∈ stored.items := mem_of_mem_walk h
  have hstart : start ∈ stored.items := hmem (by rw [hw]; simp)
  have hwalk : all = (stored.walk keys descending holds).filter (stored.survives deleted) :=
    walk_deleteAll hd hc descending holds deleted
  have hall : all = (before ++ after).filter (stored.survives deleted) := by
    have hgone : ¬stored.survives deleted start = true := by simp [survives, hs]
    rw [hwalk, hw, List.filter_append, List.filter_cons_of_neg hgone, ← List.filter_append]
  have hsorted : all.Pairwise fun left right => (indexOrder keys descending left right).isLE := by
    rw [hwalk]
    exact (pairwise_walk hc descending holds).filter _
  rw [drop_startPlace_of_gone hsorted, hall]
  · intro item hitem
    rw [hwalk] at hitem
    exact (hc item (hmem (List.mem_of_mem_filter hitem)) start hstart).keyOf stored
  · intro item hitem hkey
    rw [hwalk] at hitem
    have hkept := List.of_mem_filter hitem
    rw [keyOf_deleteAll] at hkey
    simp [survives, hkey, hs] at hkept

end Deleted

/-- Where the key tells all that the index reads of an item, what comes after the key is what came
after the item. -/
theorem filter_of_key_tells
    (hc : ∀ left ∈ stored.items, ∀ right ∈ stored.items, ComparableBy keys left right)
    (hw : stored.walk keys descending holds = before ++ start :: after)
    (hu : (stored.walk keys descending holds).Pairwise fun left right =>
      compareItems keys descending left right ≠ .eq)
    (hk : ∀ name ∈ keys.names, (stored.keyOf start).get? name = start.get? name)
    (keep : WireItem → Bool) :
    ((before ++ after).filter keep).filter (fun item =>
      compareItems keys descending item (stored.keyOf start) = .gt) = after.filter keep := by
  have hle : (stored.walk keys descending holds).Pairwise fun left right =>
      (compareItems keys descending left right).isLE := by
    refine (pairwise_walk hc descending holds).imp_of_mem ?_
    intro left right hl hr hle
    rwa [compareItems_of_comparableBy (hc left (mem_of_mem_walk hl) right (mem_of_mem_walk hr))]
  have hlt : (stored.walk keys descending holds).Pairwise fun left right =>
      compareItems keys descending left right = .lt :=
    hle.imp₂ (fun _ _ hle => (Ordering.isLE_iff_eq_lt_or_eq_eq.1 hle).resolve_right) hu
  rw [hw] at hlt
  obtain ⟨-, hafter, hbefore⟩ := List.pairwise_append.1 hlt
  have hnone : (before.filter keep).filter (fun item =>
      compareItems keys descending item start = .gt) = [] := by
    refine List.filter_eq_nil_iff.2 fun item hitem => ?_
    simp [hbefore item (List.mem_of_mem_filter hitem) start List.mem_cons_self]
  have hself : (after.filter keep).filter (fun item =>
      compareItems keys descending item start = .gt) = after.filter keep := by
    refine List.filter_eq_self.2 fun item hitem => decide_eq_true ?_
    exact Std.OrientedCmp.gt_of_lt (List.rel_of_pairwise_cons hafter (List.mem_of_mem_filter hitem))
  simp only [compareItems_congr_right hk]
  rw [List.filter_append, List.filter_append, hnone, hself, List.nil_append]

end StoredTable

/-- Every item with its attribute comes after a key without the hash key of an index, upwards, and
before it, downwards. -/
theorem compareItems_of_no_hash {keys : KeyNames} {item key : WireItem} (descending : Bool)
    (hk : key.get? keys.hashKey = none) (hi : item.contains keys.hashKey = true) :
    compareItems keys descending item key = if descending then .lt else .gt := by
  obtain ⟨held, hheld⟩ := (Named.contains_iff item keys.hashKey).1 hi
  unfold compareItems
  rw [hheld, hk]
  cases descending <;> rfl

/-- By a key without the range key of an index, an item is compared by the hash key, and an equal
one is after it upwards if it has the range key. -/
theorem compareItems_of_no_range {keys : KeyNames} {item start key : WireItem} {rangeKey : String}
    (descending : Bool) (hr : keys.rangeKey = some rangeKey)
    (hhash : key.get? keys.hashKey = start.get? keys.hashKey) (hrange : key.get? rangeKey = none) :
    compareItems keys descending item key = .gt ↔
      compareItems { keys with rangeKey := none } descending item start = .gt ∨
        descending = false ∧
          compareItems { keys with rangeKey := none } descending item start = .eq ∧
          item.contains rangeKey = true := by
  unfold compareItems
  simp only [hr, hhash, hrange, Named.contains]
  generalize compareOptional (item.get? keys.hashKey) (start.get? keys.hashKey) = byHash
  cases item.get? rangeKey <;> cases byHash <;> cases descending <;> simp [compareOptional]

namespace StoredTable

/-- What a read of an index goes on with behind an item, when the items of some keys were deleted.
`before` and `after` are the items of the read on the two sides of that item. -/
structure Resumes (stored : StoredTable) (keys : KeyNames) (descending : Bool)
    (deleted before : List WireItem) (start : WireItem) (after resumed : List WireItem) :
    Prop where
  /-- The items that came after it, if it is there, if the read is one of the table itself, or if
  its key tells all that the index reads. -/
  after_start : (stored.keyOf start ∉ deleted ∨ keys = stored.keys ∨
      ∀ name ∈ keys.names, (stored.keyOf start).get? name = start.get? name) →
    resumed = after.filter (stored.survives deleted)
  /-- All items, or downwards none, if it is gone and its key does not tell the hash key of the
  index. -/
  anew : stored.keyOf start ∈ deleted → (stored.keyOf start).get? keys.hashKey = none →
    resumed = if descending then [] else (before ++ after).filter (stored.survives deleted)
  /-- The items of later hash keys, and upwards all those of its own hash key that have a range key,
  if it is gone and its key tells the hash key of the index only. -/
  by_hash : stored.keyOf start ∈ deleted → ∀ rangeKey, keys.rangeKey = some rangeKey →
    (stored.keyOf start).get? keys.hashKey = start.get? keys.hashKey →
    (stored.keyOf start).get? rangeKey = none →
    resumed = ((before ++ after).filter (stored.survives deleted)).filter fun item =>
      let byHash := compareItems { keys with rangeKey := none } descending item start
      byHash = .gt ∨ descending = false ∧ byHash = .eq ∧ item.contains rangeKey = true

variable {stored : StoredTable} {keys : KeyNames} {descending : Bool} {start : WireItem}
  {holds : WireItem → Bool} {before after : List WireItem}

theorem resumes_drop_startPlace (hd : stored.Distinct)
    (hc : ∀ left ∈ stored.items, ∀ right ∈ stored.items, ComparableBy keys left right)
    (hu : (stored.walk keys descending holds).Pairwise fun left right =>
      compareItems keys descending left right ≠ .eq)
    (hw : stored.walk keys descending holds = before ++ start :: after)
    (deleted : List WireItem) :
    let left := stored.deleteAll deleted
    let all := left.walk keys descending holds
    stored.Resumes keys descending deleted before start after
      (all.drop (startPlace left keys descending (stored.keyOf start) all)) := by
  intro left all
  have hgone : stored.keyOf start ∈ deleted → _ := drop_startPlace_of_deleted hd hc hw
  constructor
  case after_start =>
    intro htold
    by_cases hs : stored.keyOf start ∈ deleted
    · refine (hgone hs).trans (filter_of_key_tells hc hw hu ?_ _)
      rcases htold with hkept | rfl | htold
      · exact (hkept hs).elim
      · exact fun name hname => stored.get?_keyOf_of_mem_names start hname
      · exact htold
    · exact drop_startPlace_of_survives hd hc hw hs
  case anew =>
    intro hs hnone
    have hhash : ∀ item ∈ (before ++ after).filter (stored.survives deleted),
        item.contains keys.hashKey = true := by
      intro item hitem
      have hmem : item ∈ before ++ start :: after :=
        ((List.sublist_cons_self start after).append_left before).mem (List.mem_of_mem_filter hitem)
      rw [← hw] at hmem
      exact contains_of_mem_walk hmem
    refine (hgone hs).trans ?_
    cases descending with
    | false =>
      refine List.filter_eq_self.2 fun item hitem => decide_eq_true ?_
      exact compareItems_of_no_hash false hnone (hhash item hitem)
    | true =>
      refine List.filter_eq_nil_iff.2 fun item hitem => ?_
      simp [compareItems_of_no_hash true hnone (hhash item hitem)]
  case by_hash =>
    intro hs rangeKey hrange hhash hnone
    refine (hgone hs).trans (List.filter_congr fun item _ => decide_eq_decide.2 ?_)
    exact compareItems_of_no_range descending hrange hhash hnone

end StoredTable

end AttributeStore.Store
