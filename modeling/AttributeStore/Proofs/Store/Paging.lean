import AttributeStore.Proofs.Store.Contents
import AttributeStore.Proofs.Store.ItemSort
import AttributeStore.Proofs.Success
import AttributeStore.Store.Page

/-!
# Pages of a stored table

Where the items can be sorted and its expressions evaluated, a page is a run of the candidates,
filtered afterwards: those from its start on, as many as its limit lets through. `pageFrom` is that
page, and a start key resumes it right behind the item that has the key.
-/

namespace AttributeStore.Store

theorem take_ne_nil {α : Type} {list : List α} {taken : Nat} (hpos : 0 < taken)
    (hlt : taken < list.length) : list.take taken ≠ [] := by
  rw [Ne, List.take_eq_nil_iff, not_or]
  exact ⟨Nat.ne_of_gt hpos, List.ne_nil_of_length_pos (Nat.zero_lt_of_lt hlt)⟩

theorem filterAuxM_eq {α ε : Type} {check : α → Except ε Bool} {keep : α → Bool}
    (h : ∀ a, check a = .ok (keep a)) (list kept : List α) :
    List.filterAuxM check list kept = .ok ((list.filter keep).reverse ++ kept) := by
  induction list generalizing kept with
  | nil => rfl
  | cons a rest ih =>
    rw [List.filterAuxM, h a]
    simp only [bind, Except.bind, ih, List.filter_cons]
    cases keep a <;> simp

theorem selectItems_eq {expression : Option String} {placeholders : Placeholders}
    {keep : WireItem → Bool} (h : ∀ item, evaluate expression placeholders item = .ok (keep item))
    (items : List WireItem) :
    selectItems expression placeholders items = .ok (items.filter keep) := by
  unfold selectItems List.filterM
  rw [filterAuxM_eq h]
  simp [bind, Except.bind, pure, Except.pure]

namespace StoredTable

variable (stored : StoredTable)

/-- The items can be sorted by a key without a panic. -/
def Sorts (keys : KeyNames) (descending : Bool) : Prop :=
  (sortItems? keys descending stored.items).isSome = true

/-- The items in the order of a key, none if the sort panics. -/
def sorted (keys : KeyNames) (descending : Bool) : List WireItem :=
  (sortItems? keys descending stored.items).getD []

/-- The items that a read goes through: those with the hash key, in order, that satisfy a
condition. -/
def walk (keys : KeyNames) (descending : Bool) (holds : WireItem → Bool) : List WireItem :=
  ((stored.sorted keys descending).filter (·.contains keys.hashKey)).filter holds

def pageFrom (keep : WireItem → Bool) (limit : Nat) (remaining : List WireItem) : Page where
  items := (remaining.take limit).filter keep
  scanned := (remaining.take limit).length
  lastEvaluatedKey :=
    if limit < remaining.length then (remaining.take limit).getLast?.map stored.keyOf else none

theorem walk_sublist (keys : KeyNames) (descending : Bool) (holds : WireItem → Bool) :
    (stored.walk keys descending holds).Sublist (stored.sorted keys descending) :=
  List.filter_sublist.trans List.filter_sublist

theorem sorted_subperm (keys : KeyNames) (descending : Bool) :
    (stored.sorted keys descending).Subperm stored.items := by
  unfold sorted
  cases h : sortItems? keys descending stored.items with
  | none => exact List.nil_subperm
  | some sorted => exact (perm_of_sortItems? h).subperm

theorem walk_subperm (keys : KeyNames) (descending : Bool) (holds : WireItem → Bool) :
    (stored.walk keys descending holds).Subperm stored.items :=
  (stored.walk_sublist keys descending holds).subperm.trans (stored.sorted_subperm keys descending)

variable {stored}

theorem mem_of_mem_walk {keys : KeyNames} {descending : Bool} {holds : WireItem → Bool}
    {item : WireItem} (h : item ∈ stored.walk keys descending holds) : item ∈ stored.items :=
  (stored.walk_subperm keys descending holds).subset h

theorem Distinct.walk (hd : stored.Distinct) (keys : KeyNames) (descending : Bool)
    (holds : WireItem → Bool) :
    ((stored.walk keys descending holds).map stored.keyOf).Nodup := by
  obtain ⟨kept, hperm, hsublist⟩ := stored.walk_subperm keys descending holds
  exact ((hperm.map stored.keyOf).nodup_iff).1 (hd.sublist (hsublist.map stored.keyOf))

section Sorted

variable {keys : KeyNames} {descending : Bool}

theorem sorts_of_eq {sorted : List WireItem}
    (h : sortItems? keys descending stored.items = some sorted) : stored.Sorts keys descending := by
  rw [Sorts, h]
  rfl

theorem sorted_eq {sorted : List WireItem}
    (h : sortItems? keys descending stored.items = some sorted) :
    stored.sorted keys descending = sorted := by
  rw [StoredTable.sorted, h, Option.getD_some]

theorem Sorts.sortItems?_eq (h : stored.Sorts keys descending) :
    sortItems? keys descending stored.items = some (stored.sorted keys descending) := by
  obtain ⟨sorted, hsorted⟩ := Option.isSome_iff_exists.1 h
  rw [sorted_eq hsorted, hsorted]

end Sorted

end StoredTable

variable {stored : StoredTable} {request : PageRequest}

theorem candidates_eq {keys : KeyNames} {holds : WireItem → Bool}
    (h : ∀ item, evaluate request.keyCondition request.placeholders item = .ok (holds item)) :
    candidates keys request (stored.sorted keys request.descending) =
      .ok (stored.walk keys request.descending holds) :=
  selectItems_eq h _

theorem readPage_of_sorts
    (hsorts : stored.Sorts (stored.indexKeys request.indexName) request.descending) :
    readPage stored request = some (pageOf stored request
      (stored.sorted (stored.indexKeys request.indexName) request.descending)) := by
  rw [readPage, hsorts.sortItems?_eq, Option.map_some]

theorem readPage_of_not_sorts
    (hsorts : ¬ stored.Sorts (stored.indexKeys request.indexName) request.descending) :
    readPage stored request = none := by
  rw [readPage, Option.not_isSome_iff_eq_none.1 hsorts, Option.map_none]

theorem readPage_start {holds keep : WireItem → Bool} (hs : request.startKey = none)
    (hsorts : stored.Sorts (stored.indexKeys request.indexName) request.descending)
    (h : ∀ item, evaluate request.keyCondition request.placeholders item = .ok (holds item))
    (h' : ∀ item, evaluate request.filter request.placeholders item = .ok (keep item)) :
    let remaining := stored.walk (stored.indexKeys request.indexName) request.descending holds
    readPage stored request =
      some (.ok (stored.pageFrom keep (pageLimit request remaining.length) remaining)) := by
  rw [readPage_of_sorts hsorts]
  unfold pageOf
  simp only [candidates_eq h, hs, selectItems_eq h', bind, Except.bind, pure, Except.pure]
  rfl

/-- The place behind the item of a key, where no two items have the same. -/
theorem startPlace_eq {keys : KeyNames} {descending : Bool} {items before after : List WireItem}
    {last : WireItem} (hd : (items.map stored.keyOf).Nodup) (hi : items = before ++ last :: after) :
    startPlace stored keys descending (stored.keyOf last) items = before.length + 1 := by
  have hplace : items.findIdx? (fun item => stored.keyOf item = stored.keyOf last) =
      some before.length := by
    subst hi
    rw [List.map_append, List.map_cons, List.nodup_append] at hd
    have hbefore : before.findIdx? (fun item => stored.keyOf item = stored.keyOf last) = none := by
      rw [List.findIdx?_eq_none_iff]
      intro item hitem
      exact decide_eq_false (hd.2.2 _ (List.mem_map_of_mem hitem) _ List.mem_cons_self)
    rw [List.findIdx?_append, hbefore, List.findIdx?_cons]
    simp
  unfold startPlace
  rw [hplace]

/-- The place behind what does not come after a key, where no item has it. -/
theorem startPlace_gone {keys : KeyNames} {descending : Bool} {before after : List WireItem}
    {key : WireItem} (hgone : ∀ item ∈ before ++ after, stored.keyOf item ≠ key)
    (hbefore : ∀ item ∈ before, compareItems keys descending item key ≠ .gt)
    (hafter : ∀ item ∈ after, compareItems keys descending item key = .gt) :
    startPlace stored keys descending key (before ++ after) = before.length := by
  have hnone : (before ++ after).findIdx? (fun item => stored.keyOf item = key) = none := by
    rw [List.findIdx?_eq_none_iff]
    intro item hitem
    exact decide_eq_false (hgone item hitem)
  have hskipped : before.findIdx? (fun item => compareItems keys descending item key = .gt) =
      none := by
    rw [List.findIdx?_eq_none_iff]
    intro item hitem
    exact decide_eq_false (hbefore item hitem)
  unfold startPlace
  rw [hnone]
  dsimp only
  rw [List.findIdx?_append, hskipped]
  cases after with
  | nil => simp
  | cons item rest => simp [List.findIdx?_cons, hafter item List.mem_cons_self]

theorem readPage_drop {holds keep : WireItem → Bool} {key : WireItem}
    (hs : request.startKey = some key)
    (hsorts : stored.Sorts (stored.indexKeys request.indexName) request.descending)
    (h : ∀ item, evaluate request.keyCondition request.placeholders item = .ok (holds item))
    (h' : ∀ item, evaluate request.filter request.placeholders item = .ok (keep item)) :
    let keys := stored.indexKeys request.indexName
    let all := stored.walk keys request.descending holds
    let remaining := all.drop (startPlace stored keys request.descending key all)
    readPage stored request =
      some (.ok (stored.pageFrom keep (pageLimit request remaining.length) remaining)) := by
  rw [readPage_of_sorts hsorts]
  unfold pageOf
  simp only [candidates_eq h, hs, bind, Except.bind, pure, Except.pure, selectItems_eq h']
  rfl

theorem readPage_resume {holds keep : WireItem → Bool} {before after : List WireItem}
    {key : WireItem} (hs : request.startKey = some key)
    (hsorts : stored.Sorts (stored.indexKeys request.indexName) request.descending)
    (hw : stored.walk (stored.indexKeys request.indexName) request.descending holds =
      before ++ after)
    (hplace : startPlace stored (stored.indexKeys request.indexName) request.descending key
      (before ++ after) = before.length)
    (h : ∀ item, evaluate request.keyCondition request.placeholders item = .ok (holds item))
    (h' : ∀ item, evaluate request.filter request.placeholders item = .ok (keep item)) :
    readPage stored request =
      some (.ok (stored.pageFrom keep (pageLimit request after.length) after)) := by
  rw [readPage_drop hs hsorts h h', hw, hplace, List.drop_left]

/-- A start key resumes a read right behind the item that has it. -/
theorem readPage_behind {holds keep : WireItem → Bool} {before after : List WireItem}
    {last : WireItem} (hd : stored.Distinct)
    (hs : request.startKey = some (stored.keyOf last))
    (hsorts : stored.Sorts (stored.indexKeys request.indexName) request.descending)
    (hw : stored.walk (stored.indexKeys request.indexName) request.descending holds =
      before ++ last :: after)
    (h : ∀ item, evaluate request.keyCondition request.placeholders item = .ok (holds item))
    (h' : ∀ item, evaluate request.filter request.placeholders item = .ok (keep item)) :
    readPage stored request =
      some (.ok (stored.pageFrom keep (pageLimit request after.length) after)) := by
  have hsplit : before ++ last :: after = (before ++ [last]) ++ after := by
    rw [List.append_assoc, List.singleton_append]
  have hkeys := hd.walk (stored.indexKeys request.indexName) request.descending holds
  rw [hw, hsplit] at hkeys
  refine readPage_resume hs hsorts (hw.trans hsplit) ?_ h h'
  rw [startPlace_eq hkeys hsplit.symm, List.length_append, List.length_singleton]

end AttributeStore.Store
