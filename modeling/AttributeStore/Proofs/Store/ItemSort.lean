import AttributeStore.Proofs.Store.Quicksort

/-!
# Sorting items

The sort of the store keeps the items, whatever their order says. It does not panic where that order
is a weak one of the items at hand, or where there are at most twenty of them, and then gives what
insertion gives.
-/

namespace AttributeStore.Store

section

variable {α : Type} {cmp : α → α → Ordering} {list sorted : List α}

theorem perm_of_sortBy (h : sortBy (before cmp) list = some sorted) : sorted.Perm list :=
  ((yields_sortBy cmp list).wanted sorted h).perm

/-- For a weak order the sort has a result, the same as insertion. -/
theorem sortBy_eq_sort [Std.TransCmp cmp] (list : List α) :
    sortBy (before cmp) list = some (sort (before cmp) list) := by
  have hyields := yields_sortBy cmp list
  obtain ⟨sorted, hsorted⟩ := Option.isSome_iff_exists.1 (hyields.isSome ‹_›)
  rw [hsorted, (hyields.wanted sorted hsorted).eq_sort ‹_›]

end

variable {keys : KeyNames} {descending : Bool} {items sorted : List WireItem}

theorem perm_of_sortItems? (h : sortItems? keys descending items = some sorted) :
    sorted.Perm items := by
  obtain ⟨found, hfound, rfl⟩ := Option.map_eq_some_iff.1 h
  have hperm := (perm_of_sortBy hfound).map Subtype.val
  rwa [items.attach_map_subtype_val] at hperm

theorem sortItems_eq_map_attach (keys : KeyNames) (descending : Bool) (items : List WireItem) :
    sortItems keys descending items =
      (sort (before fun left right : {item // item ∈ items} =>
        compareItems keys descending left.1 right.1) items.attach).map Subtype.val := by
  conv => lhs; rw [← items.attach_map_subtype_val]
  exact sort_map _ _ _

theorem sortItems?_of_transCmp
    (h : Std.TransCmp fun left right : {item // item ∈ items} =>
      compareItems keys descending left.1 right.1) :
    sortItems? keys descending items = some (sortItems keys descending items) := by
  rw [sortItems_eq_map_attach]
  exact congrArg (Option.map _) (sortBy_eq_sort items.attach)

theorem sortItems?_of_agrees {cmp : WireItem → WireItem → Ordering} [Std.TransCmp cmp]
    (h : ∀ left ∈ items, ∀ right ∈ items,
      compareItems keys descending left right = cmp left right) :
    sortItems? keys descending items = some (sortItems keys descending items) := by
  apply sortItems?_of_transCmp
  have heq : (fun left right : {item // item ∈ items} =>
      compareItems keys descending left.1 right.1) = fun left right => cmp left.1 right.1 :=
    funext fun left => funext fun right => h left.1 left.2 right.1 right.2
  rw [heq]
  exact { eq_swap := Std.OrientedCmp.eq_swap, isLE_trans := Std.TransCmp.isLE_trans }

theorem WeaklyOrdered.sortItems?_eq (h : WeaklyOrdered keys items) (descending : Bool) :
    sortItems? keys descending items = some (sortItems keys descending items) :=
  sortItems?_of_transCmp (h.transCmp descending)

/-- Up to twenty items are inserted one after the other, whatever their order says. -/
theorem sortItems?_of_length_le (h : items.length ≤ 20) (keys : KeyNames) (descending : Bool) :
    sortItems? keys descending items = some (sortItems keys descending items) := by
  rw [sortItems_eq_map_attach, sortItems?, sortBy, List.length_attach, if_pos h]
  rfl

end AttributeStore.Store
