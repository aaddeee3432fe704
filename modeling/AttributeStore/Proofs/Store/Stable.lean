import AttributeStore.Proofs.Store.Order
import Mathlib.Order.Defs.Unbundled

/-!
# Stable sorting

A stable sort puts elements in order and leaves those that are equal in the order in which they
were. There is at most one, and the store's sort is one as long as its order is a strict weak order
of the items at hand. It need not be one of all items: what has no order counts as equal, so
attributes of different types can break it.
-/

namespace AttributeStore.Store

/-- A list in order, equal elements being in the order in which they were. -/
structure IsStableSort {α : Type} (cmp : α → α → Ordering) (list sorted : List α) : Prop where
  perm : sorted.Perm list
  ordered : sorted.Pairwise fun a b => cmp a b ≠ .gt
  stable : ∀ a ∈ list,
    sorted.filter (fun b => cmp a b = .eq) = list.filter fun b => cmp a b = .eq

theorem IsStableSort.filter {α : Type} {cmp : α → α → Ordering} {list sorted : List α}
    (h : IsStableSort cmp list sorted) (keep : α → Bool) :
    IsStableSort cmp (list.filter keep) (sorted.filter keep) where
  perm := h.perm.filter keep
  ordered := h.ordered.filter keep
  stable a ha := by
    rw [List.filter_comm, h.stable a (List.mem_of_mem_filter ha), List.filter_comm]

section Unique

variable {α : Type} {cmp : α → α → Ordering} [Std.OrientedCmp cmp]

theorem eq_of_ordered_of_filter_eq {first second : List α} (hp : first.Perm second)
    (h : first.Pairwise fun a b => cmp a b ≠ .gt) (h' : second.Pairwise fun a b => cmp a b ≠ .gt)
    (hs : ∀ a ∈ first,
      first.filter (fun b => cmp a b = .eq) = second.filter fun b => cmp a b = .eq) :
    first = second := by
  induction first generalizing second with
  | nil => exact hp.symm.eq_nil.symm
  | cons a rest ih =>
    cases second with
    | nil => exact hp.eq_nil
    | cons b rest' =>
      have hself (c : α) : cmp c c = .eq := Std.ReflCmp.compare_self
      -- The heads are equal in the order, so they begin the same class of equal elements.
      have heq : cmp a b = .eq := by
        rcases List.mem_cons.1 (hp.mem_iff.2 List.mem_cons_self) with rfl | hb
        · exact hself b
        · rcases List.mem_cons.1 (hp.mem_iff.1 List.mem_cons_self) with rfl | ha
          · exact hself a
          · have hab := List.rel_of_pairwise_cons h hb
            have hba := List.rel_of_pairwise_cons h' ha
            cases hc : cmp a b with
            | eq => rfl
            | gt => exact (hab hc).elim
            | lt => exact (hba (Std.OrientedCmp.gt_of_lt hc)).elim
      have hclass := hs a List.mem_cons_self
      rw [List.filter_cons_of_pos (by simp [hself]), List.filter_cons_of_pos (by simp [heq])]
        at hclass
      obtain rfl : a = b := (List.cons.inj hclass).1
      rw [ih hp.cons_inv h.of_cons h'.of_cons]
      intro c hmem
      have hc := hs c (List.mem_cons_of_mem _ hmem)
      rw [List.filter_cons, List.filter_cons] at hc
      split at hc
      · exact (List.cons.inj hc).2
      · exact hc

/-- There is at most one stable sort. -/
theorem IsStableSort.unique {list first second : List α} (h : IsStableSort cmp list first)
    (h' : IsStableSort cmp list second) : first = second :=
  eq_of_ordered_of_filter_eq (h.perm.trans h'.perm.symm) h.ordered h'.ordered
    fun a ha => (h.stable a (h.perm.mem_iff.1 ha)).trans
      (h'.stable a (h.perm.mem_iff.1 ha)).symm

end Unique

section Sorting

variable {α β : Type}

theorem filter_insertSorted {less : α → α → Bool} {keep : α → Bool} {x : α} {list : List α}
    (h : keep x = true → ∀ y ∈ list, keep y = true → less x y = false) :
    (insertSorted less x list).filter keep = [x].filter keep ++ list.filter keep := by
  induction list with
  | nil => rw [insertSorted, List.filter_nil, List.append_nil]
  | cons y rest ih =>
    rw [insertSorted]
    split
    · rename_i hless
      rw [List.filter_cons (x := y), ih fun hx z hz => h hx z (List.mem_cons_of_mem _ hz),
        List.filter_cons (x := y)]
      by_cases hy : keep y = true
      · have hx : ¬ keep x = true := fun hx => by simp [h hx y List.mem_cons_self hy] at hless
        simp [hx, hy]
      · simp [hy]
    · rw [List.filter_cons (x := x), List.filter_cons (x := x)]
      split <;> rfl

/-- Sorting leaves elements of which none is less than another in their order. -/
theorem filter_sort {less : α → α → Bool} {keep : α → Bool} {list : List α}
    (h : ∀ x, keep x = true → ∀ y, keep y = true → less x y = false) :
    (sort less list).filter keep = list.filter keep := by
  have hfold (sorted : List α) :
      (list.foldl (fun sorted x => insertSorted less x sorted) sorted).filter keep =
        (list.filter keep).reverse ++ sorted.filter keep := by
    induction list generalizing sorted with
    | nil => rfl
    | cons x rest ih =>
      rw [List.foldl_cons, ih, filter_insertSorted fun hx y _ hy => h x hx y hy,
        List.filter_cons]
      cases hx : keep x <;> simp [hx]
  rw [sort, List.filter_reverse, hfold, List.filter_nil, List.append_nil, List.reverse_reverse]

theorem insertSorted_map (less : β → β → Bool) (f : α → β) (x : α) (list : List α) :
    insertSorted less (f x) (list.map f) =
      (insertSorted (fun a b => less (f a) (f b)) x list).map f := by
  induction list with
  | nil => rfl
  | cons y rest ih =>
    rw [List.map_cons, insertSorted, insertSorted, ih]
    split <;> rfl

theorem sort_map (less : β → β → Bool) (f : α → β) (list : List α) :
    sort less (list.map f) = (sort (fun a b => less (f a) (f b)) list).map f := by
  have hfold (sorted : List α) :
      (list.map f).foldl (fun sorted x => insertSorted less x sorted) (sorted.map f) =
        (list.foldl (fun sorted x => insertSorted (fun a b => less (f a) (f b)) x sorted)
          sorted).map f := by
    induction list generalizing sorted with
    | nil => rfl
    | cons x rest ih => rw [List.map_cons, List.foldl_cons, List.foldl_cons, insertSorted_map, ih]
  unfold sort
  rw [List.map_reverse, ← hfold [], List.map_nil]

theorem isStableSort_sort (cmp : α → α → Ordering) [Std.TransCmp cmp] (list : List α) :
    IsStableSort cmp list (sort (fun a b => cmp a b = .lt) list) where
  perm := sort_perm _ list
  ordered := (pairwise_sort cmp list).imp fun {a b} hle hgt => by simp [hgt] at hle
  stable a _ := by
    refine filter_sort fun x hx y hy => decide_eq_false ?_
    have heq : cmp x y = .eq := Std.TransCmp.eq_trans
      (Std.OrientedCmp.eq_symm (of_decide_eq_true hx)) (of_decide_eq_true hy)
    rw [heq]
    exact Ordering.noConfusion

theorem sort_filter (cmp : α → α → Ordering) [Std.TransCmp cmp] (list : List α)
    (keep : α → Bool) :
    sort (fun a b => cmp a b = .lt) (list.filter keep) =
      (sort (fun a b => cmp a b = .lt) list).filter keep :=
  (isStableSort_sort cmp _).unique ((isStableSort_sort cmp list).filter keep)

end Sorting

/-! ## The order of items -/

theorem compareDouble_swap (x y : Decimal.Binary) :
    Decimal.Binary.compare? .double x y =
      (Decimal.Binary.compare? .double y x).map Ordering.swap := by
  have hswap : compare x.signed y.signed = (compare y.signed x.signed).swap :=
    Std.OrientedCmp.eq_swap
  unfold Decimal.Binary.compare?
  rw [Bool.or_comm, hswap]
  split <;> rfl

theorem compareAttributes?_of_unordered {left right : Attribute}
    (hnumber : ∀ x y, left = .leaf (.number x) → right = .leaf (.number y) → False)
    (hstring : ∀ x y, left = .leaf (.string x) → right = .leaf (.string y) → False)
    (hbinary : ∀ x y, left = .leaf (.binary x) → right = .leaf (.binary y) → False) :
    compareAttributes? left right = if left = right then some .eq else none := by
  rw [compareAttributes?]
  · exact hnumber
  · exact hstring
  · exact hbinary

theorem compareAttributes?_swap (left right : Attribute) :
    compareAttributes? left right = (compareAttributes? right left).map Ordering.swap := by
  fun_cases compareAttributes? left right with
  | case1 left right =>
    simp only [compareAttributes?]
    cases Number.toDouble? ⟨left⟩ with
    | none => cases Number.toDouble? ⟨right⟩ <;> rfl
    | some x =>
      cases Number.toDouble? ⟨right⟩ with
      | none => rfl
      | some y => exact compareDouble_swap x y
  | case2 left right => exact congrArg some Std.OrientedCmp.eq_swap
  | case3 left right => exact congrArg some Std.OrientedCmp.eq_swap
  | case4 _ hnumber hstring hbinary =>
    rw [compareAttributes?_of_unordered hnumber hstring hbinary, if_pos rfl]
    rfl
  | case5 left right hnumber hstring hbinary hne =>
    rw [compareAttributes?_of_unordered (fun x y hr hl => hnumber y x hl hr)
      (fun x y hr hl => hstring y x hl hr) (fun x y hr hl => hbinary y x hl hr),
      if_neg (Ne.symm hne)]
    rfl

theorem compareOptional_swap (left right : Option Attribute) :
    compareOptional left right = (compareOptional right left).swap := by
  cases left with
  | none => cases right <;> rfl
  | some left =>
    cases right with
    | none => rfl
    | some right =>
      rw [compareOptional, compareOptional, compareAttributes?_swap]
      cases compareAttributes? right left <;> rfl

instance (keys : KeyNames) (descending : Bool) :
    Std.OrientedCmp (compareItems keys descending) where
  eq_swap := by
    intro left right
    unfold compareItems
    rw [compareOptional_swap (left.get? keys.hashKey)]
    cases keys.rangeKey with
    | none => cases descending <;> simp
    | some rangeKey =>
      dsimp only
      rw [compareOptional_swap (left.get? rangeKey)]
      cases descending <;> simp [Ordering.swap_then]

theorem compareItems_descending (keys : KeyNames) (left right : WireItem) :
    compareItems keys true left right = compareItems keys false right left := by
  have hswap : compareItems keys false right left = (compareItems keys false left right).swap :=
    Std.OrientedCmp.eq_swap
  rw [hswap]
  rfl

/-- The items are in a strict weak order by a key. -/
def WeaklyOrdered (keys : KeyNames) (items : List WireItem) : Prop :=
  IsStrictWeakOrder {item // item ∈ items}
    fun left right => compareItems keys false left right = .lt

theorem weaklyOrdered_iff {keys : KeyNames} {items : List WireItem} :
    WeaklyOrdered keys items ↔
      let less (left right : WireItem) := compareItems keys false left right = .lt
      (∀ a ∈ items, ¬ less a a) ∧
        ∀ a ∈ items, ∀ b ∈ items, ∀ c ∈ items, (less a b → less b c → less a c) ∧
          (¬ less a b ∧ ¬ less b a → ¬ less b c ∧ ¬ less c b → ¬ less a c ∧ ¬ less c a) := by
  constructor
  · intro h
    refine ⟨fun a ha => h.irrefl ⟨a, ha⟩, fun a ha b hb c hc => ⟨?_, ?_⟩⟩
    · exact h.trans ⟨a, ha⟩ ⟨b, hb⟩ ⟨c, hc⟩
    · exact h.incomp_trans ⟨a, ha⟩ ⟨b, hb⟩ ⟨c, hc⟩
  · rintro ⟨hirrefl, hrest⟩
    exact {
      irrefl := fun a => hirrefl a.1 a.2
      trans := fun a b c => (hrest a.1 a.2 b.1 b.2 c.1 c.2).1
      incomp_trans := fun a b c => (hrest a.1 a.2 b.1 b.2 c.1 c.2).2 }

instance (keys : KeyNames) (items : List WireItem) : Decidable (WeaklyOrdered keys items) :=
  decidable_of_iff' _ weaklyOrdered_iff

/-- An order that is told both ways round and is a strict weak one is transitive. -/
theorem transCmp_of_strictWeak {α : Type} {cmp : α → α → Ordering} [Std.OrientedCmp cmp]
    (h : IsStrictWeakOrder α fun a b => cmp a b = .lt) : Std.TransCmp cmp where
  isLE_trans := by
    intro a b c hab hbc
    have hlt {x y : α} : cmp x y = .gt → cmp y x = .lt := Std.OrientedCmp.lt_of_gt
    -- Were `c` below `a`, then `b` would have to stand between them or be equal to both.
    cases hac : cmp a c with
    | lt => rfl
    | eq => rfl
    | gt =>
      have hca := hlt hac
      exfalso
      cases hab' : cmp a b with
      | gt => simp [hab'] at hab
      | lt =>
        have hcb := h.trans c a b hca hab'
        simp [Std.OrientedCmp.gt_of_lt hcb] at hbc
      | eq =>
        cases hbc' : cmp b c with
        | gt => simp [hbc'] at hbc
        | lt =>
          have hba := h.trans b c a hbc' hca
          simp [Std.OrientedCmp.gt_of_lt hba] at hab
        | eq =>
          have hincomp {x y : α} (he : cmp x y = .eq) : ¬ cmp x y = .lt ∧ ¬ cmp y x = .lt := by
            rw [Std.OrientedCmp.eq_symm he, he]
            exact ⟨nofun, nofun⟩
          exact (h.incomp_trans a b c (hincomp hab') (hincomp hbc')).2 hca

theorem WeaklyOrdered.transCmp {keys : KeyNames} {items : List WireItem}
    (h : WeaklyOrdered keys items) (descending : Bool) :
    Std.TransCmp fun left right : {item // item ∈ items} =>
      compareItems keys descending left.1 right.1 := by
  let cmp (left right : {item // item ∈ items}) : Ordering :=
    compareItems keys false left.1 right.1
  have horiented : Std.OrientedCmp cmp := ⟨fun {left right} =>
    show compareItems keys false left.1 right.1 = _ from Std.OrientedCmp.eq_swap⟩
  have hcmp : Std.TransCmp cmp := transCmp_of_strictWeak h
  cases descending with
  | false => exact hcmp
  | true =>
    simp only [compareItems_descending]
    exact @Std.TransCmp.opposite _ cmp hcmp

/-- Items in a strict weak order are put into a stable sort, in either direction. -/
theorem WeaklyOrdered.isStableSort {keys : KeyNames} {items : List WireItem}
    (h : WeaklyOrdered keys items) (descending : Bool) :
    IsStableSort (compareItems keys descending) items (sortItems keys descending items) := by
  -- The order is transitive among the items only, so these are sorted as elements of the list.
  let cmp (left right : {item // item ∈ items}) : Ordering :=
    compareItems keys descending left.1 right.1
  have hcmp : Std.TransCmp cmp := h.transCmp descending
  have hsort := isStableSort_sort cmp items.attach
  have hmap : sortItems keys descending items =
      (sort (fun left right => cmp left right = .lt) items.attach).map Subtype.val := by
    conv => lhs; rw [← items.attach_map_subtype_val]
    exact sort_map _ _ _
  rw [hmap]
  refine ⟨?_, ?_, ?_⟩
  · have hperm := hsort.perm.map Subtype.val
    rwa [items.attach_map_subtype_val] at hperm
  · exact List.pairwise_map.2 hsort.ordered
  · intro a ha
    have hstable := congrArg (List.map Subtype.val) (hsort.stable ⟨a, ha⟩ (items.mem_attach _))
    rw [List.filter_map]
    refine hstable.trans ?_
    conv => rhs; rw [← items.attach_map_subtype_val, List.filter_map]
    rfl

end AttributeStore.Store
