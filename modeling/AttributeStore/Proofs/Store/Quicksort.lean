import AttributeStore.Proofs.Store.Stretches

/-!
# The sort sorts

Partitioning puts what is less than the pivot to the left and leaves all in its order otherwise, so
that sorting both sides sorts the list. The equals of a pivot are taken out only where nothing is
less than it: the ancestor is the least bound of all elements to its right. So, for a weak order,
the sort never panics and gives what insertion gives; for any order, what it gives has the elements
of the list.
-/

namespace AttributeStore.Store

variable {α : Type} {cmp : α → α → Ordering}

/-! ## Partitioning -/

section Partition

variable {goesLeft : α → Bool} {pivotLeft : Bool} {place : Nat} {pivot : α}
  {list left right : List α}

theorem partitionAt_perm (goesLeft : α → Bool) (pivotLeft : Bool) (place : Nat) (list : List α) :
    ((partitionAt goesLeft pivotLeft place list).left ++
      (partitionAt goesLeft pivotLeft place list).right).Perm list := by
  have hlist : list = list.take place ++ ((list.drop place).take 1 ++ list.drop (place + 1)) := by
    rw [← List.drop_drop, List.take_append_drop, List.take_append_drop]
  unfold partitionAt
  conv => rhs; rw [hlist]
  have hbefore := List.filter_append_perm goesLeft (list.take place)
  have hafter := List.filter_append_perm goesLeft (list.drop (place + 1))
  rw [← Multiset.coe_eq_coe] at hbefore hafter ⊢
  simp only [← Multiset.coe_add] at hbefore hafter ⊢
  rw [← hbefore, ← hafter]
  cases pivotLeft <;> simp only [Bool.false_eq_true, if_false, if_true, Multiset.coe_nil] <;> abel

theorem partitionAt_eq (hpivot : list[place]? = some pivot) (hgoes : goesLeft pivot = pivotLeft) :
    partitionAt goesLeft pivotLeft place list =
      ⟨list.filter goesLeft, list.filter (!goesLeft ·)⟩ := by
  obtain ⟨hplace, rfl⟩ := List.getElem?_eq_some_iff.1 hpivot
  have hdrop := List.drop_eq_getElem_cons hplace
  have hlist : list = list.take place ++ list[place] :: list.drop (place + 1) := by
    rw [← hdrop, List.take_append_drop]
  have htake : (list.drop place).take 1 = [list[place]] := by
    rw [hdrop]
    rfl
  unfold partitionAt
  conv => rhs; rw [hlist, List.filter_append, List.filter_append, List.filter_cons,
    List.filter_cons, hgoes]
  cases pivotLeft <;> simp [htake]

/-- A class that stands on one side only is not torn apart. -/
theorem filter_sides {keep : α → Bool}
    (h : (∀ x ∈ list, keep x = true → goesLeft x = true) ∨
      ∀ x ∈ list, keep x = true → goesLeft x = false) :
    list.filter (fun x => keep x && goesLeft x) ++ list.filter (fun x => keep x && !goesLeft x) =
      list.filter keep := by
  have hall (side : α → Bool) (hside : ∀ x ∈ list, keep x = true → side x = true) :
      list.filter (fun x => keep x && side x) = list.filter keep :=
    List.filter_congr fun x hx => by cases hkeep : keep x <;> simp [hside x hx, hkeep]
  have hnone (side : α → Bool) (hside : ∀ x ∈ list, keep x = true → side x = false) :
      list.filter (fun x => keep x && side x) = [] :=
    List.filter_eq_nil_iff.2 fun x hx => by cases hkeep : keep x <;> simp [hside x hx, hkeep]
  rcases h with h | h
  · rw [hall goesLeft h, hnone _ fun x hx hkeep => by simp [h x hx hkeep], List.append_nil]
  · rw [hnone goesLeft h, hall _ fun x hx hkeep => by simp [h x hx hkeep], List.nil_append]

/-- A list whose left side is less than its right side is sorted side by side. -/
theorem IsStableSort.append_sides [Std.TransCmp cmp]
    (hless : ∀ x ∈ list, ∀ y ∈ list, goesLeft x = true → goesLeft y = false → cmp x y = .lt)
    (hl : IsStableSort cmp (list.filter goesLeft) left)
    (hr : IsStableSort cmp (list.filter (!goesLeft ·)) right) :
    IsStableSort cmp list (left ++ right) where
  perm := (hl.perm.append hr.perm).trans (List.filter_append_perm goesLeft list)
  ordered := by
    refine List.pairwise_append.2 ⟨hl.ordered, hr.ordered, fun x hx y hy => ?_⟩
    obtain ⟨hx, hleft⟩ := List.mem_filter.1 (hl.perm.mem_iff.1 hx)
    obtain ⟨hy, hright⟩ := List.mem_filter.1 (hr.perm.mem_iff.1 hy)
    rw [hless x hx y hy hleft (by simpa using hright)]
    nofun
  stable a _ := by
    rw [List.filter_append, hl.filter_eq, hr.filter_eq, List.filter_filter, List.filter_filter]
    apply filter_sides
    by_cases hany : ∃ x ∈ list, goesLeft x = true ∧ cmp a x = .eq
    · obtain ⟨x, hx, hleft, hax⟩ := hany
      refine .inl fun y hy hay => ?_
      by_contra hright
      have hlt := hless x hx y hy hleft (Bool.eq_false_iff.2 hright)
      rw [Std.TransCmp.eq_trans (Std.OrientedCmp.eq_symm hax) (of_decide_eq_true hay)] at hlt
      nomatch hlt
    · refine .inr fun y hy hay => Bool.eq_false_iff.2 fun hleft => hany ⟨y, hy, hleft, ?_⟩
      exact of_decide_eq_true hay

theorem isStableSort_of_eq [Std.TransCmp cmp] (pivot : α) (h : ∀ x ∈ list, cmp pivot x = .eq) :
    IsStableSort cmp list list where
  perm := .refl _
  ordered := by
    refine List.pairwise_of_forall_mem_list fun x hx y hy => ?_
    rw [Std.TransCmp.eq_trans (Std.OrientedCmp.eq_symm (h x hx)) (h y hy)]
    nofun
  stable _ _ := rfl

theorem Arranges.append_sides
    (hl : Arranges cmp (partitionAt goesLeft pivotLeft place list).left left)
    (hr : Arranges cmp (partitionAt goesLeft pivotLeft place list).right right)
    (hpivot : list[place]? = some pivot)
    (hgoes : Std.TransCmp cmp → goesLeft pivot = pivotLeft)
    (hless : Std.TransCmp cmp → ∀ x y, goesLeft x = true → goesLeft y = false → cmp x y = .lt) :
    Arranges cmp list (left ++ right) := by
  refine .of_isStableSort ?_ fun hc => ?_
  · exact (hl.perm.append hr.perm).trans (partitionAt_perm _ _ _ _)
  · rw [partitionAt_eq hpivot (hgoes hc)] at hl hr
    exact hl.isStableSort.append_sides (fun x _ y _ => hless hc x y) hr.isStableSort

theorem arranges_equals (hpivot : list[place]? = some pivot)
    (hleast : Std.TransCmp cmp → ∀ x ∈ list, (cmp pivot x).isLE = true) :
    let equals := (partitionAt (!before cmp pivot ·) true place list).left
    Arranges cmp equals equals := by
  intro equals
  refine .of_isStableSort (.refl _) fun hc => isStableSort_of_eq pivot fun x hx => ?_
  have hself : (!before cmp pivot pivot) = true := not_before_eq_true_iff.2 Std.ReflCmp.isLE_rfl
  have hequals : equals = list.filter (!before cmp pivot ·) :=
    congrArg Sides.left (partitionAt_eq hpivot hself)
  rw [hequals, List.mem_filter, not_before_eq_true_iff] at hx
  exact Std.OrientedCmp.isLE_antisymm (hleast hc x hx.1) hx.2

theorem partitionAt_before [Std.TransCmp cmp] (hpivot : list[place]? = some pivot) :
    partitionAt (before cmp · pivot) false place list =
      ⟨list.filter (before cmp · pivot), list.filter (!before cmp · pivot)⟩ :=
  partitionAt_eq hpivot (before_eq_false_iff.2 Std.ReflCmp.isLE_rfl)

/-- If the pivot is not greater than a bound of all elements, or no element goes left, the pivot is
such a bound itself. -/
theorem isLE_of_equal [Std.TransCmp cmp] {ancestor : Option α} (hpivot : list[place]? = some pivot)
    (hbound : ∀ a ∈ ancestor, ∀ x ∈ list, (cmp a x).isLE = true)
    (hequal : (ancestor.any (!before cmp · pivot) ||
      (partitionAt (before cmp · pivot) false place list).left.isEmpty) = true) :
    ∀ x ∈ list, (cmp pivot x).isLE = true := by
  intro x hx
  rcases Bool.or_eq_true_iff.1 hequal with hany | hempty
  · obtain ⟨a, ha, hle⟩ := (Option.any_eq_true _ _).1 hany
    exact Std.TransCmp.isLE_trans (not_before_eq_true_iff.1 hle) (hbound a ha x hx)
  · rw [partitionAt_before hpivot, List.isEmpty_iff, List.filter_eq_nil_iff] at hempty
    exact before_eq_false_iff.1 (Bool.eq_false_iff.2 (hempty x hx))

end Partition

/-! ## Sorting -/

/-- Sorting by partitioning is right if nothing is less than the ancestor. -/
theorem yields_quicksort (cmp : α → α → Ordering) (room limit : Nat) (ancestor : Option α)
    (list : List α)
    (hbound : Std.TransCmp cmp → ∀ a ∈ ancestor, ∀ x ∈ list, (cmp a x).isLE = true) :
    Yields cmp (quicksort (before cmp) room limit ancestor list) (Arranges cmp list) := by
  induction limit generalizing ancestor list with
  | zero =>
    rw [quicksort]
    split
    · exact yields_sortShort cmp list
    · exact yields_sortStretches (yields_sortShort cmp) true room list
  | succ limit ih =>
    rw [quicksort]
    split
    · exact yields_sortShort cmp list
    · extract_lets place
      split
      · exact yields_sortShort cmp list
      · rename_i pivot hpivot
        extract_lets sides equalSides
        split
        · rename_i hequal
          refine (ih none equalSides.right fun _ _ h => nomatch h).bind fun right hright => .some ?_
          refine (arranges_equals hpivot fun hc => ?_).append_sides hright hpivot
            (fun _ => not_before_eq_true_iff.2 Std.ReflCmp.isLE_rfl) fun hc x y hx hy => ?_
          · exact isLE_of_equal hpivot (hbound hc) hequal
          · have hlt : cmp pivot y = .lt := by simpa using hy
            exact Std.TransCmp.lt_of_isLE_of_lt (not_before_eq_true_iff.1 hx) hlt
        · refine (ih (some pivot) sides.right fun hc a ha x hx => ?_).bind fun right hright => ?_
          · obtain rfl := Option.some.inj ha
            have hsides : sides = _ := partitionAt_before hpivot
            rw [hsides, List.mem_filter] at hx
            exact not_before_eq_true_iff.1 hx.2
          refine (ih ancestor sides.left fun hc a ha x hx => ?_).bind fun left hleft => .some ?_
          · have hsides : sides = _ := partitionAt_before hpivot
            rw [hsides, List.mem_filter] at hx
            exact hbound hc a ha x hx.1
          refine hleft.append_sides hright hpivot
            (fun _ => before_eq_false_iff.2 Std.ReflCmp.isLE_rfl) fun hc x y hx hy => ?_
          exact Std.TransCmp.lt_of_lt_of_isLE (of_decide_eq_true hx) (before_eq_false_iff.1 hy)

theorem yields_sortBy (cmp : α → α → Ordering) (list : List α) :
    Yields cmp (sortBy (before cmp) list) (Arranges cmp list) := by
  unfold sortBy
  split
  · exact .some (.sort cmp list)
  · exact yields_sortStretches
      (fun items => yields_quicksort cmp _ _ none items fun _ _ h => nomatch h) _ _ list

end AttributeStore.Store
