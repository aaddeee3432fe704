import AttributeStore.Proofs.Store.Stable
import Mathlib.Algebra.Order.Group.Multiset
import Mathlib.Tactic.Abel

/-!
# Merging

Lists in order are merged into one in order, elements of the first list in front of their equals
of the second. For a weak order the same comes out if the merge starts at the other end. So a merge
from both ends takes no element twice, and it is the merge from one end. For any order, what it
gives has the elements of both lists.
-/

namespace AttributeStore.Store

variable {α : Type}

abbrev before (cmp : α → α → Ordering) (x y : α) : Bool :=
  cmp x y = .lt

/-- The merge that takes elements of the first list before their equals of the second. -/
abbrev mergeBy (cmp : α → α → Ordering) (left right : List α) : List α :=
  List.merge left right fun x y => !before cmp y x

/-! ## From one end -/

section Merge

variable {cmp : α → α → Ordering} {first second left right : List α}

/-- A merge keeps the elements of a class in the order of the lists, if it takes those of the first
list before those of the second. -/
theorem filter_merge {takesLeft : α → α → Bool} {keep : α → Bool}
    (hleft : left.Pairwise fun x x' => ∀ y, takesLeft x' y = true → takesLeft x y = true)
    (hkeep : ∀ x y, keep x = true → keep y = true → takesLeft x y = true) :
    (List.merge left right takesLeft).filter keep = left.filter keep ++ right.filter keep := by
  fun_induction List.merge left right takesLeft with
  | case1 right => rfl
  | case2 left => rw [List.filter_nil, List.append_nil]
  | case3 x left y right htakes ih =>
    rw [List.filter_cons, ih hleft.of_cons, List.filter_cons (x := x)]
    split <;> rfl
  | case4 x left y right htakes ih =>
    rw [List.filter_cons, ih hleft, List.filter_cons (x := y)]
    split
    · rename_i hy
      -- An element of the first list in the class of `y` would have been taken before it.
      have hnone : (x :: left).filter keep = [] := by
        refine List.filter_eq_nil_iff.2 fun z hz hkept => htakes ?_
        rcases List.mem_cons.1 hz with rfl | hz
        · exact hkeep z y hkept hy
        · exact List.rel_of_pairwise_cons hleft hz y (hkeep z y hkept hy)
      rw [hnone]
      rfl
    · rfl

theorem merge_swap (takesLeft : α → α → Bool) (left right : List α) :
    List.merge left right takesLeft = List.merge right left fun y x => !takesLeft x y := by
  fun_induction List.merge left right takesLeft with
  | case1 right => rw [List.merge_right]
  | case2 left => rw [List.nil_merge]
  | case3 x left y right htakes ih => rw [List.cons_merge_cons_neg _ _ _ (by simpa), ih]
  | case4 x left y right htakes ih =>
    rw [List.cons_merge_cons_pos _ _ _ (by simpa using htakes), ih]

theorem IsStableSort.isLE (h : IsStableSort cmp first left) :
    left.Pairwise fun x y => (cmp x y).isLE = true :=
  h.ordered.imp Ordering.ne_gt_iff_isLE.1

theorem IsStableSort.reverse [Std.OrientedCmp cmp] (h : IsStableSort cmp first left) :
    IsStableSort (fun x y => cmp y x) first.reverse left.reverse where
  perm := (left.reverse_perm.trans h.perm).trans first.reverse_perm.symm
  ordered := List.pairwise_reverse.2 h.ordered
  stable a ha := by
    have hsame : (fun b => decide (cmp b a = .eq)) = fun b => decide (cmp a b = .eq) := by
      funext b
      exact decide_eq_decide.2 Std.OrientedCmp.eq_comm
    rw [hsame, List.filter_reverse, List.filter_reverse, h.stable a (List.mem_reverse.1 ha)]

variable [Std.TransCmp cmp]

theorem before_eq_false_iff {x y : α} : before cmp y x = false ↔ (cmp x y).isLE = true := by
  rw [before, decide_eq_false_iff_not, ← Std.OrientedCmp.isGE_iff_isLE]
  cases cmp y x <;> simp

theorem not_before_eq_true_iff {x y : α} :
    (!before cmp y x) = true ↔ (cmp x y).isLE = true := by
  rw [Bool.not_eq_true', before_eq_false_iff]

theorem IsStableSort.filter_eq (h : IsStableSort cmp first left) (a : α) :
    left.filter (fun b => cmp a b = .eq) = first.filter fun b => cmp a b = .eq := by
  by_cases hany : ∃ b ∈ first, cmp a b = .eq
  · obtain ⟨b, hb, hab⟩ := hany
    have hsame : (fun c => decide (cmp a c = .eq)) = fun c => decide (cmp b c = .eq) := by
      funext c
      rw [Std.TransCmp.congr_left hab]
    rw [hsame]
    exact h.stable b hb
  · have hnone : ∀ b ∈ first, ¬ decide (cmp a b = .eq) = true := by simpa using hany
    rw [List.filter_eq_nil_iff.2 hnone]
    exact List.filter_eq_nil_iff.2 fun b hb => hnone b (h.perm.mem_iff.1 hb)

/-- The merge of stable sorts is one. -/
theorem IsStableSort.merge (hf : IsStableSort cmp first left)
    (hs : IsStableSort cmp second right) :
    IsStableSort cmp (first ++ second) (mergeBy cmp left right) where
  perm := (List.merge_perm_append _).trans (hf.perm.append hs.perm)
  ordered := by
    have htrans (x y z : α) (hxy : (!before cmp y x) = true) (hyz : (!before cmp z y) = true) :
        (!before cmp z x) = true := by
      rw [not_before_eq_true_iff] at hxy hyz ⊢
      exact Std.TransCmp.isLE_trans hxy hyz
    have htotal (x y : α) : ((!before cmp y x) || !before cmp x y) = true := by
      rw [Bool.or_eq_true, not_before_eq_true_iff, not_before_eq_true_iff,
        ← Std.OrientedCmp.isGE_iff_isLE (a := x)]
      cases cmp x y <;> simp
    have hmerged := List.pairwise_merge htrans htotal left right
      (hf.isLE.imp not_before_eq_true_iff.2) (hs.isLE.imp not_before_eq_true_iff.2)
    exact hmerged.imp fun h => Ordering.ne_gt_iff_isLE.2 (not_before_eq_true_iff.1 h)
  stable a _ := by
    rw [List.filter_append, ← hf.filter_eq, ← hs.filter_eq]
    refine filter_merge ?_ ?_
    · refine hf.isLE.imp fun hle y htakes => ?_
      rw [not_before_eq_true_iff] at htakes ⊢
      exact Std.TransCmp.isLE_trans hle htakes
    · intro x y hx hy
      have heq : cmp x y = .eq := Std.TransCmp.eq_trans
        (Std.OrientedCmp.eq_symm (of_decide_eq_true hx)) (of_decide_eq_true hy)
      rw [not_before_eq_true_iff, heq]
      rfl

/-- The merge of the last elements first is the merge turned round. -/
theorem IsStableSort.merge_reverse (hf : IsStableSort cmp first left)
    (hs : IsStableSort cmp second right) :
    List.merge left.reverse right.reverse (fun x y => before cmp y x) =
      (mergeBy cmp left right).reverse := by
  have hback := hs.reverse.merge hf.reverse
  rw [← List.reverse_append] at hback
  rw [merge_swap]
  exact hback.unique (hf.merge hs).reverse

end Merge

/-! ## From both ends -/

section Ends

/-- What so many steps of a merge come to. What is taken from one list has been compared with the
head of the other, so it stands on the right side of all that is left there. -/
structure Merging.Reached (merging : Merging α) (takesLeft : α → α → Bool) (steps : Nat)
    (left right fromLeft fromRight : List α) : Prop where
  left_eq : left = fromLeft ++ merging.left
  right_eq : right = fromRight ++ merging.right
  taken_perm : merging.taken.Perm (fromLeft ++ fromRight)
  merge_eq : List.merge left right takesLeft =
    merging.taken ++ List.merge merging.left merging.right takesLeft
  length_taken : steps ≤ left.length → steps ≤ right.length → merging.taken.length = steps
  left_first : (right.Pairwise fun y y' => ∀ x, takesLeft x y = true → takesLeft x y' = true) →
    ∀ x ∈ fromLeft, ∀ y ∈ merging.right, takesLeft x y = true
  right_first : (left.Pairwise fun x x' => ∀ y, takesLeft x' y = true → takesLeft x y = true) →
    ∀ y ∈ fromRight, ∀ x ∈ merging.left, takesLeft x y = false

theorem exists_reached (takesLeft : α → α → Bool) (steps : Nat) (left right : List α) :
    ∃ fromLeft fromRight, (mergeSteps takesLeft steps left right).Reached takesLeft steps left right
      fromLeft fromRight := by
  fun_induction mergeSteps takesLeft steps left right with
  | case1 steps x left y right htakes rest ih =>
    obtain ⟨fromLeft, fromRight, h⟩ := ih
    refine ⟨x :: fromLeft, fromRight, ?_⟩
    exact {
      left_eq := by rw [List.cons_append, ← h.left_eq]
      right_eq := h.right_eq
      taken_perm := h.taken_perm.cons x
      merge_eq := by rw [List.cons_merge_cons_pos _ _ _ htakes, h.merge_eq, List.cons_append]
      length_taken := by
        intro hl hr
        rw [List.length_cons] at hl ⊢
        rw [h.length_taken (by omega) (by omega)]
      left_first := by
        intro hright z hz y' hy'
        rcases List.mem_cons.1 hz with rfl | hz
        · have hmem : y' ∈ y :: right := h.right_eq ▸ List.mem_append_right _ hy'
          rcases List.mem_cons.1 hmem with rfl | hmem
          · exact htakes
          · exact List.rel_of_pairwise_cons hright hmem z htakes
        · exact h.left_first hright z hz y' hy'
      right_first := fun hleft => h.right_first hleft.of_cons }
  | case2 steps x left y right htakes rest ih =>
    obtain ⟨fromLeft, fromRight, h⟩ := ih
    refine ⟨fromLeft, y :: fromRight, ?_⟩
    exact {
      left_eq := h.left_eq
      right_eq := by rw [List.cons_append, ← h.right_eq]
      taken_perm := (h.taken_perm.cons y).trans List.perm_middle.symm
      merge_eq := by rw [List.cons_merge_cons_neg _ _ _ htakes, h.merge_eq, List.cons_append]
      length_taken := by
        intro hl hr
        rw [List.length_cons] at hl hr ⊢
        rw [h.length_taken (by rw [List.length_cons]; omega) (by omega)]
      left_first := fun hright => h.left_first hright.of_cons
      right_first := by
        intro hleft z hz x' hx'
        rcases List.mem_cons.1 hz with rfl | hz
        · have hmem : x' ∈ x :: left := h.left_eq ▸ List.mem_append_right _ hx'
          rcases List.mem_cons.1 hmem with rfl | hmem
          · exact Bool.eq_false_iff.2 htakes
          · refine Bool.eq_false_iff.2 fun hx => htakes ?_
            exact List.rel_of_pairwise_cons hleft hmem z hx
        · exact h.right_first hleft z hz x' hx' }
  | case3 steps left right hstop =>
    refine ⟨[], [], rfl, rfl, List.Perm.refl _, rfl, ?_, nofun, nofun⟩
    -- Steps remain only where one of the lists is empty.
    intro hl hr
    match steps, left, right, hstop, hl, hr with
    | 0, _, _, _, _, _ => rfl
    | steps + 1, x :: left, y :: right, hstop, _, _ =>
      exact (hstop steps x left y right rfl rfl rfl).elim

theorem drop_of_reverse {list back rest : List α} (h : list.reverse = back ++ rest) :
    list.drop rest.length = back.reverse := by
  have hlist : list = rest.reverse ++ back.reverse := by
    rw [← List.reverse_append, ← h, List.reverse_reverse]
  rw [hlist, List.drop_left' List.length_reverse]

theorem eq_append_middle {list front rest back rest' : List α} (hfront : list = front ++ rest)
    (hback : list.reverse = back ++ rest') (h : list.length ≤ rest.length + rest'.length) :
    list = front ++ rest.take (rest.length + rest'.length - list.length) ++ back.reverse := by
  have hlength := congrArg List.length hfront
  rw [List.length_append] at hlength
  have hrest : rest.drop (rest.length + rest'.length - list.length) = back.reverse := by
    have hplace : rest.length + rest'.length - list.length = rest'.length - front.length := by
      omega
    have hnone : front.drop rest'.length = [] := List.drop_eq_nil_of_le (by omega)
    rw [← drop_of_reverse hback, hplace]
    conv => rhs; rw [hfront]
    rw [List.drop_append, hnone, List.nil_append]
  rw [List.append_assoc, ← hrest, List.take_append_drop, hfront]

/-- If together they are longer than the list, they have an element in common. -/
theorem exists_mem_of_overlap {list front rest back rest' : List α} (hfront : list = front ++ rest)
    (hback : list.reverse = back ++ rest') (h : list.length < front.length + back.length) :
    ∃ x ∈ front, x ∈ back := by
  have hlength := congrArg List.length hback
  rw [List.length_reverse, List.length_append] at hlength
  have hshared : front.drop rest'.length ++ rest = back.reverse := by
    rw [← drop_of_reverse hback, hfront, List.drop_append_of_le_length (by omega)]
  obtain ⟨x, hx⟩ : ∃ x, x ∈ front.drop rest'.length := by
    refine List.exists_mem_of_length_pos ?_
    rw [List.length_drop]
    omega
  refine ⟨x, List.mem_of_mem_drop hx, List.mem_reverse.1 ?_⟩
  rw [← hshared]
  exact List.mem_append_left _ hx

theorem exists_mem_of_gap {list front rest back rest' : List α} (hfront : list = front ++ rest)
    (hback : list.reverse = back ++ rest') (h : list.length < rest.length + rest'.length) :
    ∃ x ∈ rest, x ∈ rest' := by
  have hfront' : list.reverse = rest.reverse ++ front.reverse := by
    rw [hfront, List.reverse_append]
  have hback' : list.reverse.reverse = rest'.reverse ++ back.reverse := by
    rw [hback, List.reverse_append]
  simpa using exists_mem_of_overlap hfront' hback' (by simpa using h)

section Meeting

variable {left right frontLeft frontRight backLeft backRight : List α} {front back : Merging α}
  {takesLeft takesLeft' : α → α → Bool} {steps : Nat}

theorem Merging.Reached.lengths (h : front.Reached takesLeft steps left right frontLeft frontRight)
    (hl : steps ≤ left.length) (hr : steps ≤ right.length) :
    left.length = frontLeft.length + front.left.length ∧
      right.length = frontRight.length + front.right.length ∧
      frontLeft.length + frontRight.length = steps := by
  refine ⟨?_, ?_, ?_⟩
  · rw [← List.length_append, ← h.left_eq]
  · rw [← List.length_append, ← h.right_eq]
  · rw [← List.length_append, ← h.taken_perm.length_eq, h.length_taken hl hr]

/-- The elements of a merge from both ends are those of both lists, whatever the order. -/
theorem perm_of_meetEnds {merged : List α}
    (hf : front.Reached takesLeft steps left right frontLeft frontRight)
    (hb : back.Reached takesLeft' steps left.reverse right.reverse backLeft backRight)
    (h : meetEnds left right front back = some merged) : merged.Perm (left ++ right) := by
  rw [meetEnds, Option.ite_none_right_eq_some] at h
  obtain ⟨⟨hl, hr⟩, hmerged⟩ := h
  obtain rfl := Option.some.inj hmerged
  have hleft := eq_append_middle hf.left_eq hb.left_eq hl
  have hright := eq_append_middle hf.right_eq hb.right_eq hr
  have hback : back.taken.reverse.Perm (backLeft.reverse ++ backRight.reverse) := by
    refine back.taken.reverse_perm.trans (hb.taken_perm.trans ?_)
    exact (backLeft.reverse_perm.symm).append backRight.reverse_perm.symm
  refine (((hf.taken_perm.append_right _).append_right _).append hback).trans ?_
  refine List.Perm.trans ?_ (List.Perm.of_eq (congrArg₂ (· ++ ·) hleft hright).symm)
  rw [← Multiset.coe_eq_coe]
  simp only [← Multiset.coe_add]
  abel

/-- If they overlap in neither list, and would make the same in the end, they make it together. -/
theorem meetEnds_eq {merged : List α}
    (hf : front.Reached takesLeft steps left right frontLeft frontRight)
    (hb : back.Reached takesLeft' steps left.reverse right.reverse backLeft backRight)
    (hl : steps ≤ left.length) (hr : steps ≤ right.length)
    (hall : left.length + right.length ≤ steps + steps + 1)
    (hfront : List.merge left right takesLeft = merged)
    (hback : List.merge left.reverse right.reverse takesLeft' = merged.reverse)
    (hleft : left.length ≤ front.left.length + back.left.length)
    (hright : right.length ≤ front.right.length + back.right.length) :
    meetEnds left right front back = some merged := by
  have hsome : meetEnds left right front back = some _ := if_pos ⟨hleft, hright⟩
  have hperm := perm_of_meetEnds hf hb hsome
  have hmerged : merged.Perm (left ++ right) := hfront ▸ List.merge_perm_append takesLeft
  have htaken := hf.length_taken hl hr
  have htaken' := hb.length_taken (by rwa [List.length_reverse]) (by rwa [List.length_reverse])
  have hlength := hmerged.length_eq
  rw [List.length_append] at hlength
  rw [hf.merge_eq] at hfront
  rw [hb.merge_eq] at hback
  have hrest := congrArg List.length hfront
  have hrest' := congrArg List.length hback
  simp only [List.length_append, List.length_reverse] at hrest hrest'
  obtain ⟨middle, hwhole⟩ : ∃ middle, merged = front.taken ++ middle ++ back.taken.reverse :=
    ⟨_, eq_append_middle hfront.symm hback.symm (by omega)⟩
  rw [hsome, hwhole]
  congr 1
  -- What stands in the middle is one element at most, and the same on both sides.
  have hmiddle := hperm.trans hmerged.symm
  rw [hwhole, List.append_assoc front.taken, List.perm_append_right_iff,
    List.perm_append_left_iff] at hmiddle
  have hshort : middle.length ≤ 1 := by
    have hlength' := congrArg List.length hwhole
    simp only [List.length_append, List.length_reverse] at hlength'
    omega
  rw [List.append_assoc front.taken]
  match middle, hshort, hmiddle with
  | [], _, hmiddle => rw [hmiddle.eq_nil]
  | [x], _, hmiddle => rw [List.perm_singleton.1 hmiddle]

end Meeting

theorem perm_of_mergeFromEnds {less : α → α → Bool} {left right merged : List α}
    (h : mergeFromEnds less left right = some merged) : merged.Perm (left ++ right) := by
  obtain ⟨_, _, hfront⟩ := exists_reached (fun x y => !less y x) left.length left right
  obtain ⟨_, _, hback⟩ :=
    exists_reached (fun x y => less y x) left.length left.reverse right.reverse
  exact perm_of_meetEnds hfront hback h

/-- For a weak order a merge from both ends is the merge from one end. -/
theorem IsStableSort.mergeFromEnds {cmp : α → α → Ordering} [Std.TransCmp cmp]
    {first second left right : List α} (hf : IsStableSort cmp first left)
    (hs : IsStableSort cmp second right) (hle : left.length ≤ right.length)
    (hle' : right.length ≤ left.length + 1) :
    Store.mergeFromEnds (before cmp) left right = some (mergeBy cmp left right) := by
  obtain ⟨frontLeft, frontRight, hfront⟩ :=
    exists_reached (fun x y => !before cmp y x) left.length left right
  obtain ⟨backLeft, backRight, hback⟩ :=
    exists_reached (fun x y => before cmp y x) left.length left.reverse right.reverse
  -- The lists rise, so that a comparison with a head holds of what comes after it.
  have hfirst := hfront.left_first (hs.isLE.imp fun hle x hx =>
    not_before_eq_true_iff.2 (Std.TransCmp.isLE_trans (not_before_eq_true_iff.1 hx) hle))
  have hfirst' := hfront.right_first (hf.isLE.imp fun hle y hy =>
    not_before_eq_true_iff.2 (Std.TransCmp.isLE_trans hle (not_before_eq_true_iff.1 hy)))
  have hlast := hback.left_first (List.pairwise_reverse.2 (hs.isLE.imp fun hle x hx =>
    decide_eq_true (Std.TransCmp.lt_of_isLE_of_lt hle (of_decide_eq_true hx))))
  have hlast' := hback.right_first (List.pairwise_reverse.2 (hf.isLE.imp fun hle y hy =>
    decide_eq_true (Std.TransCmp.lt_of_lt_of_isLE (of_decide_eq_true hy) hle)))
  obtain ⟨hl, hr, htaken⟩ := hfront.lengths le_rfl hle
  obtain ⟨hl', hr', htaken'⟩ := hback.lengths (by simp) (by simpa using hle)
  rw [List.length_reverse] at hl' hr'
  refine meetEnds_eq hfront hback le_rfl hle (by omega) rfl (hf.merge_reverse hs) ?_ ?_
  · by_contra hoverlap
    obtain ⟨x, hx, hx'⟩ := exists_mem_of_overlap hfront.left_eq hback.left_eq (by omega)
    obtain ⟨y, hy, hy'⟩ := exists_mem_of_gap hfront.right_eq hback.right_eq (by omega)
    have hbehind : before cmp y x = false := by simpa using hfirst x hx y hy
    exact Bool.false_ne_true (hbehind.symm.trans (hlast x hx' y hy'))
  · by_contra hoverlap
    obtain ⟨y, hy, hy'⟩ := exists_mem_of_overlap hfront.right_eq hback.right_eq (by omega)
    obtain ⟨x, hx, hx'⟩ := exists_mem_of_gap hfront.left_eq hback.left_eq (by omega)
    have hbefore : before cmp y x = true := by simpa using hfirst' y hy x hx
    exact Bool.false_ne_true ((hlast' y hy' x hx').symm.trans hbefore)

end Ends

end AttributeStore.Store
