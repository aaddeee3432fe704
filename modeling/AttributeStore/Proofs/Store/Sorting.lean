import AttributeStore.Proofs.Store.Merge

/-!
# Sorting short lists

Every part of the sort gives its elements back in some order, for a weak order in the one into which
insertion brings them; and for a weak order it does give them. That is shown here of the parts for
short lists: four elements by five comparisons, a half with the others inserted, and both halves
merged from their ends.
-/

namespace AttributeStore.Store

variable {α β γ : Type} {cmp : α → α → Ordering}

/-- There is a result if the order is a weak one, and every result is as wanted. -/
structure Yields (cmp : α → α → Ordering) (result : Option β) (Wanted : β → Prop) : Prop where
  wanted : ∀ value, result = some value → Wanted value
  isSome : Std.TransCmp cmp → result.isSome = true

namespace Yields

variable {result : Option β} {Wanted : β → Prop} {Wanted' : γ → Prop}

theorem some {value : β} (h : Wanted value) : Yields cmp (some value) Wanted where
  wanted _ heq := Option.some.inj heq ▸ h
  isSome _ := rfl

theorem bind {next : β → Option γ} (h : Yields cmp result Wanted)
    (hnext : ∀ value, Wanted value → Yields cmp (next value) Wanted') :
    Yields cmp (result.bind next) Wanted' := by
  cases result with
  | none => exact ⟨nofun, fun hc => (Bool.false_ne_true (h.isSome hc)).elim⟩
  | some value => exact hnext value (h.wanted value rfl)

end Yields

/-- A list in some order, for a weak order in that of insertion. -/
structure Arranges (cmp : α → α → Ordering) (list sorted : List α) : Prop where
  perm : sorted.Perm list
  eq_sort : Std.TransCmp cmp → sorted = sort (before cmp) list

namespace Arranges

variable {first second list left right sorted : List α}

theorem sort (cmp : α → α → Ordering) (list : List α) :
    Arranges cmp list (Store.sort (before cmp) list) where
  perm := sort_perm _ list
  eq_sort _ := rfl

theorem of_isStableSort (hp : sorted.Perm list)
    (hs : Std.TransCmp cmp → IsStableSort cmp list sorted) : Arranges cmp list sorted where
  perm := hp
  eq_sort hc := (hs hc).unique (isStableSort_sort cmp list)

theorem isStableSort [Std.TransCmp cmp] (h : Arranges cmp list sorted) :
    IsStableSort cmp list sorted := by
  rw [h.eq_sort ‹_›]
  exact isStableSort_sort cmp list

theorem mergeFromEnds (hf : Arranges cmp first left) (hs : Arranges cmp second right)
    (hle : first.length ≤ second.length) (hle' : second.length ≤ first.length + 1) :
    Yields cmp (mergeFromEnds (before cmp) left right) (Arranges cmp (first ++ second)) := by
  rw [← hf.perm.length_eq, ← hs.perm.length_eq] at hle hle'
  have hmerged (hc : Std.TransCmp cmp) :=
    hf.isStableSort.mergeFromEnds hs.isStableSort hle hle'
  refine ⟨fun merged h => .of_isStableSort ?_ fun hc => ?_, fun hc => ?_⟩
  · exact (perm_of_mergeFromEnds h).trans (hf.perm.append hs.perm)
  · obtain rfl := Option.some.inj ((hmerged hc).symm.trans h)
    exact hf.isStableSort.merge hs.isStableSort
  · rw [hmerged hc]
    rfl

end Arranges

/-! ## Insertion -/

section Insertion

variable {less : α → α → Bool}

theorem insertAll_perm (sorted list : List α) :
    (insertAll less sorted list).Perm (sorted ++ list) := by
  unfold insertAll
  refine (List.reverse_perm _).trans ((foldl_insertSorted_perm less list _).trans ?_)
  exact (sorted.reverse_perm.append_left list).trans List.perm_append_comm

theorem insertAll_sort (first second : List α) :
    insertAll less (sort less first) second = sort less (first ++ second) := by
  unfold insertAll sort
  rw [List.reverse_reverse, List.foldl_append]

theorem Arranges.insertAll {first sorted : List α} (h : Arranges cmp first sorted)
    (second : List α) :
    Arranges cmp (first ++ second) (insertAll (before cmp) sorted second) where
  perm := (insertAll_perm sorted second).trans (h.perm.append_right second)
  eq_sort hc := by rw [h.eq_sort hc, insertAll_sort]

end Insertion

/-! ## Short lists -/

theorem arranges_sortTwo (cmp : α → α → Ordering) (x y : α) :
    Arranges cmp [x, y] [(sortTwo (before cmp) x y).1, (sortTwo (before cmp) x y).2] := by
  have hsort : [(sortTwo (before cmp) x y).1, (sortTwo (before cmp) x y).2] =
      sort (before cmp) [x, y] := by
    rw [sortTwo, sort, List.foldl_cons, List.foldl_cons, List.foldl_nil, insertSorted,
      insertSorted]
    split
    · rw [insertSorted]
      rfl
    · rfl
  rw [hsort]
  exact .sort cmp [x, y]

theorem mergePairs_perm (less : α → α → Bool) (a b c d : α) :
    (mergePairs less a b c d).Perm [a, b, c, d] := by
  unfold mergePairs sortTwo
  rw [← Multiset.coe_eq_coe]
  cases less c a <;> cases less d b <;> dsimp only <;> split <;>
    simp only [← Multiset.cons_coe, ← Multiset.singleton_add] <;> abel

/-- Only the two comparisons in the middle that a merge makes as well are not settled by those
before. -/
theorem mergePairs_eq [Std.TransCmp cmp] {a b c d : α} (hab : (cmp a b).isLE = true)
    (hcd : (cmp c d).isLE = true) :
    mergePairs (before cmp) a b c d = mergeBy cmp [a, b] [c, d] := by
  have hba : before cmp b a = false := before_eq_false_iff.2 hab
  have hdc : before cmp d c = false := before_eq_false_iff.2 hcd
  unfold mergePairs sortTwo mergeBy
  simp only [List.cons_merge_cons, List.merge_right, List.nil_merge, Bool.not_eq_true']
  cases hca : before cmp c a with
  | false =>
    cases hdb : before cmp d b with
    | false => cases before cmp c b <;> simp
    | true =>
      have hcb : before cmp c b = true :=
        decide_eq_true (Std.TransCmp.lt_of_isLE_of_lt hcd (of_decide_eq_true hdb))
      simp [hcb, hdc]
  | true =>
    cases hdb : before cmp d b with
    | false =>
      have hda : before cmp d a = false :=
        before_eq_false_iff.2 (Std.TransCmp.isLE_trans hab (before_eq_false_iff.1 hdb))
      simp [hba, hda]
    | true => cases before cmp d a <;> simp

theorem arranges_sortFour (cmp : α → α → Ordering) (a b c d : α) :
    Arranges cmp [a, b, c, d] (sortFour (before cmp) a b c d) := by
  have hleft := arranges_sortTwo cmp a b
  have hright := arranges_sortTwo cmp c d
  unfold sortFour
  generalize sortTwo (before cmp) a b = left at hleft ⊢
  generalize sortTwo (before cmp) c d = right at hright ⊢
  obtain ⟨a', b'⟩ := left
  obtain ⟨c', d'⟩ := right
  refine .of_isStableSort ?_ fun hc => ?_
  · exact (mergePairs_perm _ a' b' c' d').trans (hleft.perm.append hright.perm)
  · have hmerge := hleft.isStableSort.merge hright.isStableSort
    rw [← mergePairs_eq] at hmerge
    · exact hmerge
    · exact List.rel_of_pairwise_cons hleft.isStableSort.isLE (List.mem_singleton_self _)
    · exact List.rel_of_pairwise_cons hright.isStableSort.isLE (List.mem_singleton_self _)

theorem yields_sortFirst (cmp : α → α → Ordering) (list : List α) :
    Yields cmp (sortFirst (before cmp) list) (Arranges cmp list) := by
  fun_cases sortFirst (before cmp) list with
  | case1 a b c d => exact .some (arranges_sortFour cmp a b c d)
  | case2 a b c d e f g h =>
    exact (arranges_sortFour cmp a b c d).mergeFromEnds (arranges_sortFour cmp e f g h)
      le_rfl (Nat.le_succ _)
  | case3 list => exact .some (.sort cmp list)

theorem yields_sortHalf (cmp : α → α → Ordering) (count : Nat) (list : List α) :
    Yields cmp (sortHalf (before cmp) count list) (Arranges cmp list) := by
  refine (yields_sortFirst cmp (list.take count)).bind fun sorted h => .some ?_
  have hinserted := h.insertAll (list.drop count)
  rwa [List.take_append_drop] at hinserted

theorem yields_sortShort (cmp : α → α → Ordering) (list : List α) :
    Yields cmp (sortShort (before cmp) list) (Arranges cmp list) := by
  refine (yields_sortHalf cmp _ (list.take (list.length / 2))).bind fun left hl => ?_
  refine (yields_sortHalf cmp _ (list.drop (list.length / 2))).bind fun right hr => ?_
  have hmerged := hl.mergeFromEnds hr
    (by rw [List.length_take, List.length_drop]; omega)
    (by rw [List.length_take, List.length_drop]; omega)
  rwa [List.take_append_drop] at hmerged

end AttributeStore.Store
