import AttributeStore.Store.Order
import Mathlib.Data.List.Sort

/-!
# Sorting

Sorting keeps the elements of a list, whatever the order says. For a total order the result is in
order, strictly where no two elements are equal in it.
-/

namespace AttributeStore.Store

section Permutation

variable {α : Type} (less : α → α → Bool)

theorem insertSorted_perm (x : α) (list : List α) :
    (insertSorted less x list).Perm (x :: list) := by
  induction list with
  | nil => exact List.Perm.refl _
  | cons y rest ih =>
    rw [insertSorted]
    split
    · exact (ih.cons y).trans (List.Perm.swap x y rest)
    · exact List.Perm.refl _

theorem foldl_insertSorted_perm (list sorted : List α) :
    (list.foldl (fun sorted x => insertSorted less x sorted) sorted).Perm (list ++ sorted) := by
  induction list generalizing sorted with
  | nil => exact List.Perm.refl _
  | cons x rest ih =>
    rw [List.foldl_cons]
    refine (ih (insertSorted less x sorted)).trans ?_
    exact ((insertSorted_perm less x sorted).append_left rest).trans List.perm_middle

theorem sort_perm (list : List α) : (sort less list).Perm list := by
  unfold sort
  refine (List.reverse_perm _).trans ?_
  have h := foldl_insertSorted_perm less list []
  rwa [List.append_nil] at h

end Permutation

/-- Items in the order of a key, inserted one after the other. -/
def sortItems (keys : KeyNames) (descending : Bool) (items : List WireItem) : List WireItem :=
  sort (fun left right => compareItems keys descending left right = .lt) items

theorem sortItems_perm (keys : KeyNames) (descending : Bool) (items : List WireItem) :
    (sortItems keys descending items).Perm items :=
  sort_perm _ items

section Order

variable {α : Type} {less less' : α → α → Bool}

theorem insertSorted_congr {x : α} {list : List α} (h : ∀ y ∈ list, less x y = less' x y) :
    insertSorted less x list = insertSorted less' x list := by
  induction list with
  | nil => rfl
  | cons y rest ih =>
    rw [insertSorted, insertSorted, h y List.mem_cons_self,
      ih fun z hz => h z (List.mem_cons_of_mem _ hz)]

theorem foldl_insertSorted_congr {list sorted : List α}
    (h : ∀ x ∈ list ++ sorted, ∀ y ∈ list ++ sorted, less x y = less' x y) :
    list.foldl (fun sorted x => insertSorted less x sorted) sorted =
      list.foldl (fun sorted x => insertSorted less' x sorted) sorted := by
  induction list generalizing sorted with
  | nil => rfl
  | cons x rest ih =>
    have hmem {y : α} (hy : y ∈ rest ++ insertSorted less' x sorted) : y ∈ x :: rest ++ sorted := by
      rw [List.mem_append, (insertSorted_perm less' x sorted).mem_iff] at hy
      simp only [List.cons_append, List.mem_cons, List.mem_append] at hy ⊢
      tauto
    have hinsert : insertSorted less x sorted = insertSorted less' x sorted := by
      apply insertSorted_congr
      intro y hy
      exact h x (by simp) y (by simp [hy])
    rw [List.foldl_cons, List.foldl_cons, hinsert]
    exact ih fun y hy z hz => h y (hmem hy) z (hmem hz)

theorem sort_congr {list : List α} (h : ∀ x ∈ list, ∀ y ∈ list, less x y = less' x y) :
    sort less list = sort less' list := by
  unfold sort
  rw [foldl_insertSorted_congr]
  rwa [List.append_nil]

end Order

section Sorted

variable {α : Type} (cmp : α → α → Ordering) [Std.TransCmp cmp]

theorem pairwise_insertSorted (x : α) {list : List α}
    (h : list.Pairwise fun a b => (cmp a b).isGE) :
    (insertSorted (fun a b => cmp a b = .lt) x list).Pairwise fun a b => (cmp a b).isGE := by
  induction list with
  | nil => exact List.pairwise_singleton _ _
  | cons y rest ih =>
    obtain ⟨hy, hrest⟩ := List.pairwise_cons.1 h
    rw [insertSorted]
    split
    · rename_i hlt
      refine List.pairwise_cons.2 ⟨?_, ih hrest⟩
      intro z hz
      rcases List.mem_cons.1 ((insertSorted_perm _ x rest).mem_iff.1 hz) with rfl | hz
      · rw [Std.OrientedCmp.gt_of_lt (of_decide_eq_true hlt)]
        rfl
      · exact hy z hz
    · rename_i hge
      have hxy : (cmp x y).isGE := by
        have hne : cmp x y ≠ .lt := by simpa using hge
        cases hc : cmp x y with
        | lt => exact (hne hc).elim
        | eq => rfl
        | gt => rfl
      refine List.pairwise_cons.2 ⟨?_, h⟩
      intro z hz
      rcases List.mem_cons.1 hz with rfl | hz
      · exact hxy
      · exact Std.TransCmp.isGE_trans hxy (hy z hz)

theorem pairwise_sort (list : List α) :
    (sort (fun a b => cmp a b = .lt) list).Pairwise fun a b => (cmp a b).isLE := by
  have hfold (sorted : List α) (h : sorted.Pairwise fun a b => (cmp a b).isGE) :
      (list.foldl (fun sorted x => insertSorted (fun a b => cmp a b = .lt) x sorted)
        sorted).Pairwise fun a b => (cmp a b).isGE := by
    induction list generalizing sorted with
    | nil => exact h
    | cons x rest ih => exact ih _ (pairwise_insertSorted cmp x h)
  unfold sort
  rw [List.pairwise_reverse]
  refine (hfold [] List.Pairwise.nil).imp ?_
  intro a b hab
  exact Std.OrientedCmp.isGE_iff_isLE.1 hab

variable {cmp} in
theorem pairwise_lt_sort {list : List α} (h : list.Pairwise fun a b => cmp a b ≠ .eq) :
    (sort (fun a b => cmp a b = .lt) list).Pairwise fun a b => cmp a b = .lt := by
  have hne : (sort (fun a b => cmp a b = .lt) list).Pairwise fun a b => cmp a b ≠ .eq := by
    refine (sort_perm _ list).symm.pairwise h ?_
    intro a b hab hba
    exact hab (Std.OrientedCmp.eq_symm hba)
  exact (pairwise_sort cmp list).imp₂
    (fun _ _ hle => (Ordering.isLE_iff_eq_lt_or_eq_eq.1 hle).resolve_right) hne

end Sorted

end AttributeStore.Store
