import AttributeStore.Proofs.Store.Sorting

/-!
# Sorting by stretches

A list is cut into stretches, which are in order or as they were. Joining two neighbours makes a
stretch of both of them; so the stack of those that wait, with what is joined and what is still to
come, makes up the whole list at any time, in whatever order joints are made.
-/

namespace AttributeStore.Store

variable {α : Type} {cmp : α → α → Ordering}

/-- A stretch of a part of a list: the part in order, or as it was. -/
inductive Stretch.Holds (cmp : α → α → Ordering) (part : List α) : Stretch α → Prop
  | sorted {items : List α} (h : Arranges cmp part items) : Holds cmp part ⟨items, true⟩
  | unsorted : Holds cmp part ⟨part, false⟩

/-! ## Cutting -/

theorem spanFrom_spec (goesOn : α → α → Bool) (last : α) (list : List α) :
    list = (spanFrom goesOn last list).1 ++ (spanFrom goesOn last list).2 ∧
      (last :: (spanFrom goesOn last list).1).IsChain fun x y => goesOn x y = true := by
  fun_induction spanFrom goesOn last list with
  | case1 last x rest h more after hspan ih =>
    rw [hspan] at ih
    exact ⟨congrArg (x :: ·) ih.1, .cons_cons h ih.2⟩
  | case2 last x rest h => exact ⟨rfl, .singleton last⟩
  | case3 last => exact ⟨rfl, .singleton last⟩

theorem isStableSort_of_isChain [Std.TransCmp cmp] {list : List α}
    (h : list.IsChain fun x y => (!before cmp y x) = true) : IsStableSort cmp list list where
  perm := .refl _
  ordered := by
    have htrans : IsTrans α fun x y => (cmp x y).isLE = true :=
      ⟨fun _ _ _ => Std.TransCmp.isLE_trans⟩
    have hchain : list.IsChain fun x y => (cmp x y).isLE = true :=
      h.imp fun _ _ => not_before_eq_true_iff.1
    exact (List.isChain_iff_pairwise.1 hchain).imp Ordering.ne_gt_iff_isLE.2
  stable _ _ := rfl

theorem pairwise_of_falling [Std.TransCmp cmp] {list : List α}
    (h : list.IsChain fun x y => before cmp y x = true) :
    list.Pairwise fun x y => cmp y x = .lt := by
  have htrans : IsTrans α fun x y => cmp y x = .lt :=
    ⟨fun _ _ _ hxy hyz => Std.TransCmp.lt_trans hyz hxy⟩
  have hchain : list.IsChain fun x y => cmp y x = .lt := h.imp fun _ _ => of_decide_eq_true
  exact List.isChain_iff_pairwise.1 hchain

/-- What falls all the way has no two equal elements, and is in order the other way round. -/
theorem isStableSort_reverse_of_isChain [Std.TransCmp cmp] {list : List α}
    (h : list.IsChain fun x y => before cmp y x = true) :
    IsStableSort cmp list list.reverse where
  perm := list.reverse_perm
  ordered := by
    refine List.pairwise_reverse.2 ((pairwise_of_falling h).imp fun {x y} hlt => ?_)
    rw [hlt]
    nofun
  stable a _ := by
    have halone : (list.filter fun b => cmp a b = .eq).Pairwise fun _ _ => False := by
      refine List.pairwise_filter.2 ((pairwise_of_falling h).imp fun {x y} hlt hx hy => ?_)
      have heq : cmp y x = .eq := Std.TransCmp.eq_trans
        (Std.OrientedCmp.eq_symm (of_decide_eq_true hy)) (of_decide_eq_true hx)
      rw [hlt] at heq
      nomatch heq
    rw [List.filter_reverse]
    match list.filter (fun b => cmp a b = .eq), halone with
    | [], _ => rfl
    | [x], _ => rfl
    | x :: y :: _, halone => exact (List.rel_of_pairwise_cons halone List.mem_cons_self).elim

theorem leadingStretch_spec (cmp : α → α → Ordering) (list : List α) :
    ∃ part, list = part ++ (leadingStretch (before cmp) list).2 ∧
      Arranges cmp part (leadingStretch (before cmp) list).1 := by
  fun_cases leadingStretch (before cmp) list with
  | case1 x y rest h more after hspan =>
    obtain ⟨hrest, hchain⟩ := spanFrom_spec (fun last z => before cmp z last) y rest
    rw [hspan] at hrest hchain
    refine ⟨x :: y :: more, congrArg (x :: y :: ·) hrest, .of_isStableSort ?_ fun _ => ?_⟩
    · exact List.reverse_perm _
    · exact isStableSort_reverse_of_isChain (.cons_cons h hchain)
  | case2 x y rest h more after hspan =>
    obtain ⟨hrest, hchain⟩ := spanFrom_spec (fun last z => !before cmp z last) y rest
    rw [hspan] at hrest hchain
    refine ⟨x :: y :: more, congrArg (x :: y :: ·) hrest, .of_isStableSort (.refl _) fun _ => ?_⟩
    exact isStableSort_of_isChain (.cons_cons (by simpa using h) hchain)
  | case3 list h =>
    refine ⟨list, (List.append_nil list).symm, .of_isStableSort (.refl _) fun _ => ?_⟩
    match list, h with
    | [], _ => exact isStableSort_of_isChain .nil
    | [x], _ => exact isStableSort_of_isChain (.singleton x)
    | x :: y :: rest, h => exact (h x y rest rfl).elim

theorem yields_nextStretch (cmp : α → α → Ordering) (eager : Bool) (least : Nat) (list : List α) :
    Yields cmp (nextStretch (before cmp) eager least list) fun (stretch, after) =>
      ∃ part, list = part ++ after ∧ stretch.Holds cmp part := by
  unfold nextStretch
  obtain ⟨part, hlist, harranged⟩ := leadingStretch_spec cmp list
  generalize leadingStretch (before cmp) list = leading at hlist harranged ⊢
  obtain ⟨items, after⟩ := leading
  dsimp only
  split
  · exact .some ⟨part, hlist, .sorted harranged⟩
  · split
    · refine (yields_sortShort cmp (list.take 32)).bind fun sorted hsorted => .some ?_
      exact ⟨list.take 32, (List.take_append_drop 32 list).symm, .sorted hsorted⟩
    · exact .some ⟨list.take least, (List.take_append_drop least list).symm, .unsorted⟩

/-- Stretches that make up a list, one after the other. -/
inductive Cut (cmp : α → α → Ordering) : List (Stretch α) → List α → Prop
  | nil : Cut cmp [] []
  | cons {stretch : Stretch α} {later : List (Stretch α)} {part after : List α}
    (head : stretch.Holds cmp part) (tail : Cut cmp later after) :
    Cut cmp (stretch :: later) (part ++ after)

theorem yields_cutStretches (cmp : α → α → Ordering) (eager : Bool) (least most : Nat)
    (list : List α) :
    Yields cmp (cutStretches (before cmp) eager least most list) fun stretches =>
      Cut cmp stretches list := by
  fun_induction cutStretches (before cmp) eager least most list with
  | case1 => exact .some .nil
  | case2 list h =>
    have hcut : Cut cmp [⟨list, false⟩] (list ++ []) := .cons .unsorted .nil
    rw [List.append_nil] at hcut
    exact .some hcut
  | case3 most list h ih =>
    refine (yields_nextStretch cmp eager least list).bind fun (stretch, after) hnext => ?_
    obtain ⟨part, hlist, hholds⟩ := hnext
    refine (ih after).bind fun later hlater => .some ?_
    rw [hlist]
    exact .cons hholds hlater

/-! ## Joining -/

theorem Arranges.mergeShorter {first second left right : List α} (hf : Arranges cmp first left)
    (hs : Arranges cmp second right) :
    Arranges cmp (first ++ second) (mergeShorter (before cmp) left right) := by
  unfold Store.mergeShorter
  split
  · refine .of_isStableSort ?_ fun _ => hf.isStableSort.merge hs.isStableSort
    exact (List.merge_perm_append _).trans (hf.perm.append hs.perm)
  · refine .of_isStableSort ?_ fun _ => ?_
    · refine (List.reverse_perm _).trans ((List.merge_perm_append _).trans ?_)
      exact (left.reverse_perm.append right.reverse_perm).trans (hf.perm.append hs.perm)
    · rw [hf.isStableSort.merge_reverse hs.isStableSort, List.reverse_reverse]
      exact hf.isStableSort.merge hs.isStableSort

section Joining

variable {settle : List α → Option (List α)}
  (hsettle : ∀ list, Yields cmp (settle list) (Arranges cmp list))
include hsettle

theorem Stretch.Holds.settled {part : List α} {stretch : Stretch α} (h : stretch.Holds cmp part) :
    Yields cmp (stretch.settled settle) (Arranges cmp part) := by
  cases h with
  | sorted h => exact .some h
  | unsorted => exact hsettle part

theorem Stretch.Holds.join {first second : List α} {left right : Stretch α} (room : Nat)
    (hl : left.Holds cmp first) (hr : right.Holds cmp second) :
    Yields cmp (joinStretches (before cmp) settle room left right)
      (Stretch.Holds cmp (first ++ second)) := by
  unfold joinStretches
  split
  · rename_i hwait
    cases hl with
    | sorted => simp at hwait
    | unsorted =>
      cases hr with
      | sorted => simp at hwait
      | unsorted => exact .some .unsorted
  · refine (hl.settled hsettle).bind fun left' hl' => ?_
    refine (hr.settled hsettle).bind fun right' hr' => .some (.sorted (hl'.mergeShorter hr'))

end Joining

/-- Stretches that make up a list, the last one on top. -/
inductive Stacked (cmp : α → α → Ordering) : List (Stretch α × Nat) → List α → Prop
  | nil : Stacked cmp [] []
  | cons {stretch : Stretch α} {joint : Nat} {earlier : List (Stretch α × Nat)}
    {before part : List α} (tail : Stacked cmp earlier before) (head : stretch.Holds cmp part) :
    Stacked cmp ((stretch, joint) :: earlier) (before ++ part)

section Stack

variable {join : Stretch α → Stretch α → Option (Stretch α)}
  (hjoin : ∀ {first second left right}, Stretch.Holds cmp first left →
    Stretch.Holds cmp second right →
      Yields cmp (join left right) (Stretch.Holds cmp (first ++ second)))
include hjoin

/-- Joining the last stretch to earlier ones makes up the same list; at depth zero nothing waits
afterwards. -/
theorem Stacked.collapse {earlier : List (Stretch α × Nat)} {stretch : Stretch α}
    {before part : List α} (depth : Nat) (hs : Stacked cmp earlier before)
    (hh : stretch.Holds cmp part) :
    Yields cmp (collapse join depth earlier stretch) fun (earlier, joined) =>
      ∃ before' part', before' ++ part' = before ++ part ∧ Stacked cmp earlier before' ∧
        joined.Holds cmp part' ∧ (depth = 0 → before' = []) := by
  induction hs generalizing stretch part with
  | nil => exact .some ⟨[], part, rfl, .nil, hh, fun _ => rfl⟩
  | @cons left joint earlier before top tail head ih =>
    rw [Store.collapse]
    split
    · refine (hjoin head hh).bind fun joined hjoined => ?_
      rw [List.append_assoc]
      exact ih hjoined
    · rename_i hdeeper
      exact .some ⟨before ++ top, part, rfl, .cons tail head, hh, fun h0 => by omega⟩

theorem Stacked.joinAll {earlier : List (Stretch α × Nat)} {stretch : Stretch α}
    {later : List (Stretch α)} {before part after : List α} (length start : Nat)
    (hs : Stacked cmp earlier before) (hh : stretch.Holds cmp part) (hl : Cut cmp later after) :
    Yields cmp (joinAll join length earlier start stretch later)
      (Stretch.Holds cmp (before ++ part ++ after)) := by
  induction hl generalizing earlier start stretch before part with
  | nil =>
    refine (hs.collapse hjoin 0 hh).bind fun (_, whole) h => .some ?_
    obtain ⟨before', part', hsame, -, hwhole, hnone⟩ := h
    rw [hnone rfl, List.nil_append] at hsame
    rw [List.append_nil, ← hsame]
    exact hwhole
  | @cons next later part' after head tail ih =>
    refine (hs.collapse hjoin _ hh).bind fun (earlier', joined) h => ?_
    obtain ⟨before', part'', hsame, hstacked, hjoined, -⟩ := h
    rw [← List.append_assoc, ← hsame]
    exact ih _ (hstacked.cons hjoined) head

end Stack

/-- Sorting by stretches is right if what sorts the others is. -/
theorem yields_sortStretches {settle : List α → Option (List α)}
    (hsettle : ∀ list, Yields cmp (settle list) (Arranges cmp list)) (eager : Bool) (room : Nat)
    (list : List α) :
    Yields cmp (sortStretches (before cmp) settle eager room list) (Arranges cmp list) := by
  refine (yields_cutStretches cmp eager _ _ list).bind fun stretches hcut => ?_
  cases hcut with
  | nil => exact .some (.sort cmp [])
  | cons head tail =>
    refine (Stacked.nil.joinAll (Stretch.Holds.join hsettle room) _ _ head tail).bind ?_
    intro whole hwhole
    exact hwhole.settled hsettle

end AttributeStore.Store
