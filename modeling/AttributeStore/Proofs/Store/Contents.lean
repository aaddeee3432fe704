import AttributeStore.Proofs.Roster
import AttributeStore.Store

/-!
# The items of a table by key

A table finds an item by searching its list for a key. As long as no two items have one key
(`Distinct`), the list is a map: `put` replaces what is held under a key, `delete` removes it, and
both keep the keys distinct.
-/

namespace AttributeStore.Store

section Lists

variable {α β : Type} [DecidableEq β] (keyOf : α → β)

theorem map_eq_self_of_fresh {items : List α} {item : α} (h : keyOf item ∉ items.map keyOf) :
    items.map (fun old => if keyOf old = keyOf item then item else old) = items := by
  conv => rhs; rw [← List.map_id items]
  apply List.map_congr_left
  intro old hold
  have hne : keyOf old ≠ keyOf item := fun e => h (e ▸ List.mem_map_of_mem hold)
  rw [if_neg hne, id]

/-- Writing to the first place of a key writes to every place of it, when there is one. -/
theorem set_eq_map {items : List α} {item : α} {place : Nat}
    (hd : (items.map keyOf).Nodup)
    (hp : items.findIdx? (fun old => keyOf old = keyOf item) = some place) :
    items.set place item = items.map fun old => if keyOf old = keyOf item then item else old := by
  induction items generalizing place with
  | nil => cases hp
  | cons old rest ih =>
    obtain ⟨hfresh, hd'⟩ := List.nodup_cons.1 hd
    rw [List.findIdx?_cons] at hp
    by_cases h : keyOf old = keyOf item
    · simp only [h, decide_true, ↓reduceIte, Option.some.injEq] at hp
      subst hp
      rw [List.set_cons_zero, List.map_cons, if_pos h]
      rw [map_eq_self_of_fresh keyOf (h ▸ hfresh)]
    · simp only [h, decide_false, Bool.false_eq_true, ↓reduceIte, Option.map_eq_some_iff] at hp
      obtain ⟨i, hi, rfl⟩ := hp
      rw [List.set_cons_succ, List.map_cons, if_neg h, ih hd' hi]

theorem filter_eq_self_of_fresh {items : List α} {key : β} (h : key ∉ items.map keyOf) :
    items.filter (fun old => keyOf old ≠ key) = items := by
  apply List.filter_eq_self.2
  intro old hold
  have hne : keyOf old ≠ key := fun e => h (e ▸ List.mem_map_of_mem hold)
  simpa using hne

/-- Removing the first place of a key removes every place of it, when there is one. -/
theorem eraseIdx_eq_filter {items : List α} {key : β} {place : Nat}
    (hd : (items.map keyOf).Nodup)
    (hp : items.findIdx? (fun old => keyOf old = key) = some place) :
    items.eraseIdx place = items.filter fun old => keyOf old ≠ key := by
  induction items generalizing place with
  | nil => cases hp
  | cons old rest ih =>
    obtain ⟨hfresh, hd'⟩ := List.nodup_cons.1 hd
    rw [List.findIdx?_cons] at hp
    by_cases h : keyOf old = key
    · simp only [h, decide_true, ↓reduceIte, Option.some.injEq] at hp
      subst hp
      rw [List.eraseIdx_cons_zero, List.filter_cons_of_neg (by simpa using h)]
      exact (filter_eq_self_of_fresh keyOf (h ▸ hfresh)).symm
    · simp only [h, decide_false, Bool.false_eq_true, ↓reduceIte, Option.map_eq_some_iff] at hp
      obtain ⟨i, hi, rfl⟩ := hp
      rw [List.eraseIdx_cons_succ, ih hd' hi, List.filter_cons_of_pos (by simpa using h)]

theorem key_notMem_of_findIdx?_eq_none {items : List α} {key : β}
    (hp : items.findIdx? (fun old => keyOf old = key) = none) : key ∉ items.map keyOf := by
  intro hm
  obtain ⟨old, hold, rfl⟩ := List.mem_map.1 hm
  have := List.findIdx?_eq_none_iff.1 hp old hold
  simp at this

end Lists

namespace StoredTable

/-- No two items of the table have one key. -/
def Distinct (table : StoredTable) : Prop :=
  (table.items.map table.keyOf).Nodup

@[simp] theorem keys_put (table : StoredTable) (item : WireItem) :
    (table.put item).keys = table.keys := by
  unfold put
  split <;> rfl

@[simp] theorem keys_delete (table : StoredTable) (key : WireItem) :
    (table.delete key).keys = table.keys := by
  unfold delete
  split <;> rfl

theorem keyOf_congr {left right : StoredTable} (h : left.keys = right.keys) :
    left.keyOf = right.keyOf := by
  funext item
  rw [keyOf, keyOf, h]

@[simp] theorem keyOf_put (table : StoredTable) (item : WireItem) :
    (table.put item).keyOf = table.keyOf :=
  keyOf_congr (keys_put table item)

@[simp] theorem keyOf_delete (table : StoredTable) (key : WireItem) :
    (table.delete key).keyOf = table.keyOf :=
  keyOf_congr (keys_delete table key)

theorem items_put {table : StoredTable} (hd : table.Distinct) (item : WireItem) :
    (table.put item).items =
      if table.keyOf item ∈ table.items.map table.keyOf then
        table.items.map fun old => if table.keyOf old = table.keyOf item then item else old
      else table.items ++ [item] := by
  unfold put position
  cases hp : table.items.findIdx? fun old => table.keyOf old = table.keyOf item with
  | none =>
    have := key_notMem_of_findIdx?_eq_none table.keyOf hp
    rw [if_neg this]
  | some place =>
    have hm : table.keyOf item ∈ table.items.map table.keyOf := by
      obtain ⟨hlt, hk, -⟩ := List.findIdx?_eq_some_iff_getElem.1 hp
      exact List.mem_map.2 ⟨_, List.getElem_mem hlt, by simpa using hk⟩
    rw [if_pos hm]
    exact set_eq_map table.keyOf hd hp

theorem items_delete {table : StoredTable} (hd : table.Distinct) (key : WireItem) :
    (table.delete key).items = table.items.filter fun old => table.keyOf old ≠ key := by
  unfold delete position
  cases hp : table.items.findIdx? fun old => table.keyOf old = key with
  | none =>
    exact (filter_eq_self_of_fresh table.keyOf (key_notMem_of_findIdx?_eq_none _ hp)).symm
  | some place => exact eraseIdx_eq_filter table.keyOf hd hp

theorem Distinct.put {table : StoredTable} (hd : table.Distinct) (item : WireItem) :
    (table.put item).Distinct := by
  unfold Distinct
  rw [keyOf_put, items_put hd]
  split
  · have hkeys : (table.items.map fun old =>
        if table.keyOf old = table.keyOf item then item else old).map table.keyOf =
          table.items.map table.keyOf := by
      rw [List.map_map]
      apply List.map_congr_left
      intro old _
      simp only [Function.comp_apply]
      split
      · rename_i h
        exact h.symm
      · rfl
    rw [hkeys]
    exact hd
  · rename_i hfresh
    rw [List.map_append, List.nodup_append]
    refine ⟨hd, by simp, ?_⟩
    intro a ha b hb
    simp only [List.map_cons, List.map_nil, List.mem_singleton] at hb
    rintro rfl
    exact hfresh (hb ▸ ha)

theorem Distinct.delete {table : StoredTable} (hd : table.Distinct) (key : WireItem) :
    (table.delete key).Distinct := by
  unfold Distinct
  rw [keyOf_delete, items_delete hd]
  exact hd.sublist (List.filter_sublist.map table.keyOf)

theorem mem_items_put {table : StoredTable} (hd : table.Distinct) (item old : WireItem) :
    old ∈ (table.put item).items ↔
      old = item ∨ old ∈ table.items ∧ table.keyOf old ≠ table.keyOf item := by
  rw [items_put hd]
  split
  · rename_i hm
    obtain ⟨held, hheld, hkey⟩ := List.mem_map.1 hm
    rw [List.mem_map]
    constructor
    · rintro ⟨before, hbefore, rfl⟩
      split
      · exact Or.inl rfl
      · rename_i hne
        exact Or.inr ⟨hbefore, hne⟩
    · rintro (rfl | ⟨hold, hne⟩)
      · exact ⟨held, hheld, if_pos hkey⟩
      · exact ⟨old, hold, if_neg hne⟩
  · rename_i hfresh
    rw [List.mem_append, List.mem_singleton, or_comm]
    refine or_congr_right ⟨fun hold => ⟨hold, fun e => hfresh (e ▸ List.mem_map_of_mem hold)⟩, ?_⟩
    exact And.left

theorem mem_items_delete {table : StoredTable} (hd : table.Distinct) (key old : WireItem) :
    old ∈ (table.delete key).items ↔ old ∈ table.items ∧ table.keyOf old ≠ key := by
  rw [items_delete hd, List.mem_filter]
  simp

theorem find?_eq_some_iff {table : StoredTable} (hd : table.Distinct) (key item : WireItem) :
    table.find? key = some item ↔ item ∈ table.items ∧ table.keyOf item = key :=
  find?_eq_some_iff_of_nodup table.keyOf hd

end StoredTable

end AttributeStore.Store
