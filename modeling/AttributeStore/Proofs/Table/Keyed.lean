import AttributeStore.Proofs.Keys
import AttributeStore.Proofs.Store.Contents
import AttributeStore.Proofs.Table.Flush

/-!
# Tables of keyed items

What holds of a stored table whose contents come through a handle: its keys have the names of the
schema, no two items have one key, and every item has its key attributes with the declared types.
Puts of keyed items and deletes keep it so, and change what is found under one key only.
-/

namespace AttributeStore

namespace Store.StoredTable

/-- Every item has a key of its own, of the types that the schema declares. -/
structure Keyed (schema : TableSchema) (stored : StoredTable) : Prop where
  names : stored.keys = schema.keyNames
  distinct : stored.Distinct
  complete : ∀ item ∈ stored.items, HasKey schema.keyDefinitions item

variable {schema : TableSchema} {stored : StoredTable}

theorem Keyed.of_items_nil (hn : stored.keys = schema.keyNames) (hi : stored.items = []) :
    stored.Keyed schema where
  names := hn
  distinct := by
    unfold Distinct
    rw [hi]
    exact List.nodup_nil
  complete := by
    intro item hitem
    rw [hi] at hitem
    exact (List.not_mem_nil hitem).elim

theorem Keyed.put (h : stored.Keyed schema) {item : WireItem}
    (hk : HasKey schema.keyDefinitions item) : (stored.put item).Keyed schema where
  names := (keys_put stored item).trans h.names
  distinct := h.distinct.put item
  complete := by
    intro held hheld
    rcases (mem_items_put h.distinct item held).1 hheld with rfl | ⟨hheld, _⟩
    · exact hk
    · exact h.complete held hheld

theorem Keyed.delete (h : stored.Keyed schema) (key : WireItem) :
    (stored.delete key).Keyed schema where
  names := (keys_delete stored key).trans h.names
  distinct := h.distinct.delete key
  complete := by
    intro held hheld
    exact h.complete held ((mem_items_delete h.distinct key held).1 hheld).1

theorem Keyed.putAll (h : stored.Keyed schema) {entries : List Entry}
    (hk : ∀ entry ∈ entries, HasKey schema.keyDefinitions entry.item) :
    (stored.putAll entries).Keyed schema := by
  induction entries generalizing stored with
  | nil => exact h
  | cons entry rest ih =>
    exact ih (h.put (hk entry List.mem_cons_self)) fun e he => hk e (List.mem_cons_of_mem _ he)

theorem Keyed.keyOf_eq_ok_iff (h : stored.Keyed schema) {item : WireItem}
    (hitem : item ∈ stored.items) (key : WireItem) :
    schema.keyOf item = .ok key ↔ stored.keyOf item = key := by
  rw [schema.keyOf_eq_ok_iff, stored.keyOf_eq h.names]
  exact ⟨fun hk => hk.2.symm, fun hk => ⟨h.complete item hitem, hk.symm⟩⟩

theorem find?_put (hd : stored.Distinct) (item key : WireItem) :
    (stored.put item).find? key =
      if stored.keyOf item = key then some item else stored.find? key := by
  ext found
  rw [find?_eq_some_iff (hd.put item), mem_items_put hd, keyOf_put]
  split
  · rename_i hkey
    subst hkey
    constructor
    · rintro ⟨rfl | ⟨_, hne⟩, hfound⟩
      · rfl
      · exact (hne hfound).elim
    · rintro ⟨⟩
      exact ⟨Or.inl rfl, rfl⟩
  · rename_i hkey
    rw [find?_eq_some_iff hd]
    constructor
    · rintro ⟨rfl | ⟨hold, _⟩, hfound⟩
      · exact (hkey hfound).elim
      · exact ⟨hold, hfound⟩
    · rintro ⟨hold, rfl⟩
      exact ⟨Or.inr ⟨hold, Ne.symm hkey⟩, rfl⟩

theorem find?_delete (hd : stored.Distinct) (key other : WireItem) :
    (stored.delete key).find? other = if other = key then none else stored.find? other := by
  ext found
  rw [find?_eq_some_iff (hd.delete key), mem_items_delete hd, keyOf_delete]
  split
  · rename_i hkey
    subst hkey
    constructor
    · rintro ⟨⟨_, hne⟩, hfound⟩
      exact (hne hfound).elim
    · rintro ⟨⟩
  · rename_i hkey
    rw [find?_eq_some_iff hd]
    constructor
    · rintro ⟨⟨hold, _⟩, hfound⟩
      exact ⟨hold, hfound⟩
    · rintro ⟨hold, rfl⟩
      exact ⟨⟨hold, hkey⟩, rfl⟩

end Store.StoredTable

end AttributeStore
