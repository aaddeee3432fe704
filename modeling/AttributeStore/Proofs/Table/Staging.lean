import AttributeStore.Proofs.Record.Leaves
import AttributeStore.Proofs.Reencoding
import AttributeStore.Proofs.Table.Session

/-!
# Staging records

A handle stages a record as it serialises, without the detour by the item of dynamic values that
it becomes. The detour makes no difference to an item exactly if its sets may be written and its
nulls are plain. A record of the data model writes no sets, and its nulls are plain.
-/

namespace AttributeStore

namespace Record

theorem Writes.settled {record : Record} {atom : WireAtom} (h : record.Writes atom) :
    atom.settled = atom ∧ ¬ atom.IsRefusedSet := by
  obtain ⟨part, -, hpart⟩ := h
  cases part with
  | integer | double | single | text | bool | nothing | bytes =>
    obtain rfl := Option.some.inj hpart
    exact ⟨rfl, id⟩
  | _ => cases hpart

/-- The item that a record becomes comes back from its dynamic values. -/
theorem encode_decode_of_toWireItem {record : Record} {written : WireItem}
    (h : record.toWireItem = .ok written) : written.decode.encode = .ok written := by
  have hsettled : ∀ atom, written.Holds atom → atom.settled = atom ∧ ¬ atom.IsRefusedSet :=
    fun atom holds => Writes.settled ((item_holds_iff_writes h atom).1 holds)
  refine (written.encode_decode_eq_ok_iff written).2 ⟨?_, ?_⟩
  · rintro ⟨name, held, hheld, atom, holds, hrefused⟩
    exact (hsettled atom ⟨name, held, hheld, holds⟩).2 hrefused
  · exact (Named.mapLeaves_eq_self fun atom holds => (hsettled atom holds).1).symm

end Record

namespace Table

/-- Staging an item by its dynamic values comes to staging it as it is exactly if it has no set that
the store refuses and is settled. -/
theorem addItem_decode_eq_ok_iff (table : Table) (written : WireItem) :
    table.addItem written.decode = .ok (table.addEntry { item := written }) ↔
      (¬ ∃ name held, written.get? name = some held ∧ Attribute.HasRefusedSet held) ∧
        written = written.settled := by
  rw [← written.encode_decode_eq_ok_iff, addItem, addItemWith]
  constructor
  · intro h
    obtain ⟨encoded, hencoded, hstaged⟩ := bind_eq_ok.1 h
    have hspool := congrArg Table.spool (Except.ok.inj hstaged)
    have hitem := congrArg Entry.item (List.singleton_inj.1 (List.append_cancel_left hspool))
    exact hencoded.trans (congrArg Except.ok hitem)
  · intro h
    rw [h]
    rfl

theorem addRecord_eq_toItem_addItem (table : Table) (record : Record) :
    table.addRecord record = (record.toItem >>= table.addItem) := by
  unfold addRecord Record.toItem
  cases hwritten : record.toWireItem with
  | error cause => rfl
  | ok written =>
    refine ((table.addItem_decode_eq_ok_iff written).2 ?_).symm
    exact (written.encode_decode_eq_ok_iff written).1 (Record.encode_decode_of_toWireItem hwritten)

end Table

/-- A record is staged as the item that it becomes: either the record becomes an item and both ways
put one and the same entry behind the staged ones, without expectations, or both ways fail for one
cause and leave the session as it was. -/
theorem Session.stages_record_as_item (session : Session) (record : Record) :
    (∃ item entry, record.toItem = .ok item ∧ entry.expected = ∅ ∧
      session.table.addItem item = .ok (session.table.addEntry entry) ∧
      session.table.addRecord record = .ok (session.table.addEntry entry) ∧
      session.perform (.addItem item) = session.perform (.addRecord record) ∧
      (session.perform (.addRecord record)).table.spool = session.table.spool ++ [entry]) ∨
    ∃ cause, (record.toItem >>= session.table.addItem) = .error cause ∧
      session.table.addRecord record = .error cause ∧
      session.stage (record.toItem >>= session.table.addItem) = session ∧
      session.perform (.addRecord record) = session := by
  have hsame := session.table.addRecord_eq_toItem_addItem record
  cases hwritten : record.toWireItem with
  | error cause =>
    have hrecord : session.table.addRecord record = .error (.conversion cause) := by
      rw [Table.addRecord, hwritten]
      rfl
    rw [hrecord] at hsame
    refine .inr ⟨_, hsame.symm, hrecord, ?_, ?_⟩
    · rw [← hsame, stage]
    · rw [perform, hrecord, stage]
  | ok written =>
    have hitem : record.toItem = .ok written.decode := by
      rw [Record.toItem, hwritten]
      rfl
    have hrecord : session.table.addRecord record =
        .ok (session.table.addEntry { item := written }) := by
      rw [Table.addRecord, hwritten]
      rfl
    rw [hrecord, hitem] at hsame
    refine .inl ⟨_, { item := written }, hitem, rfl, hsame.symm, hrecord, ?_, ?_⟩
    · have hadded : session.table.addItem written.decode = _ := hsame.symm
      rw [perform, perform, hadded, hrecord]
    · rw [perform, hrecord]
      rfl

end AttributeStore
