import AttributeStore.Proofs.Document
import AttributeStore.Proofs.Keys
import AttributeStore.Value.Codec

/-!
# Keys there and back

A key whose attributes are strings, numbers or bytes is what its decoded form encodes to, so that
a key that the store tells can be given back to it.
-/

namespace AttributeStore

def WireType.IsKeyType (wireType : WireType) : Prop :=
  wireType = .string ∨ wireType = .number ∨ wireType = .binary

instance (wireType : WireType) : Decidable wireType.IsKeyType :=
  inferInstanceAs (Decidable (_ ∨ _))

/-- The key attributes of a schema are strings, numbers or bytes. -/
def TableSchema.ScalarKeys (schema : TableSchema) : Prop :=
  ∀ definition ∈ schema.keyDefinitions, definition.wireType.IsKeyType

instance (schema : TableSchema) : Decidable schema.ScalarKeys :=
  inferInstanceAs (Decidable (∀ definition ∈ schema.keyDefinitions, _))

namespace Attribute

theorem eq_of_isKeyType {held : Attribute} (h : held.wireType.IsKeyType) :
    (∃ text, held = .leaf (.string text)) ∨ (∃ text, held = .leaf (.number text)) ∨
      ∃ bytes, held = .leaf (.binary bytes) := by
  cases held with
  | list members => rcases h with h | h | h <;> cases h
  | map entries => rcases h with h | h | h <;> cases h
  | leaf atom =>
    cases atom with
    | string text => exact Or.inl ⟨text, rfl⟩
    | number text => exact Or.inr (Or.inl ⟨text, rfl⟩)
    | binary bytes => exact Or.inr (Or.inr ⟨bytes, rfl⟩)
    | _ => rcases h with h | h | h <;> cases h

theorem encode_decode {held : Attribute} (h : held.wireType.IsKeyType) :
    held.decode.encode = .ok held := by
  rcases eq_of_isKeyType h with ⟨text, rfl⟩ | ⟨text, rfl⟩ | ⟨bytes, rfl⟩
  · rfl
  · rfl
  · rfl

end Attribute

theorem traverseEntries_decode {entries : List (String × Attribute)}
    (h : ∀ entry ∈ entries, Attribute.wireType entry.2 |>.IsKeyType) :
    Document.traverseEntries Atom.encode
      (entries.map fun entry => (entry.1, Document.mapLeaves WireAtom.decode entry.2)) =
        .ok entries := by
  induction entries with
  | nil => rfl
  | cons entry rest ih =>
    have hfirst : Document.traverse Atom.encode (Document.mapLeaves WireAtom.decode entry.2) =
        .ok entry.2 := Attribute.encode_decode (h entry List.mem_cons_self)
    rw [List.map_cons, Document.traverseEntries, hfirst,
      ih fun e he => h e (List.mem_cons_of_mem _ he)]
    rfl

/-- The key of an item that has the key attributes of a schema comes back from its values. -/
theorem WireItem.encode_decode_keyPart {schema : TableSchema} (hs : schema.ScalarKeys)
    {item : WireItem} (hk : HasKey schema.keyDefinitions item) :
    Item.encode (WireItem.decode (keyPart schema.keyDefinitions item)) =
      .ok (keyPart schema.keyDefinitions item) := by
  apply Named.traverse_eq_ok_iff.2
  apply traverseEntries_decode
  intro entry hentry
  have hget := (Named.mem_entries_iff (keyPart schema.keyDefinitions item) entry.1 entry.2).1 hentry
  rw [get?_keyPart] at hget
  split at hget
  · rename_i hname
    obtain ⟨definition, hd, hdname⟩ := List.mem_map.1 hname
    obtain ⟨held, hheld, htype⟩ := hk definition hd
    rw [hdname, hget] at hheld
    obtain rfl := Option.some.inj hheld
    rw [htype]
    exact hs definition hd
  · cases hget

end AttributeStore
