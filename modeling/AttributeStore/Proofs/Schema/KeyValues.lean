import AttributeStore.Proofs.Reencoding
import AttributeStore.Proofs.Codec

/-!
# Keys from values and keys of items

A read builds its key from the values that a caller gives, bent to the declared types; a write takes
it from the item, whose attributes must have these types already. The two agree: a key made from
values is the key of every item that holds it, and the values of an item make its key again.
-/

namespace AttributeStore

theorem Value.wireType_of_encodeAs {declared : WireType} {value : Value} {held : Attribute}
    (h : value.encodeAs declared = .ok held) : held.wireType = declared := by
  unfold encodeAs at h
  split at h
  · obtain rfl := Except.ok.inj h
    rfl
  · split at h
    · obtain rfl := Except.ok.inj h
      rfl
    · cases h
  · split at h
    · rename_i hsame
      rw [hsame]
      exact wireType_of_encode h
    · cases h

/-- The value of a key attribute is encoded as its own type to the attribute again. -/
theorem Attribute.encodeAs_decode {held : Attribute} (h : held.wireType.IsKeyType) :
    held.decode.encodeAs held.wireType = .ok held := by
  rcases eq_of_isKeyType h with ⟨text, rfl⟩ | ⟨text, rfl⟩ | ⟨bytes, rfl⟩
  · rfl
  · rfl
  · rfl

def WireItem.Extends (item part : WireItem) : Prop :=
  ∀ name held, part.get? name = some held → item.get? name = some held

theorem WireItem.Extends.refl (item : WireItem) : item.Extends item :=
  fun _ _ => id

namespace TableSchema

variable {schema : TableSchema} {item key : WireItem}

/-- The key that values make is the key of every item that holds it. -/
theorem keyOf_of_encode (hd : schema.DistinctKeys) {hash : Value} {range : Option Value}
    {primary : PrimaryKey} (hk : schema.keys hash range = .ok primary)
    (he : primary.encode = .ok key) (hi : item.Extends key) : schema.keyOf item = .ok key := by
  rw [keyOf_eq_ok_iff]
  unfold keys at hk
  unfold keyDefinitions
  split at hk
  · rename_i definition value hrange
    obtain rfl := Except.ok.inj hk
    simp only [PrimaryKey.encode, bind_eq_ok, pure_eq_ok] at he
    obtain ⟨held, hheld, other, hother, rfl⟩ := he
    have hne : definition.name ≠ schema.hashKey.name := hd definition hrange
    have hhash : item.get? schema.hashKey.name = some held := by
      apply hi
      rw [Named.get?_insert, if_neg hne, Named.get?_singleton, if_pos rfl]
    have hother' : item.get? definition.name = some other := by
      apply hi
      rw [Named.get?_insert, if_pos rfl]
    rw [hrange, Option.toList_some, hasKey_cons, hasKey_cons]
    refine ⟨⟨⟨held, hhash, Value.wireType_of_encodeAs hheld⟩,
      ⟨other, hother', Value.wireType_of_encodeAs hother⟩, (hasKey_nil item).2 trivial⟩, ?_⟩
    rw [singleton_eq_keyPart hhash, insert_keyPart _ hother', List.singleton_append]
  · cases hk
  · cases hk
  · rename_i hrange
    obtain rfl := Except.ok.inj hk
    simp only [PrimaryKey.encode, bind_eq_ok, pure_eq_ok] at he
    obtain ⟨held, hheld, rfl⟩ := he
    have hhash : item.get? schema.hashKey.name = some held := by
      apply hi
      rw [Named.get?_singleton, if_pos rfl]
    rw [hrange, Option.toList_none, hasKey_cons]
    refine ⟨⟨⟨held, hhash, Value.wireType_of_encodeAs hheld⟩, (hasKey_nil item).2 trivial⟩, ?_⟩
    exact singleton_eq_keyPart hhash

def rangeValue? (schema : TableSchema) (item : WireItem) : Option Value :=
  schema.rangeKey.bind fun definition => item.decode.get? definition.name

theorem get?_decode_of_keyAttribute {definition : AttributeDefinition} {held : Attribute}
    (h : schema.keyAttribute item definition = .ok held) :
    item.decode.get? definition.name = some held.decode ∧
      held.wireType = definition.wireType := by
  obtain ⟨hheld, htype⟩ := (schema.keyAttribute_eq_ok_iff item definition held).1 h
  rw [WireItem.get?_decode, hheld]
  exact ⟨rfl, htype⟩

/-- The values that an item has for the key attributes make its key. -/
theorem encode_keys_of_keyOf (hs : schema.ScalarKeys) (h : schema.keyOf item = .ok key) :
    ∃ hash primary, item.decode.get? schema.hashKey.name = some hash ∧
      schema.keys hash (schema.rangeValue? item) = .ok primary ∧ primary.encode = .ok key := by
  unfold keyOf at h
  rw [bind_eq_ok] at h
  obtain ⟨held, hheld, hrest⟩ := h
  obtain ⟨hhash, htype⟩ := get?_decode_of_keyAttribute hheld
  have hscalar : held.wireType.IsKeyType := by
    rw [htype]
    exact hs _ ((schema.mem_keyDefinitions _).2 (.inl rfl))
  have hencode := Attribute.encodeAs_decode hscalar
  rw [htype] at hencode
  unfold keys rangeValue?
  cases hrange : schema.rangeKey with
  | none =>
    simp only [hrange, pure_eq_ok] at hrest
    obtain rfl := hrest
    refine ⟨held.decode, _, hhash, rfl, ?_⟩
    simp only [PrimaryKey.encode, bind_eq_ok, pure_eq_ok]
    exact ⟨held, hencode, rfl⟩
  | some definition =>
    simp only [hrange, bind_eq_ok, pure_eq_ok] at hrest
    obtain ⟨other, hother, rfl⟩ := hrest
    obtain ⟨hvalue, htype'⟩ := get?_decode_of_keyAttribute hother
    have hscalar' : other.wireType.IsKeyType := by
      rw [htype']
      exact hs _ ((schema.mem_keyDefinitions _).2 (.inr hrange))
    have hencode' := Attribute.encodeAs_decode hscalar'
    rw [htype'] at hencode'
    refine ⟨held.decode, _, hhash, by rw [Option.bind_some, hvalue], ?_⟩
    simp only [PrimaryKey.encode, bind_eq_ok, pure_eq_ok]
    exact ⟨held, hencode, other, hencode', rfl⟩

/-- Keys of reads and keys of writes agree. What values make is the key that is found in it and in
every item that holds it; the values of an item that has a key of strings, numbers and bytes make
that key; and no attribute of a key has another type than the declared one. -/
theorem keys_agree_with_keyOf (hd : schema.DistinctKeys) :
    (∀ hash range primary key, schema.keys hash range = .ok primary → primary.encode = .ok key →
      schema.keyOf key = .ok key ∧ ∀ item, item.Extends key → schema.keyOf item = .ok key) ∧
    (schema.ScalarKeys → ∀ item key, schema.keyOf item = .ok key →
      ∃ hash primary, item.decode.get? schema.hashKey.name = some hash ∧
        schema.keys hash (schema.rangeValue? item) = .ok primary ∧ primary.encode = .ok key) ∧
    ∀ declared (value : Value) held, value.encodeAs declared = .ok held →
      held.wireType = declared := by
  refine ⟨?_, fun hs item key => encode_keys_of_keyOf hs, fun _ _ _ => Value.wireType_of_encodeAs⟩
  intro hash range primary key hk he
  exact ⟨keyOf_of_encode hd hk he (.refl key), fun item => keyOf_of_encode hd hk he⟩

def dailyVisits : TableSchema :=
  (withHashKey "visits" ⟨"id", .number⟩).addRangeKey ⟨"day", .string⟩

/-- What the number 7 as text and the day 5 as a number make. -/
def bentKey : WireItem :=
  Named.ofList [("id", .leaf (.number "7")), ("day", .leaf (.string "5"))]

theorem keys_agree_with_keyOf_bent :
    dailyVisits.DistinctKeys ∧ dailyVisits.ScalarKeys ∧
    (∃ primary, dailyVisits.keys (.leaf (.string "7")) (some (.leaf (.number ⟨"5"⟩))) =
      .ok primary ∧ primary.encode = .ok bentKey) ∧
    dailyVisits.keyOf (bentKey.insert "note" (.leaf (.string "late"))) = .ok bentKey ∧
    (∃ primary, dailyVisits.keys (.leaf (.number ⟨"7"⟩)) (some (.leaf (.string "5"))) =
      .ok primary ∧ primary.encode = .ok bentKey) ∧
    (Value.encodeAs .number (.leaf (.string "7"))).map Attribute.wireType = .ok .number := by
  have hdistinct : dailyVisits.DistinctKeys := by
    rintro _ ⟨⟩
    decide
  have hscalar : dailyVisits.ScalarKeys := by decide
  obtain ⟨hmade, hvalues, htype⟩ := keys_agree_with_keyOf hdistinct
  have hextends : WireItem.Extends (bentKey.insert "note" (.leaf (.string "late"))) bentKey := by
    intro name held hheld
    rw [Named.get?_insert]
    split
    · rename_i hname
      subst hname
      cases hheld
    · exact hheld
  have hkeyOf := (hmade (.leaf (.string "7")) (some (.leaf (.number ⟨"5"⟩))) _ bentKey rfl rfl).2
    _ hextends
  obtain ⟨hash, primary, hhash, hkeys, hencode⟩ := hvalues hscalar _ _ hkeyOf
  obtain rfl : hash = .leaf (.number ⟨"7"⟩) := (Option.some.inj hhash).symm
  refine ⟨hdistinct, hscalar, ⟨_, rfl, rfl⟩, hkeyOf, ⟨primary, hkeys, hencode⟩, ?_⟩
  exact congrArg Except.ok (htype .number (.leaf (.string "7")) _ rfl)

end TableSchema

end AttributeStore
