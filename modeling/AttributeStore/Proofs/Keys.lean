import AttributeStore.Proofs.Named
import AttributeStore.Proofs.Success
import AttributeStore.Schema.Key
import AttributeStore.Store
import Mathlib.Data.List.Nodup

/-!
# The key of an item

A schema and the store read the key of an item in two ways: the schema checks that each key
attribute is there with its declared type, the store keeps the attributes under the names of the
key. Where the schema accepts an item the two agree, and both are `keyPart`.
-/

namespace AttributeStore

open Store (KeyNames StoredTable)

/-- The part of an item under the names of some attributes. -/
def keyPart (definitions : List AttributeDefinition) (item : WireItem) : WireItem :=
  item.filterNames fun name => name ∈ definitions.map (·.name)

/-- An item has each of some attributes, of its declared type. -/
def HasKey (definitions : List AttributeDefinition) (item : WireItem) : Prop :=
  ∀ definition ∈ definitions, ∃ held,
    item.get? definition.name = some held ∧ held.wireType = definition.wireType

theorem get?_keyPart (definitions : List AttributeDefinition) (item : WireItem) (name : String) :
    (keyPart definitions item).get? name =
      if name ∈ definitions.map (·.name) then item.get? name else none := by
  rw [keyPart, Named.get?_filterNames]
  simp

theorem keyPart_keyPart (definitions : List AttributeDefinition) (item : WireItem) :
    keyPart definitions (keyPart definitions item) = keyPart definitions item := by
  ext name : 1
  rw [get?_keyPart, get?_keyPart]
  split <;> rfl

theorem hasKey_nil (item : WireItem) : HasKey [] item ↔ True := by
  simp [HasKey]

theorem hasKey_cons (definition : AttributeDefinition) (rest : List AttributeDefinition)
    (item : WireItem) :
    HasKey (definition :: rest) item ↔
      (∃ held, item.get? definition.name = some held ∧
        held.wireType = definition.wireType) ∧ HasKey rest item := by
  simp [HasKey]

theorem insert_keyPart (definitions : List AttributeDefinition) {item : WireItem}
    {definition : AttributeDefinition} {held : Attribute}
    (h : item.get? definition.name = some held) :
    (keyPart definitions item).insert definition.name held =
      keyPart (definitions ++ [definition]) item := by
  ext name : 1
  rw [Named.get?_insert, get?_keyPart, get?_keyPart]
  by_cases hn : definition.name = name
  · simp [← hn, h]
  · simp [hn, Ne.symm hn]

theorem singleton_eq_keyPart {item : WireItem} {definition : AttributeDefinition}
    {held : Attribute} (h : item.get? definition.name = some held) :
    Named.singleton definition.name held = keyPart [definition] item := by
  rw [← List.nil_append [definition], ← insert_keyPart [] h, Named.singleton]
  congr 1
  ext name : 1
  rw [get?_keyPart]
  simp

namespace TableSchema

def keyNames (schema : TableSchema) : KeyNames :=
  ⟨schema.hashKey.name, schema.rangeKey.map (·.name)⟩

theorem keyAttribute_eq_ok_iff (schema : TableSchema) (item : WireItem)
    (definition : AttributeDefinition) (held : Attribute) :
    schema.keyAttribute item definition = .ok held ↔
      item.get? definition.name = some held ∧ held.wireType = definition.wireType := by
  unfold keyAttribute
  cases item.get? definition.name with
  | none => simp
  | some found =>
    by_cases h : found.wireType = definition.wireType
    · simp only [h, ↓reduceIte, Except.ok.injEq, Option.some.injEq]
      constructor
      · rintro rfl
        exact ⟨rfl, h⟩
      · exact And.left
    · simp only [h, ↓reduceIte, reduceCtorEq, Option.some.injEq, false_iff, not_and]
      rintro rfl
      exact h

theorem mem_keyDefinitions (schema : TableSchema) (definition : AttributeDefinition) :
    definition ∈ schema.keyDefinitions ↔
      definition = schema.hashKey ∨ schema.rangeKey = some definition := by
  unfold keyDefinitions
  cases schema.rangeKey with
  | none => simp
  | some range => simp [eq_comm]

/-- A schema finds the key of an item exactly when the item has the key attributes with their
declared types, and then the key is the item under their names. -/
theorem keyOf_eq_ok_iff (schema : TableSchema) (item key : WireItem) :
    schema.keyOf item = .ok key ↔
      HasKey schema.keyDefinitions item ∧ key = keyPart schema.keyDefinitions item := by
  unfold keyOf keyDefinitions
  cases schema.rangeKey with
  | none =>
    simp only [bind_eq_ok, keyAttribute_eq_ok_iff, pure_eq_ok, Option.toList_none, hasKey_cons,
      hasKey_nil, and_true]
    constructor
    · rintro ⟨hash, hhash, rfl⟩
      exact ⟨⟨hash, hhash⟩, singleton_eq_keyPart hhash.1⟩
    · rintro ⟨⟨hash, hhash⟩, rfl⟩
      exact ⟨hash, hhash, singleton_eq_keyPart hhash.1⟩
  | some range =>
    simp only [bind_eq_ok, keyAttribute_eq_ok_iff, pure_eq_ok, Option.toList_some, hasKey_cons,
      hasKey_nil, and_true]
    constructor
    · rintro ⟨hash, hhash, held, hheld, rfl⟩
      refine ⟨⟨⟨hash, hhash⟩, ⟨held, hheld⟩⟩, ?_⟩
      rw [singleton_eq_keyPart hhash.1, insert_keyPart _ hheld.1, List.singleton_append]
    · rintro ⟨⟨⟨hash, hhash⟩, ⟨held, hheld⟩⟩, rfl⟩
      refine ⟨hash, hhash, held, hheld, ?_⟩
      rw [singleton_eq_keyPart hhash.1, insert_keyPart _ hheld.1, List.singleton_append]

theorem keyOf_of_hasKey {schema : TableSchema} {item : WireItem}
    (h : HasKey schema.keyDefinitions item) :
    schema.keyOf item = .ok (keyPart schema.keyDefinitions item) :=
  (schema.keyOf_eq_ok_iff item _).2 ⟨h, rfl⟩

/-- The range key, if there is one, has a name of its own. -/
def DistinctKeys (schema : TableSchema) : Prop :=
  ∀ range, schema.rangeKey = some range → range.name ≠ schema.hashKey.name

theorem DistinctKeys.nodup {schema : TableSchema} (h : schema.DistinctKeys) :
    (schema.keyDefinitions.map (·.name)).Nodup := by
  unfold keyDefinitions
  cases hr : schema.rangeKey with
  | none => simp
  | some range => simpa using (h range hr).symm

end TableSchema

theorem size_keyPart {definitions : List AttributeDefinition}
    (hd : (definitions.map (·.name)).Nodup) {item : WireItem} (h : HasKey definitions item) :
    (keyPart definitions item).size = definitions.length := by
  have hsorted : (keyPart definitions item).names.Nodup :=
    (keyPart definitions item).sorted.imp Std.ne_of_lt
  have hsame : (keyPart definitions item).names.Perm (definitions.map (·.name)) := by
    rw [List.perm_ext_iff_of_nodup hsorted hd]
    intro name
    rw [Named.mem_names_iff, get?_keyPart]
    constructor
    · rintro ⟨held, hheld⟩
      by_contra hname
      rw [if_neg hname] at hheld
      cases hheld
    · intro hname
      obtain ⟨definition, hm, rfl⟩ := List.mem_map.1 hname
      obtain ⟨held, hheld, -⟩ := h definition hm
      exact ⟨held, by rw [if_pos hname, hheld]⟩
  have hlength := hsame.length_eq
  rwa [Named.names, List.length_map, List.length_map] at hlength

/-- The store's key of an item is its part under the names of the schema's key. -/
theorem Store.StoredTable.keyOf_eq {stored : StoredTable} {schema : TableSchema}
    (h : stored.keys = schema.keyNames) (item : WireItem) :
    stored.keyOf item = keyPart schema.keyDefinitions item := by
  ext name : 1
  rw [get?_keyPart, StoredTable.keyOf, Named.get?_filterNames, h]
  unfold TableSchema.keyNames TableSchema.keyDefinitions
  cases schema.rangeKey with
  | none => simp
  | some range => simp

end AttributeStore
