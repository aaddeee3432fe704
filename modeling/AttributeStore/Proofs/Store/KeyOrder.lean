import AttributeStore.Proofs.Codec
import AttributeStore.Proofs.Decimal.Reading
import AttributeStore.Proofs.Store.ItemSort

/-!
# The order of keys

On attributes of the types that keys have, numbers being decimal texts, the order of the store is
a total one: it compares texts, numbers or bytes. `keyOrder` is that order on all items, and items
with proper keys are compared by it.
-/

namespace AttributeStore.Store

def textRank : Option Attribute → String
  | some (.leaf (.string text)) => text
  | _ => ""

def numberRank : Option Attribute → Int
  | some (.leaf (.number text)) => ((Number.toDouble? ⟨text⟩).map (·.signed)).getD 0
  | _ => 0

def bytesRank : Option Attribute → List Nat
  | some (.leaf (.binary bytes)) => bytes.map UInt8.toNat
  | _ => []

def attributeOrder (name : String) : WireItem → WireItem → Ordering :=
  compareLex (compareOn fun item => textRank (item.get? name))
    (compareLex (compareOn fun item => numberRank (item.get? name))
      (compareOn fun item => bytesRank (item.get? name)))

def keyOrder (keys : KeyNames) : WireItem → WireItem → Ordering :=
  compareLex (attributeOrder keys.hashKey)
    (match keys.rangeKey with
      | none => fun _ _ => .eq
      | some rangeKey => attributeOrder rangeKey)

instance (name : String) : Std.TransCmp (attributeOrder name) :=
  inferInstanceAs (Std.TransCmp (compareLex _ _))

instance : Std.TransCmp fun _ _ : WireItem => Ordering.eq where
  eq_swap := rfl
  isLE_trans := fun _ _ => rfl

instance (keys : KeyNames) : Std.TransCmp (keyOrder keys) := by
  unfold keyOrder
  cases keys.rangeKey with
  | none => exact inferInstance
  | some rangeKey => exact inferInstance

/-- An attribute that a key may have: a text, decimal text of a number, or bytes. -/
def Comparable (held : Attribute) : Prop :=
  held.wireType.IsKeyType ∧ ∀ text, held = .leaf (.number text) → Decimal.isDecimal text = true

theorem compareAttributes?_number {left right : String} (hl : Decimal.isDecimal left = true)
    (hr : Decimal.isDecimal right = true) :
    compareAttributes? (.leaf (.number left)) (.leaf (.number right)) =
      some (compare (numberRank (some (.leaf (.number left))))
        (numberRank (some (.leaf (.number right))))) := by
  obtain ⟨x, hx, hxn⟩ := Decimal.Binary.ofText?_of_isDecimal .double hl
  obtain ⟨y, hy, hyn⟩ := Decimal.Binary.ofText?_of_isDecimal .double hr
  have hx' : Number.toDouble? ⟨left⟩ = some x := hx
  have hy' : Number.toDouble? ⟨right⟩ = some y := hy
  unfold compareAttributes? numberRank
  simp [hx', hy', Decimal.Binary.compare?, hxn, hyn]

theorem compareOptional_eq {left right : WireItem} {name : String} {held held' : Attribute}
    (hl : left.get? name = some held) (hr : right.get? name = some held')
    (ht : held.wireType = held'.wireType) (hc : Comparable held) (hc' : Comparable held') :
    compareOptional (left.get? name) (right.get? name) = attributeOrder name left right := by
  unfold attributeOrder
  simp only [compareLex, compareOn, hl, hr, compareOptional]
  rcases Attribute.eq_of_isKeyType hc.1 with ⟨text, rfl⟩ | ⟨text, rfl⟩ | ⟨bytes, rfl⟩
  · rcases Attribute.eq_of_isKeyType hc'.1 with ⟨text', rfl⟩ | ⟨text', rfl⟩ | ⟨bytes', rfl⟩
    · simp [compareAttributes?, textRank, numberRank, bytesRank]
    · cases ht
    · cases ht
  · rcases Attribute.eq_of_isKeyType hc'.1 with ⟨text', rfl⟩ | ⟨text', rfl⟩ | ⟨bytes', rfl⟩
    · cases ht
    · rw [compareAttributes?_number (hc.2 text rfl) (hc'.2 text' rfl)]
      simp [textRank, bytesRank]
    · cases ht
  · rcases Attribute.eq_of_isKeyType hc'.1 with ⟨text', rfl⟩ | ⟨text', rfl⟩ | ⟨bytes', rfl⟩
    · cases ht
    · cases ht
    · simp [compareAttributes?, textRank, numberRank, bytesRank]

/-- An item has the key attributes of a schema, in forms that have an order. -/
structure Ordered (schema : TableSchema) (item : WireItem) : Prop where
  hasKey : HasKey schema.keyDefinitions item
  decimal : ∀ definition ∈ schema.keyDefinitions, ∀ text,
    item.get? definition.name = some (.leaf (.number text)) → Decimal.isDecimal text = true

variable {schema : TableSchema} {left right : WireItem}

theorem compareOptional_of_ordered (hs : schema.ScalarKeys) (hl : Ordered schema left)
    (hr : Ordered schema right) {definition : AttributeDefinition}
    (hd : definition ∈ schema.keyDefinitions) :
    compareOptional (left.get? definition.name) (right.get? definition.name) =
      attributeOrder definition.name left right := by
  obtain ⟨held, hheld, htype⟩ := hl.hasKey definition hd
  obtain ⟨held', hheld', htype'⟩ := hr.hasKey definition hd
  refine compareOptional_eq hheld hheld' (htype.trans htype'.symm) ⟨?_, ?_⟩ ⟨?_, ?_⟩
  · rw [htype]
    exact hs definition hd
  · rintro text rfl
    exact hl.decimal definition hd text hheld
  · rw [htype']
    exact hs definition hd
  · rintro text rfl
    exact hr.decimal definition hd text hheld'

theorem compareItems_of_ordered (hs : schema.ScalarKeys) (hl : Ordered schema left)
    (hr : Ordered schema right) :
    compareItems schema.keyNames false left right = keyOrder schema.keyNames left right := by
  have hhash := compareOptional_of_ordered hs hl hr
    ((schema.mem_keyDefinitions schema.hashKey).2 (Or.inl rfl))
  unfold compareItems keyOrder TableSchema.keyNames
  cases hrange : schema.rangeKey with
  | none => simp [hhash, compareLex]
  | some range =>
    have hheld := compareOptional_of_ordered hs hl hr
      ((schema.mem_keyDefinitions range).2 (Or.inr hrange))
    simp [hhash, hheld, compareLex]

theorem sortItems_of_ordered (hs : schema.ScalarKeys) {items : List WireItem}
    (ho : ∀ item ∈ items, Ordered schema item) :
    sortItems schema.keyNames false items =
      sort (fun left right => keyOrder schema.keyNames left right = .lt) items := by
  unfold sortItems
  apply sort_congr
  intro left hl right hr
  rw [compareItems_of_ordered hs (ho left hl) (ho right hr)]

theorem sortItems?_of_ordered (hs : schema.ScalarKeys) {items : List WireItem}
    (ho : ∀ item ∈ items, Ordered schema item) :
    sortItems? schema.keyNames false items = some (sortItems schema.keyNames false items) :=
  sortItems?_of_agrees fun left hl right hr => compareItems_of_ordered hs (ho left hl) (ho right hr)

def KeyNames.names (keys : KeyNames) : List String :=
  keys.hashKey :: keys.rangeKey.toList

theorem compareItems_congr_right {keys : KeyNames} {right' : WireItem}
    (h : ∀ name ∈ keys.names, right.get? name = right'.get? name) (descending : Bool)
    (left : WireItem) :
    compareItems keys descending left right = compareItems keys descending left right' := by
  have hhash := h keys.hashKey List.mem_cons_self
  unfold compareItems
  cases hrange : keys.rangeKey with
  | none => simp [hhash]
  | some rangeKey =>
    have hheld := h rangeKey (by simp [KeyNames.names, hrange])
    simp [hhash, hheld]

theorem mem_names_keyNames {schema : TableSchema} {name : String}
    (h : name ∈ schema.keyNames.names) :
    name ∈ schema.keyDefinitions.map AttributeDefinition.name := by
  unfold KeyNames.names TableSchema.keyNames at h
  unfold TableSchema.keyDefinitions
  cases hrange : schema.rangeKey <;> simpa [hrange] using h

theorem compareItems_keyPart (schema : TableSchema) (descending : Bool) (left right : WireItem) :
    compareItems schema.keyNames descending left (keyPart schema.keyDefinitions right) =
      compareItems schema.keyNames descending left right := by
  refine compareItems_congr_right (fun name hname => ?_) descending left
  rw [get?_keyPart, if_pos (mem_names_keyNames hname)]

end AttributeStore.Store
