import AttributeStore.Proofs.Store.KeyOrder
import AttributeStore.Proofs.Store.Stable

/-!
# The order of an index

The attributes of an index may be missing, and may be of types that have no order among them.
`indexOrder` is a total order of all items, in either direction; the store puts items in that order
as long as what they hold under a name of the index can be compared.
-/

namespace AttributeStore.Store

/-- The order of items by an attribute, those without it first. -/
def presenceOrder (name : String) : WireItem → WireItem → Ordering :=
  compareLex (compareOn fun item => (item.get? name).isSome) (attributeOrder name)

instance (name : String) : Std.TransCmp (presenceOrder name) :=
  inferInstanceAs (Std.TransCmp (compareLex _ _))

def ascendingOrder (keys : KeyNames) : WireItem → WireItem → Ordering :=
  compareLex (presenceOrder keys.hashKey)
    (match keys.rangeKey with
      | none => fun _ _ => .eq
      | some rangeKey => presenceOrder rangeKey)

instance (keys : KeyNames) : Std.TransCmp (ascendingOrder keys) := by
  unfold ascendingOrder
  cases keys.rangeKey with
  | none => exact inferInstance
  | some rangeKey => exact inferInstance

/-- The order in which a read goes through the items of an index. -/
def indexOrder (keys : KeyNames) : Bool → WireItem → WireItem → Ordering
  | false => ascendingOrder keys
  | true => fun left right => ascendingOrder keys right left

instance (keys : KeyNames) (descending : Bool) : Std.TransCmp (indexOrder keys descending) := by
  cases descending with
  | false => exact inferInstanceAs (Std.TransCmp (ascendingOrder keys))
  | true => exact @Std.TransCmp.opposite _ (ascendingOrder keys) inferInstance

/-- What two items hold under the names of an index can be compared. -/
def ComparableBy (keys : KeyNames) (left right : WireItem) : Prop :=
  ∀ name ∈ keys.names, ∀ held ∈ left.get? name, ∀ held' ∈ right.get? name,
    (compareAttributes? held held').isSome = true

instance (keys : KeyNames) (left right : WireItem) : Decidable (ComparableBy keys left right) :=
  inferInstanceAs (Decidable (∀ name ∈ keys.names, _))

theorem ComparableBy.symm {keys : KeyNames} {left right : WireItem}
    (h : ComparableBy keys left right) : ComparableBy keys right left := by
  intro name hname held hheld held' hheld'
  rw [compareAttributes?_swap, Option.isSome_map]
  exact h name hname held' hheld' held hheld

theorem compareAttributes?_eq_some {left right : Attribute}
    (h : (compareAttributes? left right).isSome = true) :
    compareAttributes? left right =
      some ((compare (textRank (some left)) (textRank (some right))).then
        ((compare (numberRank (some left)) (numberRank (some right))).then
          (compare (bytesRank (some left)) (bytesRank (some right))))) := by
  fun_cases compareAttributes? left right with
  | case1 left right =>
    unfold compareAttributes? at h
    cases hx : Number.toDouble? ⟨left⟩ with
    | none => simp [hx] at h
    | some x =>
      cases hy : Number.toDouble? ⟨right⟩ with
      | none => simp [hx, hy] at h
      | some y =>
        simp only [hx, hy, Decimal.Binary.compare?, bind, Option.bind] at h ⊢
        split at h
        · cases h
        · rename_i hnan
          simp [hnan, hx, hy, textRank, numberRank, bytesRank]
  | case2 left right => simp [textRank, numberRank, bytesRank]
  | case3 left right => simp [textRank, numberRank, bytesRank]
  | case4 => simp
  | case5 left right hnumber hstring hbinary hne =>
    rw [compareAttributes?_of_unordered hnumber hstring hbinary, if_neg hne] at h
    cases h

theorem compareOptional_eq_presenceOrder {left right : WireItem} {name : String}
    (h : ∀ held, left.get? name = some held → ∀ held', right.get? name = some held' →
      (compareAttributes? held held').isSome = true) :
    compareOptional (left.get? name) (right.get? name) = presenceOrder name left right := by
  unfold presenceOrder attributeOrder
  simp only [compareLex, compareOn]
  cases hl : left.get? name with
  | none =>
    cases hr : right.get? name with
    | none => simp [compareOptional, textRank, numberRank, bytesRank]
    | some held => rfl
  | some held =>
    cases hr : right.get? name with
    | none => rfl
    | some held' =>
      rw [compareOptional, compareAttributes?_eq_some (h held hl held' hr)]
      simp

section

variable {keys : KeyNames} {left right : WireItem} {descending : Bool}

/-- Items that can be compared are compared by the order of the index. -/
theorem compareItems_of_comparableBy (h : ComparableBy keys left right) (descending : Bool) :
    compareItems keys descending left right = indexOrder keys descending left right := by
  have hascending {left right : WireItem} (h : ComparableBy keys left right) :
      compareItems keys false left right = ascendingOrder keys left right := by
    have hhash := compareOptional_eq_presenceOrder (h keys.hashKey List.mem_cons_self)
    unfold compareItems ascendingOrder
    cases hrange : keys.rangeKey with
    | none => simp [hhash, compareLex]
    | some rangeKey =>
      have hname : rangeKey ∈ keys.names := by simp [KeyNames.names, hrange]
      simp [hhash, compareOptional_eq_presenceOrder (h rangeKey hname), compareLex]
  cases descending with
  | false => exact hascending h
  | true => rw [compareItems_descending, hascending h.symm, indexOrder]

variable {items : List WireItem} (h : ∀ left ∈ items, ∀ right ∈ items, ComparableBy keys left right)
include h

theorem sortItems_of_comparableBy (descending : Bool) :
    sortItems keys descending items =
      sort (fun left right => indexOrder keys descending left right = .lt) items := by
  unfold sortItems
  apply sort_congr
  intro left hl right hr
  rw [compareItems_of_comparableBy (h left hl right hr)]

theorem sortItems?_of_comparableBy (descending : Bool) :
    sortItems? keys descending items = some (sortItems keys descending items) :=
  sortItems?_of_agrees fun left hl right hr => compareItems_of_comparableBy (h left hl right hr) _

theorem pairwise_sortItems (descending : Bool) :
    (sortItems keys descending items).Pairwise fun left right =>
      (indexOrder keys descending left right).isLE := by
  rw [sortItems_of_comparableBy h]
  exact pairwise_sort _ items

theorem sortItems_filter_of_comparableBy (descending : Bool) (keep : WireItem → Bool) :
    sortItems keys descending (items.filter keep) =
      (sortItems keys descending items).filter keep := by
  rw [sortItems_of_comparableBy h, sortItems_of_comparableBy fun left hl right hr =>
    h left (List.mem_of_mem_filter hl) right (List.mem_of_mem_filter hr)]
  exact sort_filter _ items keep

end

end AttributeStore.Store
