import AttributeStore.Proofs.Decimal.Text
import AttributeStore.Proofs.Store.IndexOrder

/-!
# When the order of keys is a weak order

Attributes that have no order count as equal, so being equal need not be transitive: two texts
that differ are both equal to a number. What may stand under a name is coherent if that cannot
happen. The order by a key is a strict weak order of the items that hold given attributes under
its names exactly if these are coherent, and exactly then every list of such items has a stable
sort, which is the one that the store makes.
-/

namespace AttributeStore.Store

/-- A comparison is a strict weak order on a set: it is told both ways round, being less is
transitive, and being equal is an equivalence that the comparison respects. -/
structure IsWeakOrder {α : Type} (cmp : α → α → Ordering) (set : Set α) : Prop where
  swap : ∀ x y : set, cmp x y = (cmp y x).swap
  lt_trans : ∀ x y z : set, cmp x y = .lt → cmp y z = .lt → cmp x z = .lt
  eq_equivalence : Equivalence fun x y : set => cmp x y = .eq
  eq_congr : ∀ x y z : set, cmp x y = .eq → cmp x z = cmp y z

section

variable {α : Type} {cmp : α → α → Ordering} {set : Set α}

theorem IsWeakOrder.mono {larger : Set α} (h : IsWeakOrder cmp larger) (hsub : set ⊆ larger) :
    IsWeakOrder cmp set where
  swap x y := h.swap ⟨x, hsub x.2⟩ ⟨y, hsub y.2⟩
  lt_trans x y z := h.lt_trans ⟨x, hsub x.2⟩ ⟨y, hsub y.2⟩ ⟨z, hsub z.2⟩
  eq_equivalence := h.eq_equivalence.comap fun x : set => (⟨x, hsub x.2⟩ : larger)
  eq_congr x y z := h.eq_congr ⟨x, hsub x.2⟩ ⟨y, hsub y.2⟩ ⟨z, hsub z.2⟩

theorem IsWeakOrder.isStrictWeakOrder (h : IsWeakOrder cmp set) :
    IsStrictWeakOrder set fun x y => cmp x y = .lt := by
  -- Neither of two elements is less exactly if they are equal.
  have hincomp {x y : set} : ¬ cmp x y = .lt ∧ ¬ cmp y x = .lt ↔ cmp x y = .eq := by
    rw [h.swap y x]
    cases cmp x y <;> simp
  exact {
    irrefl := fun x hlt => by
      rw [h.eq_equivalence.refl x] at hlt
      cases hlt
    trans := h.lt_trans
    incomp_trans := fun x y z hxy hyz =>
      hincomp.2 (h.eq_equivalence.trans (hincomp.1 hxy) (hincomp.1 hyz)) }

theorem isWeakOrder_iff_transCmp :
    IsWeakOrder cmp set ↔ Std.TransCmp fun x y : set => cmp x y := by
  constructor
  · intro h
    have horiented : Std.OrientedCmp fun x y : set => cmp x y := ⟨h.swap _ _⟩
    exact transCmp_of_strictWeak h.isStrictWeakOrder
  · intro h
    have hrefl : Std.ReflCmp fun x y : set => cmp x y := inferInstance
    have horiented : Std.OrientedCmp fun x y : set => cmp x y := inferInstance
    exact {
      swap := fun _ _ => h.eq_swap
      lt_trans := fun _ _ _ hxy hyz => @Std.TransCmp.lt_trans _ _ h _ _ _ hxy hyz
      eq_equivalence := {
        refl := fun _ => hrefl.compare_self
        symm := fun hxy => @Std.OrientedCmp.eq_symm _ _ horiented _ _ hxy
        trans := fun hxy hyz => @Std.TransCmp.eq_trans _ _ h _ _ _ hxy hyz }
      eq_congr := fun _ _ _ hxy => @Std.TransCmp.congr_left _ _ h _ _ _ hxy }

theorem isWeakOrder_of_forall_eq {order : α → α → Ordering} [Std.TransCmp order]
    (h : ∀ x ∈ set, ∀ y ∈ set, cmp x y = order x y) : IsWeakOrder cmp set := by
  have hsame (x y : set) : cmp x y = order x y := h x x.2 y y.2
  exact isWeakOrder_iff_transCmp.2 {
    eq_swap := fun {x y} => by
      rw [hsame, hsame]
      exact Std.OrientedCmp.eq_swap
    isLE_trans := fun {x y z} hxy hyz => by
      rw [hsame] at hxy hyz ⊢
      exact Std.TransCmp.isLE_trans hxy hyz }

end

theorem isWeakOrder_compareItems_iff {keys : KeyNames} {set : Set WireItem} (descending : Bool) :
    IsWeakOrder (compareItems keys descending) set ↔ IsWeakOrder (compareItems keys false) set := by
  cases descending with
  | false => exact Iff.rfl
  | true =>
    rw [isWeakOrder_iff_transCmp, isWeakOrder_iff_transCmp]
    simp only [compareItems_descending]
    constructor
    · intro h
      exact @Std.TransCmp.opposite _ (fun x y : set => compareItems keys false y x) h
    · intro h
      exact @Std.TransCmp.opposite _ (fun x y : set => compareItems keys false x y) h

/-! ## Coherent attributes -/

/-- Attributes that can be sorted: any two of them have an order, or none of them is less than
another. -/
def Coherent (allowed : Set Attribute) : Prop :=
  (∀ held ∈ allowed, ∀ held' ∈ allowed, (compareAttributes? held held').isSome = true) ∨
    ∀ held ∈ allowed, ∀ held' ∈ allowed, compareAttributes? held held' ≠ some .lt

/-- The items that have nothing else than given attributes under the names of a key. -/
def Holding (keys : KeyNames) (allowed : String → Set Attribute) : Set WireItem :=
  {item | ∀ name ∈ keys.names, ∀ held ∈ item.get? name, held ∈ allowed name}

theorem compareOptional_of_forall_ne_lt {allowed : Set Attribute}
    (h : ∀ held ∈ allowed, ∀ held' ∈ allowed, compareAttributes? held held' ≠ some .lt)
    {left right : Option Attribute} (hl : ∀ held ∈ left, held ∈ allowed)
    (hr : ∀ held ∈ right, held ∈ allowed) :
    compareOptional left right = compare left.isSome right.isSome := by
  cases left with
  | none => cases right <;> rfl
  | some held =>
    cases right with
    | none => rfl
    | some held' =>
      have hlt := h held (hl held rfl) held' (hr held' rfl)
      have hgt := h held' (hr held' rfl) held (hl held rfl)
      rw [compareAttributes?_swap held' held] at hgt
      rw [compareOptional]
      cases hcmp : compareAttributes? held held' with
      | none => rfl
      | some ordering =>
        rw [hcmp] at hlt hgt
        cases ordering with
        | lt => exact absurd rfl hlt
        | eq => rfl
        | gt => exact absurd rfl hgt

/-- Coherent attributes are compared as by some order of all items. -/
theorem exists_order_of_coherent {allowed : Set Attribute} (h : Coherent allowed)
    (name : String) :
    ∃ order : WireItem → WireItem → Ordering, Std.TransCmp order ∧
      ∀ left right, (∀ held ∈ left.get? name, held ∈ allowed) →
        (∀ held ∈ right.get? name, held ∈ allowed) →
        compareOptional (left.get? name) (right.get? name) = order left right := by
  rcases h with h | h
  · refine ⟨presenceOrder name, inferInstance, fun left right hl hr => ?_⟩
    exact compareOptional_eq_presenceOrder fun held hheld held' hheld' =>
      h held (hl held hheld) held' (hr held' hheld')
  · refine ⟨compareOn fun item => (item.get? name).isSome, inferInstance, ?_⟩
    exact fun left right hl hr => compareOptional_of_forall_ne_lt h hl hr

section

variable {keys : KeyNames} {allowed : String → Set Attribute}

theorem isWeakOrder_of_coherent (h : ∀ name ∈ keys.names, Coherent (allowed name)) :
    IsWeakOrder (compareItems keys false) (Holding keys allowed) := by
  have hmem : keys.hashKey ∈ keys.names := List.mem_cons_self
  obtain ⟨byHash, htrans, hhash⟩ := exists_order_of_coherent (h _ hmem) keys.hashKey
  cases hrange : keys.rangeKey with
  | none =>
    refine @isWeakOrder_of_forall_eq _ _ _ byHash htrans fun left hl right hr => ?_
    simp [compareItems, hrange, hhash left right (hl _ hmem) (hr _ hmem)]
  | some rangeKey =>
    have hmem' : rangeKey ∈ keys.names := by simp [KeyNames.names, hrange]
    obtain ⟨byRange, htrans', hheld⟩ := exists_order_of_coherent (h _ hmem') rangeKey
    refine @isWeakOrder_of_forall_eq _ _ _ (compareLex byHash byRange) inferInstance
      fun left hl right hr => ?_
    simp [compareItems, compareLex, hrange, hhash left right (hl _ hmem) (hr _ hmem),
      hheld left right (hl _ hmem') (hr _ hmem')]

end

/-! ## Incoherent attributes -/

section

variable {left right held held' : Attribute} {ordering : Ordering}

theorem wireType_of_compareAttributes? (h : compareAttributes? left right = some ordering) :
    left.wireType = right.wireType ∧ (ordering ≠ .eq → left.wireType.IsKeyType) := by
  fun_cases compareAttributes? left right with
  | case1 left right => exact ⟨rfl, fun _ => .inr (.inl rfl)⟩
  | case2 left right => exact ⟨rfl, fun _ => .inl rfl⟩
  | case3 left right => exact ⟨rfl, fun _ => .inr (.inr rfl)⟩
  | case4 _ hnumber hstring hbinary =>
    rw [compareAttributes?_of_unordered hnumber hstring hbinary, if_pos rfl] at h
    exact ⟨rfl, fun hne => absurd (Option.some.inj h).symm hne⟩
  | case5 left right hnumber hstring hbinary hne =>
    rw [compareAttributes?_of_unordered hnumber hstring hbinary, if_neg hne] at h
    cases h

theorem isSome_compareNumbers_iff {left right : String} :
    (compareAttributes? (.leaf (.number left)) (.leaf (.number right))).isSome = true ↔
      (Number.toDouble? ⟨left⟩).any (fun x => !x.isNaN .double) = true ∧
        (Number.toDouble? ⟨right⟩).any (fun x => !x.isNaN .double) = true := by
  rw [compareAttributes?]
  cases Number.toDouble? ⟨left⟩ with
  | none => simp
  | some x =>
    cases Number.toDouble? ⟨right⟩ with
    | none => simp
    | some y => simp [Decimal.Binary.compare?]

/-- Attributes of a type that keys have can be compared if they are of one type and each can be
compared with itself. -/
theorem isSome_compareAttributes?_iff (hkey : left.wireType.IsKeyType) :
    (compareAttributes? left right).isSome = true ↔
      left.wireType = right.wireType ∧ (compareAttributes? left left).isSome = true ∧
        (compareAttributes? right right).isSome = true := by
  by_cases htype : left.wireType = right.wireType
  · have hkey' : right.wireType.IsKeyType := htype ▸ hkey
    rw [and_iff_right htype]
    rcases Attribute.eq_of_isKeyType hkey with ⟨text, rfl⟩ | ⟨text, rfl⟩ | ⟨bytes, rfl⟩
    · rcases Attribute.eq_of_isKeyType hkey' with ⟨text', rfl⟩ | ⟨text', rfl⟩ | ⟨bytes', rfl⟩
      · simp [compareAttributes?]
      · cases htype
      · cases htype
    · rcases Attribute.eq_of_isKeyType hkey' with ⟨text', rfl⟩ | ⟨text', rfl⟩ | ⟨bytes', rfl⟩
      · cases htype
      · simp only [isSome_compareNumbers_iff, and_self]
      · cases htype
    · rcases Attribute.eq_of_isKeyType hkey' with ⟨text', rfl⟩ | ⟨text', rfl⟩ | ⟨bytes', rfl⟩
      · cases htype
      · cases htype
      · simp [compareAttributes?]
  · refine ⟨fun h => ?_, fun h => absurd h.1 htype⟩
    obtain ⟨ordering, h⟩ := Option.isSome_iff_exists.1 h
    exact absurd (wireType_of_compareAttributes? h).1 htype

theorem compareAttributes?_gt_of_lt (h : compareAttributes? left right = some .lt) :
    compareAttributes? right left = some .gt := by
  rw [compareAttributes?_swap, h]
  rfl

theorem isSome_compareAttributes?_of_ranked (h : compareAttributes? left right = some ordering)
    (hne : ordering ≠ .eq) (hl : (compareAttributes? left held).isSome = true)
    (hr : (compareAttributes? left held').isSome = true) :
    (compareAttributes? held held').isSome = true := by
  have hkey := (wireType_of_compareAttributes? h).2 hne
  obtain ⟨htype, -, hself⟩ := (isSome_compareAttributes?_iff hkey).1 hl
  obtain ⟨htype', -, hself'⟩ := (isSome_compareAttributes?_iff hkey).1 hr
  exact (isSome_compareAttributes?_iff (htype ▸ hkey)).2
    ⟨htype.symm.trans htype', hself, hself'⟩

/-- Among attributes that are not coherent, one is equal to two others of which one is less. -/
theorem exists_of_not_coherent {allowed : Set Attribute} (h : ¬ Coherent allowed) :
    ∃ less ∈ allowed, ∃ more ∈ allowed, ∃ other ∈ allowed,
      compareAttributes? less more = some .lt ∧ compareAttributes? less other = none ∧
        compareAttributes? other more = none := by
  unfold Coherent at h
  push Not at h
  obtain ⟨⟨held, hheld, held', hheld', hnone⟩, less, hless, more, hmore, hlt⟩ := h
  have hgt := compareAttributes?_gt_of_lt hlt
  -- What can be compared with one of the two can be compared with the other, too.
  have hboth {other : Attribute} (hno : compareAttributes? less other = none) :
      compareAttributes? other more = none := by
    by_contra hsome
    rw [compareAttributes?_swap, Option.map_eq_none_iff, ← ne_eq, Option.ne_none_iff_isSome]
      at hsome
    have hthis := isSome_compareAttributes?_of_ranked hgt nofun (by rw [hgt]; rfl) hsome
    rw [hno] at hthis
    cases hthis
  by_cases hfirst : compareAttributes? less held = none
  · exact ⟨less, hless, more, hmore, held, hheld, hlt, hfirst, hboth hfirst⟩
  · have hsecond : compareAttributes? less held' = none := by
      by_contra hsome
      refine hnone (isSome_compareAttributes?_of_ranked hlt nofun ?_ ?_)
      · exact Option.ne_none_iff_isSome.1 hfirst
      · exact Option.ne_none_iff_isSome.1 hsome
    exact ⟨less, hless, more, hmore, held', hheld', hlt, hsecond, hboth hsecond⟩

end

/-! ## Items that tell -/

section

variable {keys : KeyNames} {allowed : String → Set Attribute} {name : String}

theorem singleton_mem_holding {held : Attribute} (h : held ∈ allowed name) :
    Named.singleton name held ∈ Holding keys allowed := by
  intro other _ found hfound
  rw [Named.get?_singleton] at hfound
  by_cases hname : name = other
  · rw [if_pos hname] at hfound
    obtain rfl := Option.some.inj hfound
    rwa [← hname]
  · rw [if_neg hname] at hfound
    cases hfound

theorem compareItems_singleton (hname : name ∈ keys.names) (held held' : Attribute) :
    compareItems keys false (Named.singleton name held) (Named.singleton name held') =
      (compareAttributes? held held').getD .eq := by
  have hself : compareOptional (some held) (some held') =
      (compareAttributes? held held').getD .eq := rfl
  have hmissing : compareOptional none none = .eq := rfl
  simp only [compareItems, Named.get?_singleton]
  cases hrange : keys.rangeKey with
  | none =>
    obtain rfl : name = keys.hashKey := by simpa [KeyNames.names, hrange] using hname
    simp [hself]
  | some rangeKey =>
    have hnames : name = keys.hashKey ∨ name = rangeKey := by
      simpa [KeyNames.names, hrange] using hname
    by_cases hhash : name = keys.hashKey
    · by_cases hsame : name = rangeKey
      · simp only [if_pos hhash, if_pos hsame, hself]
        cases (compareAttributes? held held').getD .eq <;> rfl
      · simp only [if_pos hhash, if_neg hsame, hself, hmissing]
        cases (compareAttributes? held held').getD .eq <;> rfl
    · simp only [if_neg hhash, if_pos (hnames.resolve_left hhash), hself, hmissing]
      rfl

theorem exists_items_of_not_coherent (hname : name ∈ keys.names)
    (h : ¬ Coherent (allowed name)) (descending : Bool) :
    ∃ x ∈ Holding keys allowed, ∃ y ∈ Holding keys allowed, ∃ z ∈ Holding keys allowed,
      compareItems keys descending x y = .lt ∧ compareItems keys descending z x = .eq ∧
        compareItems keys descending z y = .eq := by
  obtain ⟨less, hless, more, hmore, other, hother, hlt, hfirst, hsecond⟩ :=
    exists_of_not_coherent h
  have hxy := compareItems_singleton hname less more
  have hxz := compareItems_singleton hname less other
  have hzy := compareItems_singleton hname other more
  rw [hlt] at hxy
  rw [hfirst] at hxz
  rw [hsecond] at hzy
  cases descending with
  | false =>
    exact ⟨_, singleton_mem_holding hless, _, singleton_mem_holding hmore, _,
      singleton_mem_holding hother, hxy, Std.OrientedCmp.eq_symm hxz, hzy⟩
  | true =>
    -- Downwards the greater one comes first.
    refine ⟨_, singleton_mem_holding hmore, _, singleton_mem_holding hless, _,
      singleton_mem_holding hother, ?_⟩
    simp only [compareItems_descending]
    exact ⟨hxy, Std.OrientedCmp.eq_symm hzy, hxz⟩

/-- There is no stable sort of two elements the wrong way round and one between them that is equal
to both. -/
theorem not_isStableSort {α : Type} {cmp : α → α → Ordering} [Std.OrientedCmp cmp] {x y z : α}
    (hxy : cmp x y = .lt) (hzx : cmp z x = .eq) (hzy : cmp z y = .eq) (sorted : List α) :
    ¬ IsStableSort cmp [y, z, x] sorted := by
  intro h
  have hz : cmp z z = .eq := Std.ReflCmp.compare_self
  have hall : ∀ a ∈ [y, z, x], cmp z a = .eq := by simp [hzx, hzy, hz]
  have hstable := h.stable z (by simp)
  rw [List.filter_eq_self.2 fun a ha => decide_eq_true (hall a (h.perm.mem_iff.1 ha)),
    List.filter_eq_self.2 fun a ha => decide_eq_true (hall a ha)] at hstable
  have hordered := h.ordered
  rw [hstable] at hordered
  exact List.rel_of_pairwise_cons hordered (by simp) (Std.OrientedCmp.gt_of_lt hxy)

/-- Lists of items in a weak order have a stable sort, and it is the one that the store makes. -/
theorem IsWeakOrder.isStableSort {set : Set WireItem}
    (h : IsWeakOrder (compareItems keys false) set) {items : List WireItem}
    (hsub : ∀ item ∈ items, item ∈ set) (descending : Bool) :
    sortItems? keys descending items = some (sortItems keys descending items) ∧
      IsStableSort (compareItems keys descending) items (sortItems keys descending items) := by
  have hordered : WeaklyOrdered keys items :=
    IsWeakOrder.isStrictWeakOrder (h.mono fun item hitem => hsub item hitem)
  exact ⟨hordered.sortItems?_eq descending, hordered.isStableSort descending⟩

end

/-! ## One level -/

theorem exists_of_compareOptional_lt {held : Attribute} {right : Option Attribute}
    (h : compareOptional (some held) right = .lt) :
    ∃ held', right = some held' ∧ compareAttributes? held held' = some .lt := by
  cases right with
  | none => cases h
  | some held' =>
    refine ⟨held', rfl, ?_⟩
    rw [compareOptional] at h
    cases hcmp : compareAttributes? held held' with
    | none =>
      rw [hcmp] at h
      cases h
    | some ordering =>
      rw [hcmp] at h
      exact congrArg some h

/-- By one attribute, being less is transitive whatever the attributes are. -/
theorem compareOptional_lt_trans {x y z : WireItem} {name : String}
    (hxy : compareOptional (x.get? name) (y.get? name) = .lt)
    (hyz : compareOptional (y.get? name) (z.get? name) = .lt) :
    compareOptional (x.get? name) (z.get? name) = .lt := by
  have hsome {left right : WireItem}
      (h : compareOptional (left.get? name) (right.get? name) = .lt) (held : Attribute)
      (hheld : left.get? name = some held) (held' : Attribute)
      (hheld' : right.get? name = some held') :
      (compareAttributes? held held').isSome = true := by
    rw [hheld] at h
    obtain ⟨found, hfound, hlt⟩ := exists_of_compareOptional_lt h
    obtain rfl : found = held' := Option.some.inj (hfound.symm.trans hheld')
    rw [hlt]
    rfl
  -- Both ends can be compared with what stands between them, which is less or greater.
  have hends (held : Attribute) (hheld : x.get? name = some held) (held' : Attribute)
      (hheld' : z.get? name = some held') : (compareAttributes? held held').isSome = true := by
    have hlt := hxy
    rw [hheld] at hlt
    obtain ⟨between, hbetween, hlt⟩ := exists_of_compareOptional_lt hlt
    have hgt := compareAttributes?_gt_of_lt hlt
    exact isSome_compareAttributes?_of_ranked hgt nofun (by rw [hgt]; rfl)
      (hsome hyz between hbetween held' hheld')
  rw [compareOptional_eq_presenceOrder (hsome hxy)] at hxy
  rw [compareOptional_eq_presenceOrder (hsome hyz)] at hyz
  rw [compareOptional_eq_presenceOrder hends]
  exact Std.TransCmp.lt_trans hxy hyz

theorem compareItems_lt_trans {keys : KeyNames} (hrange : keys.rangeKey = none)
    (descending : Bool) {x y z : WireItem} (hxy : compareItems keys descending x y = .lt)
    (hyz : compareItems keys descending y z = .lt) :
    compareItems keys descending x z = .lt := by
  have hascending (left right : WireItem) : compareItems keys false left right =
      compareOptional (left.get? keys.hashKey) (right.get? keys.hashKey) := by
    simp [compareItems, hrange]
  cases descending with
  | false =>
    rw [hascending] at hxy hyz ⊢
    exact compareOptional_lt_trans hxy hyz
  | true =>
    rw [compareItems_descending, hascending] at hxy hyz ⊢
    exact compareOptional_lt_trans hyz hxy

/-- Attributes of one type, the numbers among them being decimal. -/
def OfOneType (allowed : Set Attribute) : Prop :=
  ∃ type, ∀ held ∈ allowed, held.wireType = type ∧
    ∀ text, held = .leaf (.number text) → Decimal.isDecimal text = true

theorem OfOneType.coherent {allowed : Set Attribute} (h : OfOneType allowed) :
    Coherent allowed := by
  obtain ⟨type, h⟩ := h
  by_cases hkey : type.IsKeyType
  · refine .inl fun held hheld held' hheld' => ?_
    have hself {held : Attribute} (hheld : held ∈ allowed) :
        (compareAttributes? held held).isSome = true := by
      obtain ⟨htype, hdecimal⟩ := h held hheld
      rcases Attribute.eq_of_isKeyType (htype ▸ hkey) with ⟨text, rfl⟩ | ⟨text, rfl⟩ | ⟨bytes, rfl⟩
      · rfl
      · rw [compareAttributes?_number (hdecimal text rfl) (hdecimal text rfl)]
        rfl
      · rfl
    have htype := (h held hheld).1
    exact (isSome_compareAttributes?_iff (htype ▸ hkey)).2
      ⟨htype.trans (h held' hheld').1.symm, hself hheld, hself hheld'⟩
  · refine .inr fun held hheld held' _ hlt => hkey ?_
    rw [← (h held hheld).1]
    exact (wireType_of_compareAttributes? hlt).2 nofun

/-- The order of items by a key is told both ways round, and by a hash key alone being less is
transitive. It is a strict weak order of the items that hold given attributes, or none, under the
names of the key exactly if these attributes are coherent, as those of one type are. Exactly then
every list of such items has a stable sort, and the store makes it without a panic. -/
theorem compareItems_isWeakOrder_iff_coherent (keys : KeyNames) (descending : Bool)
    (allowed : String → Set Attribute) :
    (∀ left right, compareItems keys descending left right =
      (compareItems keys descending right left).swap) ∧
    (keys.rangeKey = none → ∀ x y z, compareItems keys descending x y = .lt →
      compareItems keys descending y z = .lt → compareItems keys descending x z = .lt) ∧
    (IsWeakOrder (compareItems keys descending) (Holding keys allowed) ↔
      ∀ name ∈ keys.names, Coherent (allowed name)) ∧
    ((∀ name ∈ keys.names, OfOneType (allowed name)) →
      ∀ name ∈ keys.names, Coherent (allowed name)) ∧
    ((∀ items : List WireItem, (∀ item ∈ items, item ∈ Holding keys allowed) →
        ∃ sorted, IsStableSort (compareItems keys descending) items sorted) ↔
      ∀ name ∈ keys.names, Coherent (allowed name)) ∧
    ((∀ name ∈ keys.names, Coherent (allowed name)) →
      ∀ items : List WireItem, (∀ item ∈ items, item ∈ Holding keys allowed) →
        sortItems? keys descending items = some (sortItems keys descending items) ∧
          IsStableSort (compareItems keys descending) items
            (sortItems keys descending items)) := by
  have hsort (h : ∀ name ∈ keys.names, Coherent (allowed name)) (items : List WireItem)
      (hitems : ∀ item ∈ items, item ∈ Holding keys allowed) :
      sortItems? keys descending items = some (sortItems keys descending items) ∧
        IsStableSort (compareItems keys descending) items (sortItems keys descending items) :=
    (isWeakOrder_of_coherent h).isStableSort hitems descending
  refine ⟨fun left right => Std.OrientedCmp.eq_swap,
    fun hrange x y z => compareItems_lt_trans hrange descending, ⟨?_, ?_⟩,
    fun h name hname => (h name hname).coherent, ⟨?_, ?_⟩, hsort⟩
  · intro h name hname
    by_contra hcoherent
    obtain ⟨x, hx, y, hy, z, hz, hxy, hzx, hzy⟩ :=
      exists_items_of_not_coherent hname hcoherent descending
    have hsame := h.eq_congr ⟨z, hz⟩ ⟨x, hx⟩ ⟨y, hy⟩ hzx
    exact absurd (hzy.symm.trans (hsame.trans hxy)) nofun
  · intro h
    exact (isWeakOrder_compareItems_iff descending).2 (isWeakOrder_of_coherent h)
  · intro h name hname
    by_contra hcoherent
    obtain ⟨x, hx, y, hy, z, hz, hxy, hzx, hzy⟩ :=
      exists_items_of_not_coherent hname hcoherent descending
    obtain ⟨sorted, hsorted⟩ := h [y, z, x] (by simp [hx, hy, hz])
    exact not_isStableSort hxy hzx hzy sorted hsorted
  · intro h items hitems
    exact ⟨_, (hsort h items hitems).2⟩

def player (team age : Attribute) : WireItem :=
  Named.ofList [("team", team), ("age", age)]

def byTeam : KeyNames := ⟨"team", some "age"⟩

def playerAttributes (name : String) : Set Attribute :=
  if name = "team" then {held | held.wireType = .string}
  else Set.range fun age : Int => .leaf (.number (Decimal.integerText age))

/-- Players whose attributes have the types of the index are in a weak order, and sorted by age
within a team. -/
theorem compareItems_isWeakOrder_players :
    let red (age : String) : WireItem := player (.leaf (.string "red")) (.leaf (.number age))
    IsWeakOrder (compareItems byTeam true) (Holding byTeam playerAttributes) ∧
      red "9" ∈ Holding byTeam playerAttributes ∧
      IsStableSort (compareItems byTeam true) [red "9", red "11", red "10"]
        [red "11", red "10", red "9"] := by
  intro red
  have htypes : ∀ name ∈ byTeam.names, OfOneType (playerAttributes name) := by
    intro name _
    by_cases hname : name = "team"
    · rw [playerAttributes, if_pos hname]
      refine ⟨.string, fun held hheld => ⟨hheld, ?_⟩⟩
      rintro text rfl
      cases hheld
    · rw [playerAttributes, if_neg hname]
      refine ⟨.number, ?_⟩
      rintro _ ⟨age, rfl⟩
      refine ⟨rfl, ?_⟩
      rintro _ ⟨⟩
      exact Decimal.isDecimal_integerText age
  have hred (age : Int) : red (Decimal.integerText age) ∈ Holding byTeam playerAttributes := by
    intro name hname held hheld
    have hnames : name = "team" ∨ name = "age" := by simpa [byTeam, KeyNames.names] using hname
    rcases hnames with rfl | rfl
    · obtain rfl : .leaf (.string "red") = held := Option.some.inj hheld
      exact rfl
    · obtain rfl : .leaf (.number (Decimal.integerText age)) = held := Option.some.inj hheld
      exact ⟨age, rfl⟩
  obtain ⟨-, -, hweak, hcoherent, -, hsort⟩ :=
    compareItems_isWeakOrder_iff_coherent byTeam true playerAttributes
  refine ⟨hweak.2 (hcoherent htypes), hred 9, ?_⟩
  obtain ⟨-, hsorted⟩ := hsort (hcoherent htypes) [red "9", red "11", red "10"] (by
    simpa using ⟨hred 9, hred 11, hred 10⟩)
  have hresult : sortItems byTeam true [red "9", red "11", red "10"] =
      [red "11", red "10", red "9"] := by decide +kernel
  rwa [hresult] at hsorted

/-- An age that is a text is equal to every age that is a number, so being equal is not
transitive and the sort leaves the older player in front. Neither is being less: a team that is a
number stands between two named ones, whichever of these is less. -/
theorem mixed_types_are_not_ordered :
    let red : Attribute := .leaf (.string "red")
    let blue : Attribute := .leaf (.string "blue")
    let one : Attribute := .leaf (.number "1")
    let two : Attribute := .leaf (.number "2")
    let three : Attribute := .leaf (.number "3")
    let old : Attribute := .leaf (.string "old")
    ¬ IsWeakOrder (compareItems byTeam false) Set.univ ∧
      compareItems byTeam false (player red two) (player red old) = .eq ∧
      compareItems byTeam false (player red old) (player red one) = .eq ∧
      compareItems byTeam false (player red two) (player red one) = .gt ∧
      compareItems byTeam false (player red one) (player one two) = .lt ∧
      compareItems byTeam false (player one two) (player blue three) = .lt ∧
      compareItems byTeam false (player red one) (player blue three) = .gt ∧
      sortItems? byTeam false [player red two, player red old, player red one] =
        some [player red two, player red old, player red one] := by
  intro red blue one two three old
  have hfirst : compareItems byTeam false (player red two) (player red old) = .eq := by
    decide +kernel
  have hsecond : compareItems byTeam false (player red old) (player red one) = .eq := by
    decide +kernel
  have hends : compareItems byTeam false (player red two) (player red one) = .gt := by
    decide +kernel
  refine ⟨fun h => ?_, hfirst, hsecond, hends, ?_, ?_, ?_, ?_⟩
  · have hsame := h.eq_equivalence.trans (x := ⟨player red two, trivial⟩)
      (y := ⟨player red old, trivial⟩) (z := ⟨player red one, trivial⟩) hfirst hsecond
    exact absurd (hends.symm.trans hsame) nofun
  · decide +kernel
  · decide +kernel
  · decide +kernel
  · decide +kernel

end AttributeStore.Store
