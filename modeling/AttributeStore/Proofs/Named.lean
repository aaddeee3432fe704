import AttributeStore.Named

/-!
# Lookups in finite maps

What `get?` finds after each operation on a `Named` map. With `Named.ext` these lemmas decide
every equation between maps; nothing outside of this module looks at entry lists.
-/

namespace AttributeStore

namespace Entries

variable {α β : Type}

theorem get?_mem {key : String} {value : α} {entries : List (String × α)}
    (h : get? key entries = some value) : (key, value) ∈ entries := by
  induction entries with
  | nil => cases h
  | cons entry rest ih =>
    obtain ⟨name, old⟩ := entry
    rw [get?] at h
    split at h
    · rename_i heq
      cases h
      subst heq
      exact List.mem_cons_self
    · exact List.mem_cons_of_mem _ (ih h)

theorem Sorted.get?_of_mem {key : String} {value : α} {entries : List (String × α)}
    (hs : Sorted entries) (h : (key, value) ∈ entries) : get? key entries = some value := by
  induction entries with
  | nil => cases h
  | cons entry rest ih =>
    obtain ⟨name, old⟩ := entry
    have hs' := List.pairwise_cons.1 hs
    rw [get?]
    rcases List.mem_cons.1 h with heq | hrest
    · cases heq
      rw [if_pos rfl]
    · have hlt : name < key := hs'.1 key (List.mem_map_of_mem (f := Prod.fst) hrest)
      rw [if_neg (Std.ne_of_lt hlt)]
      exact ih hs'.2 hrest

theorem get?_filter (keep : String → Bool) (key : String) (entries : List (String × α)) :
    get? key (entries.filter fun entry => keep entry.1) =
      if keep key then get? key entries else none := by
  induction entries with
  | nil => simp [get?]
  | cons entry rest ih =>
    obtain ⟨name, value⟩ := entry
    rw [List.filter_cons]
    by_cases hk : name = key
    · subst hk
      cases h : keep name <;> simp [get?, h, ih]
    · cases h : keep name <;> simp [get?, hk, ih]

theorem get?_map (f : α → β) (key : String) (entries : List (String × α)) :
    get? key (entries.map fun entry => (entry.1, f entry.2)) = (get? key entries).map f := by
  induction entries with
  | nil => rfl
  | cons entry rest ih =>
    obtain ⟨name, value⟩ := entry
    rw [List.map_cons, get?, get?]
    split
    · rfl
    · exact ih

end Entries

namespace Named

variable {α β : Type}

theorem get?_singleton (name key : String) (value : α) :
    (singleton name value).get? key = if name = key then some value else none := by
  rw [singleton, get?_insert, get?_empty]

theorem get?_map (f : α → β) (named : Named α) (key : String) :
    (named.map f).get? key = (named.get? key).map f :=
  Entries.get?_map f key named.entries

theorem get?_filterNames (keep : String → Bool) (named : Named α) (key : String) :
    (named.filterNames keep).get? key = if keep key then named.get? key else none :=
  Entries.get?_filter keep key named.entries

theorem get?_erase (named : Named α) (name key : String) :
    (named.erase name).get? key = if key = name then none else named.get? key := by
  rw [erase, get?_filterNames]
  by_cases h : key = name <;> simp [h]

theorem get?_foldl_insert (entries : List (String × α)) (named : Named α) (key : String)
    (hs : Entries.Sorted entries) :
    (entries.foldl (fun (map : Named α) (name, value) => map.insert name value) named).get? key =
      (Entries.get? key entries).or (named.get? key) := by
  induction entries generalizing named with
  | nil => rfl
  | cons entry rest ih =>
    obtain ⟨name, value⟩ := entry
    have hs' := List.pairwise_cons.1 hs
    rw [List.foldl_cons, ih _ hs'.2, get?_insert, Entries.get?]
    by_cases h : name = key
    · subst h
      -- The head is below all that follows it, so nothing overwrites it.
      rw [Entries.get?_of_lt hs'.1]
      simp
    · simp [h]

theorem get?_union (left right : Named α) (key : String) :
    (left.union right).get? key = (right.get? key).or (left.get? key) :=
  get?_foldl_insert right.entries left key right.sorted

theorem empty_union (named : Named α) : (∅ : Named α).union named = named := by
  ext key : 1
  rw [get?_union]
  exact Option.or_none

theorem ofList_entries (named : Named α) : ofList named.entries = named :=
  empty_union named

theorem get?_foldl_insert_eq_some_iff (bindings : List (String × α)) (named : Named α)
    (key : String) (value : α) :
    (bindings.foldl (fun (map : Named α) (name, value) => map.insert name value) named).get? key =
        some value ↔
      (∃ before after, bindings = before ++ (key, value) :: after ∧
        ∀ later ∈ after, later.1 ≠ key) ∨
      named.get? key = some value ∧ ∀ later ∈ bindings, later.1 ≠ key := by
  induction bindings generalizing named with
  | nil => simp
  | cons first rest ih =>
    rw [List.foldl_cons, ih, get?_insert, List.forall_mem_cons]
    constructor
    · rintro (⟨before, after, rfl, hafter⟩ | ⟨hget, hrest⟩)
      · exact .inl ⟨first :: before, after, rfl, hafter⟩
      · split at hget
        · rename_i hname
          obtain rfl := Option.some.inj hget
          exact .inl ⟨[], rest, by rw [← hname]; rfl, hrest⟩
        · rename_i hname
          exact .inr ⟨hget, hname, hrest⟩
    · rintro (⟨before, after, heq, hafter⟩ | ⟨hget, hname, hrest⟩)
      · cases before with
        | nil =>
          obtain ⟨rfl, rfl⟩ := List.cons.inj heq
          exact .inr ⟨if_pos rfl, hafter⟩
        | cons _ before =>
          obtain ⟨rfl, rfl⟩ := List.cons.inj heq
          exact .inl ⟨before, after, rfl, hafter⟩
      · exact .inr ⟨by rw [if_neg hname, hget], hrest⟩

/-- A list binds a name to what stands last under it. -/
theorem get?_ofList_eq_some_iff (bindings : List (String × α)) (key : String) (value : α) :
    (ofList bindings).get? key = some value ↔
      ∃ before after, bindings = before ++ (key, value) :: after ∧
        ∀ later ∈ after, later.1 ≠ key := by
  rw [ofList, get?_foldl_insert_eq_some_iff, get?_empty]
  simp

theorem mem_entries_iff (named : Named α) (key : String) (value : α) :
    (key, value) ∈ named.entries ↔ named.get? key = some value :=
  ⟨named.sorted.get?_of_mem, Entries.get?_mem⟩

theorem mem_names_iff (named : Named α) (key : String) :
    key ∈ named.names ↔ ∃ value, named.get? key = some value := by
  unfold names
  rw [List.mem_map]
  constructor
  · rintro ⟨⟨name, value⟩, hm, rfl⟩
    exact ⟨value, (named.mem_entries_iff _ _).1 hm⟩
  · rintro ⟨value, h⟩
    exact ⟨(key, value), (named.mem_entries_iff _ _).2 h, rfl⟩

theorem contains_iff (named : Named α) (key : String) :
    named.contains key = true ↔ ∃ value, named.get? key = some value :=
  Option.isSome_iff_exists

theorem isEmpty_iff (named : Named α) : named.isEmpty = true ↔ ∀ key, named.get? key = none := by
  constructor
  · intro h key
    rw [get?, List.isEmpty_iff.1 h]
    rfl
  · intro h
    apply List.isEmpty_iff.2
    cases he : named.entries with
    | nil => rfl
    | cons entry rest =>
      have := h entry.1
      rw [get?, he, Entries.get?, if_pos rfl] at this
      cases this

theorem get?_present (named : Named α) (key : String) :
    named.present.bind (·.get? key) = named.get? key := by
  rw [present]
  split
  · rename_i h
    exact ((isEmpty_iff named).1 h key).symm
  · rfl

/-- A map holds nothing but given pairs, and binds every name that they give. -/
structure Spans (named : Named α) (pairs : String → α → Prop) : Prop where
  sound : ∀ key value, named.get? key = some value → pairs key value
  bound : ∀ key value, pairs key value → ∃ held, named.get? key = some held

theorem Spans.empty : (∅ : Named α).Spans fun _ _ => False :=
  ⟨fun _ _ h => (Option.some_ne_none _ h.symm).elim, fun _ _ h => h.elim⟩

theorem spans_self (named : Named α) :
    named.Spans fun key value => named.get? key = some value :=
  ⟨fun _ _ h => h, fun _ value h => ⟨value, h⟩⟩

theorem Spans.congr {named : Named α} {pairs pairs' : String → α → Prop} (h : named.Spans pairs)
    (hp : ∀ key value, pairs key value ↔ pairs' key value) : named.Spans pairs' :=
  ⟨fun key value hg => (hp key value).1 (h.sound key value hg),
    fun key value hm => h.bound key value ((hp key value).2 hm)⟩

theorem Spans.insert {named : Named α} {pairs : String → α → Prop} (h : named.Spans pairs)
    (name : String) (value : α) :
    (named.insert name value).Spans fun key held =>
      pairs key held ∨ key = name ∧ held = value := by
  constructor
  · intro key held hg
    rw [get?_insert] at hg
    split at hg
    · rename_i hkey
      exact Or.inr ⟨hkey.symm, (Option.some.inj hg).symm⟩
    · exact Or.inl (h.sound key held hg)
  · intro key held hm
    rw [get?_insert]
    split
    · exact ⟨value, rfl⟩
    · rename_i hkey
      rcases hm with hm | ⟨rfl, _⟩
      · exact h.bound key held hm
      · exact (hkey rfl).elim

theorem Spans.union {left right : Named α} {pairs pairs' : String → α → Prop}
    (h : left.Spans pairs) (h' : right.Spans pairs') :
    (left.union right).Spans fun key value => pairs key value ∨ pairs' key value := by
  constructor
  · intro key value hg
    rw [get?_union] at hg
    rcases Option.or_eq_some_iff.1 hg with hr | ⟨_, hl⟩
    · exact Or.inr (h'.sound key value hr)
    · exact Or.inl (h.sound key value hl)
  · intro key value hm
    rw [get?_union]
    cases hr : right.get? key with
    | some held => exact ⟨held, rfl⟩
    | none =>
      rcases hm with hm | hm
      · exact h.bound key value hm
      · obtain ⟨held, hheld⟩ := h'.bound key value hm
        rw [hr] at hheld
        cases hheld

theorem Spans.get? {named : Named α} {pairs : String → α → Prop} (h : named.Spans pairs)
    (hf : ∀ {key value value'}, pairs key value → pairs key value' → value = value')
    {key : String} {value : α} (hm : pairs key value) : named.get? key = some value := by
  obtain ⟨held, hheld⟩ := h.bound key value hm
  rw [hheld, hf (h.sound key held hheld) hm]

end Named

end AttributeStore
