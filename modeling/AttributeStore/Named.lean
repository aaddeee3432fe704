/-!
# Finite maps keyed by text

A `Named α` holds values under names, its entries in strictly increasing order of the names, so
that two maps with the same bindings are equal. What a map means is `get?`; `ext` says that it
determines the map, and each operation comes with the lemma that says what it does to it.

The operations on bare entry lists stand first, because nested documents keep such lists.
-/

namespace AttributeStore

namespace Entries

variable {α : Type}

def get? (name : String) : List (String × α) → Option α
  | [] => none
  | (key, value) :: rest => if key = name then some value else get? name rest

/-- Entries with a value put in its place, over any earlier one of the same name. -/
def insert (name : String) (value : α) : List (String × α) → List (String × α)
  | [] => [(name, value)]
  | (key, old) :: rest =>
    if name < key then (name, value) :: (key, old) :: rest
    else if name = key then (name, value) :: rest
    else (key, old) :: insert name value rest

def Sorted (entries : List (String × α)) : Prop :=
  (entries.map Prod.fst).Pairwise (· < ·)

theorem mem_keys_insert {name key : String} {value : α} {entries : List (String × α)}
    (h : key ∈ (insert name value entries).map Prod.fst) :
    key = name ∨ key ∈ entries.map Prod.fst := by
  induction entries with
  | nil => simpa [insert] using h
  | cons entry rest ih =>
    obtain ⟨k, old⟩ := entry
    rw [insert] at h
    split at h
    · simpa using h
    · split at h
      · rename_i _ hk
        subst hk
        exact Or.inr (by simpa using h)
      · rw [List.map_cons, List.mem_cons] at h
        rcases h with rfl | h
        · simp
        · rcases ih h with rfl | h
          · exact Or.inl rfl
          · exact Or.inr (List.mem_cons_of_mem _ h)

theorem Sorted.insert {entries : List (String × α)} (name : String) (value : α)
    (h : Sorted entries) : Sorted (insert name value entries) := by
  induction entries with
  | nil => simp [Entries.insert, Sorted]
  | cons entry rest ih =>
    obtain ⟨k, old⟩ := entry
    have hk := List.pairwise_cons.1 h
    rw [Entries.insert]
    split
    · rename_i hlt
      exact List.pairwise_cons.2 ⟨fun a ha => (List.mem_cons.1 ha).elim (· ▸ hlt)
        fun m => String.lt_trans hlt (hk.1 a m), h⟩
    · split
      · rename_i _ heq
        subst heq
        exact h
      · rename_i hlt hne
        refine List.pairwise_cons.2 ⟨fun a ha => ?_, ih hk.2⟩
        rcases mem_keys_insert ha with rfl | m
        · exact Std.lt_of_le_of_ne (Std.not_lt.1 hlt) (Ne.symm hne)
        · exact hk.1 a m

theorem get?_insert (name key : String) (value : α) (entries : List (String × α)) :
    get? key (insert name value entries) =
      if name = key then some value else get? key entries := by
  induction entries with
  | nil => simp [insert, get?]
  | cons entry rest ih =>
    obtain ⟨k, old⟩ := entry
    rw [insert]
    split
    · simp [get?]
    · split
      · rename_i _ heq
        subst heq
        by_cases h : name = key <;> simp [get?, h]
      · rename_i _ hne
        by_cases h : k = key
        · subst h
          simp [get?, hne]
        · simp [get?, h, ih]

theorem get?_eq_none {key : String} {entries : List (String × α)}
    (h : key ∉ entries.map Prod.fst) : get? key entries = none := by
  induction entries with
  | nil => rfl
  | cons entry rest ih =>
    rw [List.map_cons, List.mem_cons, not_or] at h
    simp [get?, Ne.symm h.1, ih h.2]

theorem get?_of_lt {key : String} {entries : List (String × α)}
    (h : ∀ k ∈ entries.map Prod.fst, key < k) : get? key entries = none :=
  get?_eq_none fun m => String.lt_irrefl key (h key m)

/-- Entry lists in order are determined by what they hold under each name. -/
theorem Sorted.ext : ∀ {left right : List (String × α)}, Sorted left → Sorted right →
    (∀ key, get? key left = get? key right) → left = right
  | [], [], _, _, _ => rfl
  | [], (k, v) :: _, _, _, h => by simpa [get?] using h k
  | (k, v) :: _, [], _, _, h => by simpa [get?] using h k
  | (k, v) :: left, (k', v') :: right, hl, hr, h => by
    have hl' := List.pairwise_cons.1 hl
    have hr' := List.pairwise_cons.1 hr
    have hk : k = k' := by
      rcases Std.lt_trichotomy k k' with hlt | heq | hgt
      · have := h k
        rw [get?, if_pos rfl, get?, if_neg (Std.ne_of_lt hlt).symm,
          get?_of_lt fun a ha => String.lt_trans hlt (hr'.1 a ha)] at this
        simp at this
      · exact heq
      · have := h k'
        rw [get?, if_neg (Std.ne_of_lt hgt).symm, get?, if_pos rfl,
          get?_of_lt fun a ha => String.lt_trans hgt (hl'.1 a ha)] at this
        simp at this
    subst hk
    have hv : v = v' := by simpa [get?] using h k
    subst hv
    have hrest : left = right := Sorted.ext hl'.2 hr'.2 fun key => by
      by_cases hkey : k = key
      · subst hkey
        rw [get?_of_lt hl'.1, get?_of_lt hr'.1]
      · simpa [get?, hkey] using h key
    rw [hrest]

end Entries

/-- A finite map keyed by text. -/
structure Named (α : Type) where
  /-- The bindings, in strictly increasing order of their names. -/
  entries : List (String × α)
  sorted : Entries.Sorted entries
deriving DecidableEq

namespace Named

variable {α β : Type}

def empty : Named α := ⟨[], List.Pairwise.nil⟩

instance : Inhabited (Named α) := ⟨empty⟩

instance : EmptyCollection (Named α) := ⟨empty⟩

def get? (map : Named α) (name : String) : Option α :=
  Entries.get? name map.entries

def contains (map : Named α) (name : String) : Bool :=
  (map.get? name).isSome

def insert (map : Named α) (name : String) (value : α) : Named α :=
  ⟨Entries.insert name value map.entries, map.sorted.insert name value⟩

def singleton (name : String) (value : α) : Named α :=
  empty.insert name value

/-- The map of a list of bindings, a later one over an earlier one of the same name. -/
def ofList (bindings : List (String × α)) : Named α :=
  bindings.foldl (fun map (name, value) => map.insert name value) empty

/-- The bindings of two maps, those of the second over those of the first. -/
def union (left right : Named α) : Named α :=
  right.entries.foldl (fun map (name, value) => map.insert name value) left

def filterNames (keep : String → Bool) (map : Named α) : Named α :=
  ⟨map.entries.filter fun entry => keep entry.1,
    map.sorted.sublist (List.filter_sublist.map Prod.fst)⟩

def erase (map : Named α) (name : String) : Named α :=
  map.filterNames (· ≠ name)

def map (f : α → β) (named : Named α) : Named β :=
  ⟨named.entries.map fun entry => (entry.1, f entry.2), by
    have h := named.sorted
    simpa [Entries.Sorted, Function.comp_def] using h⟩

/-- The bound names, in increasing order. -/
def names (map : Named α) : List String :=
  map.entries.map Prod.fst

def size (map : Named α) : Nat :=
  map.entries.length

def isEmpty (map : Named α) : Bool :=
  map.entries.isEmpty

/-- The map, unless nothing is bound. -/
def present (map : Named α) : Option (Named α) :=
  if map.isEmpty then none else some map

@[ext] theorem ext {left right : Named α} (h : ∀ name, left.get? name = right.get? name) :
    left = right := by
  obtain ⟨l, hl⟩ := left
  obtain ⟨r, hr⟩ := right
  obtain rfl : l = r := hl.ext hr h
  rfl

@[simp] theorem get?_empty (name : String) : (empty : Named α).get? name = none := rfl

theorem get?_insert (map : Named α) (name key : String) (value : α) :
    (map.insert name value).get? key = if name = key then some value else map.get? key :=
  Entries.get?_insert name key value map.entries

end Named

end AttributeStore
