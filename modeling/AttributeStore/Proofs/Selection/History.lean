import AttributeStore.Proofs.Encoding
import AttributeStore.Proofs.Selection.Meaning
import Mathlib.Data.List.Induction

/-!
# How a selection was built

A selection is what a sequence of methods makes of the empty one. What it holds can be told from
the methods alone: of the conditions added for an attribute in a role the first one is kept, the
first one that came too late is remembered first, and the last projection counts.
-/

namespace AttributeStore

/-! ## The first of each name -/

section

variable {α : Type} (name : α → String)

/-- The members of a list whose name no earlier member has. -/
def firstOfEach : List α → List α
  | [] => []
  | member :: rest =>
    member :: (firstOfEach rest).filter fun other => name other ≠ name member

variable {name}

theorem mem_names_firstOfEach {list : List α} {key : String} :
    key ∈ (firstOfEach name list).map name ↔ key ∈ list.map name := by
  induction list with
  | nil => rfl
  | cons member rest ih =>
    simp only [List.mem_map] at ih
    simp only [firstOfEach, List.map_cons, List.mem_cons, List.mem_map, List.mem_filter,
      decide_eq_true_eq]
    constructor
    · rintro (rfl | ⟨other, ⟨hother, _⟩, rfl⟩)
      · exact Or.inl rfl
      · exact Or.inr (ih.1 ⟨other, hother, rfl⟩)
    · rintro (rfl | hrest)
      · exact Or.inl rfl
      · by_cases hkey : key = name member
        · exact Or.inl hkey
        · obtain ⟨other, hother, rfl⟩ := ih.2 hrest
          exact Or.inr ⟨other, ⟨hother, hkey⟩, rfl⟩

theorem firstOfEach_concat (list : List α) (member : α) :
    firstOfEach name (list ++ [member]) =
      if name member ∈ list.map name then firstOfEach name list
      else firstOfEach name list ++ [member] := by
  induction list with
  | nil => rfl
  | cons first rest ih =>
    simp only [List.cons_append, firstOfEach, ih, List.map_cons, List.mem_cons]
    by_cases hrest : name member ∈ rest.map name
    · simp [hrest]
    · rw [if_neg hrest, List.filter_append]
      by_cases hfirst : name member = name first
      · simp [hfirst]
      · simp [hrest, hfirst]

end

theorem firstRepeat_concat {α : Type} [DecidableEq α] (seen list : List α) (member : α) :
    firstRepeat seen (list ++ [member]) =
      (firstRepeat seen list).or (if member ∈ seen ++ list then some member else none) := by
  induction list generalizing seen with
  | nil => simp [firstRepeat]
  | cons first rest ih =>
    rw [List.cons_append, firstRepeat, firstRepeat]
    split
    · rfl
    · rw [ih]
      congr 1
      simp [or_left_comm]

namespace Selection

inductive Method
  | add (condition : Condition)
  | setIndex (name : String)
  | setLimit (limit : Int)
  | setConsistentRead (flag : Bool)
  | setDescending (descending : Bool)
  | setStartKey (key : Item)
  | setProjection (names : List String)
deriving DecidableEq

def perform (selection : Selection) : Method → Selection
  | .add condition => selection.add condition
  | .setIndex name => { selection with indexName := some name }
  | .setLimit limit => { selection with limit := some limit }
  | .setConsistentRead flag => { selection with consistentRead := some flag }
  | .setDescending descending => { selection with descending }
  | .setStartKey key => { selection with startKey := some key }
  | .setProjection names => { selection with projection := names }

def build (methods : List Method) : Selection :=
  methods.foldl perform {}

theorem build_concat (methods : List Method) (method : Method) :
    build (methods ++ [method]) = (build methods).perform method := by
  rw [build, List.foldl_concat]
  rfl

theorem Built.perform {selection : Selection} (h : selection.Built) (method : Method) :
    (selection.perform method).Built := by
  cases method with
  | add condition => exact h.add condition
  | setIndex name => exact h.setIndex name
  | setLimit limit => exact h.setLimit limit
  | setConsistentRead flag => exact h.setConsistentRead flag
  | setDescending descending => exact h.setDescending descending
  | setStartKey key => exact h.setStartKey key
  | setProjection names => exact h.setProjection names

/-- The selections that can be built are those that some methods build. -/
theorem built_iff {selection : Selection} :
    selection.Built ↔ ∃ methods, build methods = selection := by
  constructor
  · intro h
    have hstep {before : Selection} (method : Method) :
        (∃ methods, build methods = before) → ∃ methods, build methods = before.perform method := by
      rintro ⟨methods, rfl⟩
      exact ⟨methods ++ [method], build_concat methods method⟩
    induction h with
    | new => exact ⟨[], rfl⟩
    | add _ condition ih => exact hstep (.add condition) ih
    | setIndex _ name ih => exact hstep (.setIndex name) ih
    | setLimit _ limit ih => exact hstep (.setLimit limit) ih
    | setConsistentRead _ flag ih => exact hstep (.setConsistentRead flag) ih
    | setDescending _ descending ih => exact hstep (.setDescending descending) ih
    | setStartKey _ key ih => exact hstep (.setStartKey key) ih
    | setProjection _ names ih => exact hstep (.setProjection names) ih
  · rintro ⟨methods, rfl⟩
    induction methods using List.reverseRecOn with
    | nil => exact .new
    | append_singleton methods method ih =>
      rw [build_concat]
      exact ih.perform method

/-! ## What the methods tell -/

def Method.condition? : Method → Option Condition
  | add condition => some condition
  | _ => none

def Method.projection? : Method → Option (List String)
  | setProjection names => some names
  | _ => none

def added (methods : List Method) : List Condition :=
  methods.filterMap Method.condition?

/-- The attributes and roles for which methods add conditions, in order. -/
def places (methods : List Method) : List (String × Role) :=
  (added methods).map fun condition => (condition.name, condition.role)

/-- The conditions of a role that count: the first one added for each attribute. -/
def kept (methods : List Method) (role : Role) : List Condition :=
  firstOfEach Condition.name ((added methods).filter fun condition => condition.role = role)

/-- The projection that counts: the last one set, none being set as none. -/
def projected (methods : List Method) : List String :=
  (methods.filterMap Method.projection?).getLast?.getD []

theorem added_concat (methods : List Method) (method : Method) :
    added (methods ++ [method]) = added methods ++ method.condition?.toList := by
  unfold added
  rw [List.filterMap_append]
  cases method <;> rfl

theorem added_concat_of_none {method : Method} (h : method.condition? = none)
    (methods : List Method) : added (methods ++ [method]) = added methods := by
  rw [added_concat, h, Option.toList_none, List.append_nil]

theorem places_concat (methods : List Method) (condition : Condition) :
    places (methods ++ [.add condition]) =
      places methods ++ [(condition.name, condition.role)] := by
  rw [places, added_concat, List.map_append]
  rfl

theorem projected_concat (methods : List Method) (method : Method) :
    projected (methods ++ [method]) = method.projection?.getD (projected methods) := by
  unfold projected
  rw [List.filterMap_append]
  cases method with
  | setProjection names => exact congrArg (Option.getD · []) List.getLast?_concat
  | _ => exact congrArg (fun set : List (List String) => set.getLast?.getD []) (List.append_nil _)

/-- One more condition is kept if it is of the role and none of its attribute was kept there. -/
theorem kept_concat (methods : List Method) (condition : Condition) (role : Role) :
    kept (methods ++ [.add condition]) role =
      if condition.role = role ∧ condition.name ∉ (kept methods role).map Condition.name then
        kept methods role ++ [condition]
      else kept methods role := by
  have hnames : condition.name ∈ (kept methods role).map Condition.name ↔ condition.name ∈
      ((added methods).filter fun other => other.role = role).map Condition.name :=
    mem_names_firstOfEach
  simp only [hnames]
  unfold kept
  rw [added_concat, List.filter_append]
  by_cases hrole : condition.role = role
  · have hone : (Method.add condition).condition?.toList.filter (fun other => other.role = role) =
        [condition] := List.filter_cons_of_pos (decide_eq_true hrole)
    rw [hone, firstOfEach_concat]
    split
    · rename_i hname
      rw [if_neg fun h => h.2 hname]
    · rename_i hname
      rw [if_pos ⟨hrole, hname⟩]
  · have hnone : (Method.add condition).condition?.toList.filter (fun other => other.role = role) =
        [] := List.filter_cons_of_neg (by simpa using hrole)
    rw [hnone, List.append_nil, if_neg fun h => hrole h.1]

theorem mem_places_iff {methods : List Method} {name : String} {role : Role} :
    (name, role) ∈ places methods ↔ name ∈ (kept methods role).map Condition.name := by
  unfold places kept
  rw [mem_names_firstOfEach]
  simp only [List.mem_map, List.mem_filter, Prod.mk.injEq, decide_eq_true_eq]
  constructor
  · rintro ⟨condition, hm, rfl, rfl⟩
    exact ⟨condition, ⟨hm, rfl⟩, rfl⟩
  · rintro ⟨condition, ⟨hm, rfl⟩, rfl⟩
    exact ⟨condition, hm, rfl, rfl⟩

/-! ## What a selection holds -/

theorem members_add (selection : Selection) (condition : Condition) (role : Role) :
    ((selection.add condition).conditions role).members =
      if condition.role = role ∧ condition.name ∉ (selection.conditions role).names then
        (selection.conditions role).members ++ [condition]
      else (selection.conditions role).members := by
  by_cases hlate : (selection.conditions condition.role).contains condition.name = true
  · -- what comes too late for its own role is kept in no role
    have hnot : ¬ (condition.role = role ∧ condition.name ∉ (selection.conditions role).names) := by
      rintro ⟨rfl, hnew⟩
      exact hnew ((Roster.contains_iff _ _).1 hlate)
    rw [if_neg hnot, add, if_pos hlate]
    cases role <;> rfl
  · have hnew := mt (Roster.contains_iff _ _).2 hlate
    have hmembers := (Roster.members_add (selection.conditions condition.role) condition).trans
      (if_pos (Bool.eq_false_iff.2 hlate))
    rw [add, if_neg hlate]
    cases hrole : condition.role <;> cases role <;> rw [hrole] at hnew hmembers
    case key.key => rw [if_pos ⟨rfl, hnew⟩]; exact hmembers
    case filter.filter => rw [if_pos ⟨rfl, hnew⟩]; exact hmembers
    all_goals
      rw [if_neg fun h => nomatch h.1]
      rfl

theorem rejected_add (selection : Selection) (condition : Condition) :
    (selection.add condition).rejected =
      if condition.name ∈ (selection.conditions condition.role).names then
        selection.rejected ++ [(condition.name, condition.role)]
      else selection.rejected := by
  unfold add
  simp only [← Roster.contains_iff]
  split
  · rfl
  · cases condition.role <;> rfl

theorem projection_add (selection : Selection) (condition : Condition) :
    (selection.add condition).projection = selection.projection := by
  unfold add
  split
  · rfl
  · cases condition.role <;> rfl

/-- A builder keeps the first condition added for each attribute and role, in order. -/
theorem members_build (methods : List Method) (role : Role) :
    ((build methods).conditions role).members = kept methods role := by
  induction methods using List.reverseRecOn with
  | nil => cases role <;> rfl
  | append_singleton methods method ih =>
    rw [build_concat]
    cases method with
    | add condition =>
      have hadd := members_add (build methods) condition role
      rwa [Roster.names, ih, ← kept_concat] at hadd
    | _ =>
      rw [kept, added_concat_of_none rfl]
      exact ih

theorem keyConditions_build (methods : List Method) :
    (build methods).keyConditions.members = kept methods .key :=
  members_build methods .key

theorem filterConditions_build (methods : List Method) :
    (build methods).filterConditions.members = kept methods .filter :=
  members_build methods .filter

theorem head?_rejected_build (methods : List Method) :
    (build methods).rejected.head? = firstRepeat [] (places methods) := by
  induction methods using List.reverseRecOn with
  | nil => rfl
  | append_singleton methods method ih =>
    rw [build_concat]
    cases method with
    | add condition =>
      have htaken : condition.name ∈ ((build methods).conditions condition.role).names ↔
          (condition.name, condition.role) ∈ places methods := by
        rw [mem_places_iff, Roster.names, members_build]
      rw [perform, rejected_add, places_concat, firstRepeat_concat, List.nil_append, ← ih]
      simp only [htaken]
      split
      · rw [List.head?_append, List.head?_singleton]
      · rw [Option.or_none]
    | _ =>
      rw [places, added_concat_of_none rfl]
      exact ih

theorem projection_build (methods : List Method) :
    (build methods).projection = projected methods := by
  induction methods using List.reverseRecOn with
  | nil => rfl
  | append_singleton methods method ih =>
    rw [build_concat, projected_concat, ← ih]
    cases method with
    | add condition => exact projection_add _ _
    | _ => rfl

end Selection

end AttributeStore
