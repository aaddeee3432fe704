/-!
# Rosters

A roster lists members in the order of their arrival, no two of them of one name. `add` keeps a
member that is already there, `put` replaces it at its place.
-/

namespace AttributeStore

/-- Members in the order of their arrival, with distinct names. -/
structure Roster {α : Type} (name : α → String) where
  /-- The members, first come first. -/
  members : List α
  distinct : (members.map name).Nodup
deriving DecidableEq

namespace Roster

variable {α : Type} {name : α → String}

def empty : Roster name := ⟨[], List.nodup_nil⟩

instance : Inhabited (Roster name) := ⟨empty⟩

instance : EmptyCollection (Roster name) := ⟨empty⟩

def get? (roster : Roster name) (key : String) : Option α :=
  roster.members.find? fun member => name member = key

def names (roster : Roster name) : List String :=
  roster.members.map name

def contains (roster : Roster name) (key : String) : Bool :=
  roster.members.any fun member => name member = key

def isEmpty (roster : Roster name) : Bool :=
  roster.members.isEmpty

theorem contains_iff (roster : Roster name) (key : String) :
    roster.contains key = true ↔ key ∈ roster.names := by
  simp [contains, names]

/-- The roster with a member at its end, for whose name it has none yet. -/
def append (roster : Roster name) (member : α) (fresh : roster.contains (name member) = false) :
    Roster name :=
  ⟨roster.members ++ [member], by
    have h : name member ∉ roster.names := fun m => by
      simp [(roster.contains_iff _).2 m] at fresh
    rw [List.map_append, List.nodup_append]
    refine ⟨roster.distinct, by simp, fun a ha b hb => ?_⟩
    rintro rfl
    simp only [List.map_cons, List.map_nil, List.mem_singleton] at hb
    exact h (hb ▸ ha)⟩

/-- The roster with a member at its end, unless one of the same name is there. -/
def add (roster : Roster name) (member : α) : Roster name :=
  if fresh : roster.contains (name member) = false then roster.append member fresh else roster

/-- The roster with a member at the place of the one of its name, or else at the end. -/
def put (roster : Roster name) (member : α) : Roster name :=
  if fresh : roster.contains (name member) = false then roster.append member fresh
  else
    ⟨roster.members.map fun old => if name old = name member then member else old, by
      have h : (fun old => name (if name old = name member then member else old)) = name := by
        funext old
        split
        · rename_i e
          exact e.symm
        · rfl
      rw [List.map_map, Function.comp_def, h]
      exact roster.distinct⟩

/-- The roster of a list, a later member over an earlier one of its name. -/
def ofList (members : List α) : Roster name :=
  members.foldl put empty

end Roster

end AttributeStore
