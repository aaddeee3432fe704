import AttributeStore.Named

/-!
# Documents

A document nests leaves in lists and in maps keyed by text. Dynamic values and wire attributes
are documents over two kinds of leaves, so a conversion between them is a function on leaves,
carried to documents by `mapLeaves` when it always succeeds and by `traverse` when it may fail.
-/

namespace AttributeStore

/-- Leaves nested in lists and maps. -/
inductive Document (α : Type)
  | leaf (value : α)
  | list (members : List (Document α))
  | map (entries : List (String × Document α))

namespace Document

variable {α β ε : Type}

mutual

def decEq [DecidableEq α] : (a b : Document α) → Decidable (a = b)
  | leaf x, leaf y => decidable_of_iff (x = y) (by simp)
  | list xs, list ys =>
    have := decEqMembers xs ys
    decidable_of_iff (xs = ys) (by simp)
  | map xs, map ys =>
    have := decEqEntries xs ys
    decidable_of_iff (xs = ys) (by simp)
  | leaf _, list _ | leaf _, map _ | list _, leaf _ | list _, map _ | map _, leaf _
  | map _, list _ => isFalse nofun

def decEqMembers [DecidableEq α] : (xs ys : List (Document α)) → Decidable (xs = ys)
  | [], [] => isTrue rfl
  | x :: xs, y :: ys =>
    have := decEq x y
    have := decEqMembers xs ys
    decidable_of_iff (x = y ∧ xs = ys) (by simp)
  | [], _ :: _ | _ :: _, [] => isFalse nofun

def decEqEntries [DecidableEq α] : (xs ys : List (String × Document α)) → Decidable (xs = ys)
  | [], [] => isTrue rfl
  | (k, x) :: xs, (l, y) :: ys =>
    have := decEq x y
    have := decEqEntries xs ys
    decidable_of_iff (k = l ∧ x = y ∧ xs = ys) (by simp [and_assoc])
  | [], _ :: _ | _ :: _, [] => isFalse nofun

end

instance [DecidableEq α] : DecidableEq (Document α) := decEq

mutual

/-- The document with a function applied to every leaf. -/
def mapLeaves (f : α → β) : Document α → Document β
  | leaf x => leaf (f x)
  | list xs => list (mapMembers f xs)
  | map es => map (mapEntries f es)

def mapMembers (f : α → β) : List (Document α) → List (Document β)
  | [] => []
  | x :: xs => mapLeaves f x :: mapMembers f xs

def mapEntries (f : α → β) : List (String × Document α) → List (String × Document β)
  | [] => []
  | (name, x) :: es => (name, mapLeaves f x) :: mapEntries f es

end

mutual

/-- The document with a function applied to every leaf, or the error of the first leaf, from the
left, on which the function fails. -/
def traverse (f : α → Except ε β) : Document α → Except ε (Document β)
  | leaf x => do return leaf (← f x)
  | list xs => do return list (← traverseMembers f xs)
  | map es => do return map (← traverseEntries f es)

def traverseMembers (f : α → Except ε β) : List (Document α) → Except ε (List (Document β))
  | [] => .ok []
  | x :: xs => do
    let y ← traverse f x
    let ys ← traverseMembers f xs
    return y :: ys

def traverseEntries (f : α → Except ε β) :
    List (String × Document α) → Except ε (List (String × Document β))
  | [] => .ok []
  | (name, x) :: es => do
    let y ← traverse f x
    let ys ← traverseEntries f es
    return (name, y) :: ys

end

theorem traverseEntries_names {f : α → Except ε β} {es : List (String × Document α)}
    {fs : List (String × Document β)} (h : traverseEntries f es = .ok fs) :
    fs.map Prod.fst = es.map Prod.fst := by
  induction es generalizing fs with
  | nil =>
    simp only [traverseEntries, Except.ok.injEq] at h
    simp [← h]
  | cons entry es ih =>
    obtain ⟨name, x⟩ := entry
    rw [traverseEntries] at h
    cases hx : traverse f x with
    | error e => simp [hx, bind, Except.bind] at h
    | ok y =>
      cases hes : traverseEntries f es with
      | error e => simp [hx, hes, bind, Except.bind] at h
      | ok ys =>
        simp only [hx, hes, bind, Except.bind, pure, Except.pure, Except.ok.injEq] at h
        simp [← h, ih hes]

end Document

namespace Named

variable {α β ε : Type}

def mapLeaves (f : α → β) (documents : Named (Document α)) : Named (Document β) :=
  documents.map (Document.mapLeaves f)

def traverse (f : α → Except ε β) (documents : Named (Document α)) :
    Except ε (Named (Document β)) :=
  match h : Document.traverseEntries f documents.entries with
  | .error e => .error e
  | .ok entries => .ok ⟨entries, by
      have hs := documents.sorted
      rwa [Entries.Sorted, ← Document.traverseEntries_names h] at hs⟩

end Named

end AttributeStore
