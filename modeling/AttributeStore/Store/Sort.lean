/-!
# Sorting

The stable sort behind every read. It knows an order only by asking whether one element comes
before another. Up to twenty elements are inserted one after the other. More are cut into stretches
that are in order already and others, which are merged pairwise; a long stretch without order is
partitioned around a pivot, a short one is merged from both ends at once.

If the answers are those of a weak order the result is that of inserting one after the other,
`sort`. If not, the two ends of a merge may not meet. The sort then panics and has no result.
-/

namespace AttributeStore.Store

variable {α : Type}

/-! ## Insertion -/

/-- A list in decreasing order with one more element, behind all that it is not less than. -/
def insertSorted (less : α → α → Bool) (x : α) : List α → List α
  | [] => [x]
  | y :: rest => if less x y then y :: insertSorted less x rest else x :: y :: rest

/-- A list in increasing order, equal elements staying in their order. -/
def sort (less : α → α → Bool) (list : List α) : List α :=
  (list.foldl (fun sorted x => insertSorted less x sorted) []).reverse

def insertAll (less : α → α → Bool) (sorted list : List α) : List α :=
  (list.foldl (fun sorted x => insertSorted less x sorted) sorted.reverse).reverse

/-! ## Merging from both ends -/

/-- What was taken from the heads of two lists, and what is left of them. -/
structure Merging (α : Type) where
  taken : List α
  left : List α
  right : List α

def mergeSteps (takesLeft : α → α → Bool) : Nat → List α → List α → Merging α
  | steps + 1, x :: left, y :: right =>
    if takesLeft x y then
      let rest := mergeSteps takesLeft steps left (y :: right)
      { rest with taken := x :: rest.taken }
    else
      let rest := mergeSteps takesLeft steps (x :: left) right
      { rest with taken := y :: rest.taken }
  | _, left, right => ⟨[], left, right⟩

/-- What two merges of two lists make together, the one from the front, the other from the back. An
element that neither has taken stands in the middle; if some element was taken by both, there is no
result. -/
def meetEnds (left right : List α) (front back : Merging α) : Option (List α) :=
  if left.length ≤ front.left.length + back.left.length ∧
      right.length ≤ front.right.length + back.right.length then
    some (front.taken ++
      front.left.take (front.left.length + back.left.length - left.length) ++
      front.right.take (front.right.length + back.right.length - right.length) ++
      back.taken.reverse)
  else none

/-- Two lists merged from both ends, in as many steps from each as the first list has elements. The
second list is as long or longer by one. -/
def mergeFromEnds (less : α → α → Bool) (left right : List α) : Option (List α) :=
  meetEnds left right
    (mergeSteps (fun x y => !less y x) left.length left right)
    (mergeSteps (fun x y => less y x) left.length left.reverse right.reverse)

/-! ## Short lists -/

def sortTwo (less : α → α → Bool) (x y : α) : α × α :=
  if less y x then (y, x) else (x, y)

/-- Two pairs in order, merged by three comparisons: the least of all is the first of one pair and
the greatest the second of one, and the two others are put in order. -/
def mergePairs (less : α → α → Bool) (a b c d : α) : List α :=
  let (least, left, right, most) :=
    match less c a, less d b with
    | false, false => (a, b, c, d)
    | false, true => (a, c, d, b)
    | true, false => (c, a, b, d)
    | true, true => (c, a, d, b)
  let (low, high) := sortTwo less left right
  [least, low, high, most]

def sortFour (less : α → α → Bool) (a b c d : α) : List α :=
  let (a, b) := sortTwo less a b
  let (c, d) := sortTwo less c d
  mergePairs less a b c d

/-- Four or eight elements, sorted; a single one is. -/
def sortFirst (less : α → α → Bool) : List α → Option (List α)
  | [a, b, c, d] => some (sortFour less a b c d)
  | [a, b, c, d, e, f, g, h] =>
    mergeFromEnds less (sortFour less a b c d) (sortFour less e f g h)
  | list => some (sort less list)

def sortHalf (less : α → α → Bool) (count : Nat) (list : List α) : Option (List α) := do
  return insertAll less (← sortFirst less (list.take count)) (list.drop count)

/-- A list of at most thirty-two elements, sorted half by half. -/
def sortShort (less : α → α → Bool) (list : List α) : Option (List α) := do
  let count := if 16 ≤ list.length then 8 else if 8 ≤ list.length then 4 else 1
  let left ← sortHalf less count (list.take (list.length / 2))
  let right ← sortHalf less count (list.drop (list.length / 2))
  mergeFromEnds less left right

/-! ## Stretches -/

/-- Neighbouring elements, which are in order or still to be sorted. -/
structure Stretch (α : Type) where
  items : List α
  sorted : Bool

/-- The elements that go on from a last one, and those after them. -/
def spanFrom (goesOn : α → α → Bool) : α → List α → List α × List α
  | last, x :: rest =>
    if goesOn last x then
      let (more, after) := spanFrom goesOn x rest
      (x :: more, after)
    else ([], x :: rest)
  | _, [] => ([], [])

/-- The longest stretch in front that does not fall, or falls all the way and is turned round, and
what comes after it. -/
def leadingStretch (less : α → α → Bool) : List α → List α × List α
  | x :: y :: rest =>
    if less y x then
      let (more, after) := spanFrom (fun last z => less z last) y rest
      ((x :: y :: more).reverse, after)
    else
      let (more, after) := spanFrom (fun last z => !less z last) y rest
      (x :: y :: more, after)
  | list => (list, [])

/-- The next stretch and what comes after it. A stretch in order has to be long enough; another one
is sorted at once if the sort is eager. -/
def nextStretch (less : α → α → Bool) (eager : Bool) (least : Nat) (list : List α) :
    Option (Stretch α × List α) := do
  let (items, after) := leadingStretch less list
  if least ≤ items.length then
    return (⟨items, true⟩, after)
  else if eager then
    return (⟨← sortShort less (list.take 32), true⟩, list.drop 32)
  else
    return (⟨list.take least, false⟩, list.drop least)

/-- A list cut into stretches; there are no more of them than elements. -/
def cutStretches (less : α → α → Bool) (eager : Bool) (least : Nat) :
    Nat → List α → Option (List (Stretch α))
  | _, [] => some []
  | 0, list => some [⟨list, false⟩]
  | most + 1, list => do
    let (stretch, after) ← nextStretch less eager least list
    return stretch :: (← cutStretches less eager least most after)

/-- Two lists in order, merged from that end at which the shorter one stands. -/
def mergeShorter (less : α → α → Bool) (left right : List α) : List α :=
  if left.length ≤ right.length then List.merge left right fun x y => !less y x
  else (List.merge left.reverse right.reverse fun x y => less y x).reverse

/-- The elements of a stretch in order; `settle` sorts one that is not. -/
def Stretch.settled (settle : List α → Option (List α)) (stretch : Stretch α) :
    Option (List α) :=
  if stretch.sorted then some stretch.items else settle stretch.items

/-- Two neighbouring stretches as one. As long as both are to be sorted and there is room to sort
them together, that is put off. -/
def joinStretches (less : α → α → Bool) (settle : List α → Option (List α)) (room : Nat)
    (left right : Stretch α) : Option (Stretch α) := do
  if left.items.length + right.items.length ≤ room ∧ !left.sorted ∧ !right.sorted then
    return ⟨left.items ++ right.items, false⟩
  else
    return ⟨mergeShorter less (← left.settled settle) (← right.settled settle), true⟩

/-- The depth of the joint of two neighbouring stretches in the tree of joints: how many leading
bits the places of their middles have in common, when a list's places are scaled to 62 bits. -/
def jointDepth (length start middle stop : Nat) : Nat :=
  let scale := ((1 <<< 62) + length - 1) / length
  let difference := (scale * (start + middle)) ^^^ (scale * (middle + stop))
  if difference = 0 then 64 else 63 - difference.log2

/-- Joins a stretch to those before it whose joints are as deep as the next one. -/
def collapse (join : Stretch α → Stretch α → Option (Stretch α)) (depth : Nat) :
    List (Stretch α × Nat) → Stretch α → Option (List (Stretch α × Nat) × Stretch α)
  | (left, joint) :: earlier, stretch =>
    if depth ≤ joint then do collapse join depth earlier (← join left stretch)
    else some ((left, joint) :: earlier, stretch)
  | [], stretch => some ([], stretch)

/-- Joins all stretches, deep joints first. The earlier ones are stacked, the last one on top. -/
def joinAll (join : Stretch α → Stretch α → Option (Stretch α)) (length : Nat) :
    List (Stretch α × Nat) → Nat → Stretch α → List (Stretch α) → Option (Stretch α)
  | earlier, start, stretch, next :: later => do
    let middle := start + stretch.items.length
    let depth := jointDepth length start middle (middle + next.items.length)
    let (earlier, joined) ← collapse join depth earlier stretch
    joinAll join length ((joined, depth) :: earlier) middle next later
  | earlier, _, stretch, [] => do
    return (← collapse join 0 earlier stretch).2

/-- The least length of a stretch in order that is worth keeping: half of the list, at most 64, or
about the square root of a long list. -/
def leastStretch (length : Nat) : Nat :=
  if length ≤ 4096 then min (length - length / 2) 64
  else
    let shift := (1 + length.log2) / 2
    ((1 <<< shift) + (length >>> shift)) / 2

def sortStretches (less : α → α → Bool) (settle : List α → Option (List α)) (eager : Bool)
    (room : Nat) (list : List α) : Option (List α) := do
  match ← cutStretches less eager (leastStretch list.length) list.length list with
  | [] => return []
  | first :: later =>
    let whole ← joinAll (joinStretches less settle room) list.length [] 0 first later
    whole.settled settle

/-! ## Partitioning -/

def medianPlace (less : Nat → Nat → Bool) (a b c : Nat) : Nat :=
  if less a b = less a c then
    if less b c = less a b then b else c
  else a

/-- The place of a median of medians; each of the three places stands for that many places from
it on. -/
def medianPlaceWithin (less : Nat → Nat → Bool) (count a b c : Nat) : Nat :=
  if 64 ≤ 8 * count then
    let part := count / 8
    let median (place : Nat) :=
      medianPlaceWithin less part place (place + part * 4) (place + part * 7)
    medianPlace less (median a) (median b) (median c)
  else medianPlace less a b c
termination_by count
decreasing_by all_goals omega

def pivotPlace (less : α → α → Bool) (list : List α) : Nat :=
  let lessAt (i j : Nat) : Bool :=
    match list[i]?, list[j]? with
    | some x, some y => less x y
    | _, _ => false
  let part := list.length / 8
  medianPlaceWithin lessAt part 0 (part * 4) (part * 7)

structure Sides (α : Type) where
  left : List α
  right : List α

/-- The elements that go left and the others; the pivot, which is not asked, goes where it is
sent. -/
def partitionAt (goesLeft : α → Bool) (pivotLeft : Bool) (place : Nat) (list : List α) : Sides α :=
  let before := list.take place
  let pivot := (list.drop place).take 1
  let after := list.drop (place + 1)
  { left := before.filter goesLeft ++ (if pivotLeft then pivot else []) ++ after.filter goesLeft
    right := before.filter (!goesLeft ·) ++ (if pivotLeft then [] else pivot) ++
      after.filter (!goesLeft ·) }

/-- Sorts by partitioning, so often at most; then by eager stretches, of which none is left to be
settled. None of the elements is less than the ancestor, a pivot of an earlier partition. If the
pivot is not greater either, or nothing is less than it, its equals are taken out instead. -/
def quicksort (less : α → α → Bool) (room : Nat) :
    Nat → Option α → List α → Option (List α)
  | 0, _, list =>
    if list.length ≤ 32 then sortShort less list
    else sortStretches less (sortShort less) true room list
  | limit + 1, ancestor, list =>
    if list.length ≤ 32 then sortShort less list
    else
      let place := pivotPlace less list
      match list[place]? with
      | none => sortShort less list
      | some pivot =>
        let sides := partitionAt (less · pivot) false place list
        if ancestor.any (!less · pivot) || sides.left.isEmpty then do
          let sides := partitionAt (!less pivot ·) true place list
          return sides.left ++ (← quicksort less room limit none sides.right)
        else do
          let right ← quicksort less room limit (some pivot) sides.right
          let left ← quicksort less room limit ancestor sides.left
          return left ++ right

/-- The sort. There is room for a million elements, or for half of the list if that is more. -/
def sortBy (less : α → α → Bool) (list : List α) : Option (List α) :=
  if list.length ≤ 20 then some (sort less list)
  else
    let room := max (list.length - list.length / 2) 1000000
    let settle (items : List α) := quicksort less room (2 * items.length.log2) none items
    sortStretches less settle (list.length ≤ 64) room list

end AttributeStore.Store
