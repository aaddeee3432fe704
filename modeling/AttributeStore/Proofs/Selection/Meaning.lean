import AttributeStore.Proofs.Roster
import AttributeStore.Selection.Rendering
import AttributeStore.Store.Order

/-!
# What a selection means

The meaning of a selection on an item, without expressions: a condition holds when the item has
the attribute and the store's order between it and the encoded operand is the one asked for. Key
conditions have to hold together; filter conditions form alternatives, a new one beginning with
each condition that is joined by OR.
-/

namespace AttributeStore

def Catalog.declared (attributes : Catalog) (name : String) : Option WireType :=
  (attributes.get? name).map (·.wireType)

/-- Whether an attribute stands to an operand in an order that a comparator accepts. -/
def Comparator.holds (comparator : Comparator) (declared : Option WireType) (held : Attribute)
    (operand : Value) : Bool :=
  match operand.encodeWith declared with
  | .ok encoded => (Store.compareAttributes? held encoded).any comparator.accepts
  | .error _ => false

def Comparison.holds (declared : Option WireType) (held : Attribute) : Comparison → Bool
  | compare comparator operand => comparator.holds declared held operand
  | between lower upper =>
    Comparator.greaterOrEqual.holds declared held lower &&
      Comparator.lessOrEqual.holds declared held upper

namespace Condition

def holds (attributes : Catalog) (item : WireItem) (condition : Condition) : Bool :=
  (item.get? condition.name).any fun held =>
    condition.comparison.holds (attributes.declared condition.name) held

/-- The conditions behind another one: those of its alternative, and the alternatives that an OR
begins. -/
def following : List Condition → List Condition × List (List Condition)
  | [] => ([], [])
  | condition :: rest =>
    let (same, others) := following rest
    match condition.connective with
    | .and => (condition :: same, others)
    | .or => ([], (condition :: same) :: others)

/-- Joined conditions cut before each OR; how the first one is joined does not matter. -/
def alternatives : List Condition → List (List Condition)
  | [] => []
  | condition :: rest =>
    let (same, others) := following rest
    (condition :: same) :: others

/-- Whether all conditions of some alternative hold, or there are no conditions. -/
def joinedHold (attributes : Catalog) (item : WireItem) (conditions : List Condition) : Bool :=
  conditions.isEmpty || (alternatives conditions).any fun group => group.all (holds attributes item)

end Condition

namespace Selection

def keyHolds (selection : Selection) (attributes : Catalog) (item : WireItem) : Bool :=
  selection.keyConditions.members.all (Condition.holds attributes item)

/-- Whether the filter holds; it does when there is none. -/
def filterHolds (selection : Selection) (attributes : Catalog) (item : WireItem) : Bool :=
  Condition.joinedHold attributes item selection.filterConditions.members

/-- The selections that the methods of a builder make. -/
inductive Built : Selection → Prop
  | new : Built {}
  | add {selection : Selection} (built : Built selection) (condition : Condition) :
    Built (selection.add condition)
  | setIndex {selection : Selection} (built : Built selection) (name : String) :
    Built { selection with indexName := some name }
  | setLimit {selection : Selection} (built : Built selection) (limit : Int) :
    Built { selection with limit := some limit }
  | setConsistentRead {selection : Selection} (built : Built selection) (flag : Bool) :
    Built { selection with consistentRead := some flag }
  | setDescending {selection : Selection} (built : Built selection) (descending : Bool) :
    Built { selection with descending }
  | setStartKey {selection : Selection} (built : Built selection) (key : Item) :
    Built { selection with startKey := some key }
  | setProjection {selection : Selection} (built : Built selection) (names : List String) :
    Built { selection with projection := names }

/-- Each condition stands under its own role. -/
structure ByRole (selection : Selection) : Prop where
  key : ∀ condition ∈ selection.keyConditions.members, condition.role = .key
  filter : ∀ condition ∈ selection.filterConditions.members, condition.role = .filter

theorem ByRole.add {selection : Selection} (h : selection.ByRole) (condition : Condition) :
    (selection.add condition).ByRole := by
  unfold Selection.add
  split
  · exact ⟨h.key, h.filter⟩
  · cases hr : condition.role with
    | key =>
      refine ⟨?_, h.filter⟩
      intro member hm
      rcases Roster.mem_members_add hm with hm | rfl
      · exact h.key member hm
      · exact hr
    | filter =>
      refine ⟨h.key, ?_⟩
      intro member hm
      rcases Roster.mem_members_add hm with hm | rfl
      · exact h.filter member hm
      · exact hr

theorem Built.byRole {selection : Selection} (h : selection.Built) : selection.ByRole := by
  induction h with
  | new =>
    exact ⟨fun _ hm => (List.not_mem_nil hm).elim, fun _ hm => (List.not_mem_nil hm).elim⟩
  | add _ condition ih => exact ih.add condition
  | setIndex _ _ ih => exact ⟨ih.key, ih.filter⟩
  | setLimit _ _ ih => exact ⟨ih.key, ih.filter⟩
  | setConsistentRead _ _ ih => exact ⟨ih.key, ih.filter⟩
  | setDescending _ _ ih => exact ⟨ih.key, ih.filter⟩
  | setStartKey _ _ ih => exact ⟨ih.key, ih.filter⟩
  | setProjection _ _ ih => exact ⟨ih.key, ih.filter⟩

end Selection

end AttributeStore
