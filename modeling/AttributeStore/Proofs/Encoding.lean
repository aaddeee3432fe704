import AttributeStore.Proofs.Document
import AttributeStore.Value.Codec

/-!
# Values there and back

Encoding fails for nothing but sets that the store refuses, wherever in a value they stand, and
what it gives decodes to the value again. Both are facts about atoms, carried to values and items
by the laws of documents.
-/

namespace AttributeStore

/-- The atom is a set that is empty or has two equal members. -/
def Atom.IsRefusedSet : Atom → Prop
  | .stringSet members => members = [] ∨ ¬ members.Nodup
  | .numberSet members => members = [] ∨ ¬ members.Nodup
  | .binarySet members => members = [] ∨ ¬ members.Nodup
  | _ => False

theorem firstRepeat_eq_none_iff {α : Type} [DecidableEq α] {seen members : List α} :
    firstRepeat seen members = none ↔ members.Nodup ∧ ∀ member ∈ members, member ∉ seen := by
  -- Each member that is passed joins `seen`, so the claim is about what was seen as well.
  induction members generalizing seen with
  | nil => simp [firstRepeat]
  | cons member rest ih =>
    rw [firstRepeat]
    split
    · rename_i h
      simp [h]
    · rename_i h
      rw [ih, List.nodup_cons, List.forall_mem_cons]
      constructor
      · rintro ⟨hd, hr⟩
        refine ⟨⟨fun hm => hr member hm List.mem_cons_self, hd⟩, h, ?_⟩
        exact fun other hm hs => hr other hm (List.mem_cons_of_mem _ hs)
      · rintro ⟨⟨hm, hd⟩, -, hr⟩
        refine ⟨hd, fun other ho hs => ?_⟩
        rcases List.mem_cons.1 hs with rfl | hs
        · exact hm ho
        · exact hr other ho hs

theorem checkSet_eq_ok_iff {α : Type} [DecidableEq α] {set : WireType} {describe : α → String}
    {members : List α} :
    checkSet set describe members = .ok () ↔ ¬ (members = [] ∨ ¬ members.Nodup) := by
  unfold checkSet
  cases members with
  | nil => simp
  | cons member rest =>
    have hnone : firstRepeat [] (member :: rest) = none ↔ (member :: rest).Nodup := by
      simp [firstRepeat_eq_none_iff]
    rw [List.isEmpty_cons, if_neg Bool.false_ne_true]
    split
    · rename_i found hfound
      simp [hfound, ← hnone]
    · rename_i hfound
      simp [hnone.1 hfound]

theorem exists_checkSet_iff {α β : Type} [DecidableEq α] (set : WireType) (describe : α → String)
    (members : List α) (result : β) :
    (∃ wire, (do checkSet set describe members; return result) = Except.ok wire) ↔
      ¬ (members = [] ∨ ¬ members.Nodup) := by
  simp only [bind_eq_ok, pure_eq_ok]
  constructor
  · rintro ⟨_, _, h, -⟩
    exact checkSet_eq_ok_iff.1 h
  · intro h
    exact ⟨result, (), checkSet_eq_ok_iff.2 h, rfl⟩

namespace Atom

/-- An atom is encoded unless it is a set that the store refuses. -/
theorem exists_encode_eq_ok_iff (atom : Atom) :
    (∃ wire, atom.encode = .ok wire) ↔ ¬ atom.IsRefusedSet := by
  cases atom with
  | stringSet members => exact exists_checkSet_iff _ _ _ _
  | numberSet members => exact exists_checkSet_iff _ _ _ _
  | binarySet members => exact exists_checkSet_iff _ _ _ _
  | _ => exact ⟨fun _ => id, fun _ => ⟨_, rfl⟩⟩

theorem decode_of_encode {atom : Atom} {wire : WireAtom} (h : atom.encode = .ok wire) :
    wire.decode = atom := by
  cases atom with
  | stringSet members =>
    simp only [encode, bind_eq_ok, pure_eq_ok] at h
    obtain ⟨_, -, rfl⟩ := h
    rfl
  | numberSet members =>
    simp only [encode, bind_eq_ok, pure_eq_ok] at h
    obtain ⟨_, -, rfl⟩ := h
    rw [WireAtom.decode, List.map_map]
    congr 1
    exact List.map_id members
  | binarySet members =>
    simp only [encode, bind_eq_ok, pure_eq_ok] at h
    obtain ⟨_, -, rfl⟩ := h
    rfl
  | _ =>
    obtain rfl := Except.ok.inj h
    rfl

end Atom

theorem WireAtom.wireType_decode (wire : WireAtom) : wire.decode.wireType = wire.wireType := by
  cases wire <;> rfl

theorem Attribute.wireType_decode (wire : Attribute) : wire.decode.wireType = wire.wireType := by
  cases wire with
  | leaf atom => exact atom.wireType_decode
  | list members => rfl
  | map entries => rfl

namespace Value

variable {value : Value} {wire : Attribute}

/-- Some set in the value, at whatever depth, is empty or has two equal members. -/
def HasRefusedSet (value : Value) : Prop :=
  ∃ atom, Document.Holds atom value ∧ atom.IsRefusedSet

theorem exists_encode_eq_error_iff (value : Value) :
    (∃ cause, value.encode = .error cause) ↔ value.HasRefusedSet := by
  unfold encode HasRefusedSet
  simp only [exists_eq_error_iff, Document.exists_traverse_eq_ok_iff, Atom.exists_encode_eq_ok_iff,
    Classical.not_forall, Classical.not_not, exists_prop]

theorem decode_of_encode (h : value.encode = .ok wire) : wire.decode = value :=
  Document.mapLeaves_of_traverse (fun _ _ => Atom.decode_of_encode) h

theorem wireType_of_encode (h : value.encode = .ok wire) : wire.wireType = value.wireType := by
  rw [← wire.wireType_decode, decode_of_encode h]

end Value

namespace Item

variable {item : Item} {wire : WireItem}

theorem exists_encode_eq_error_iff (item : Item) :
    (∃ cause, item.encode = .error cause) ↔
      ∃ name value, item.get? name = some value ∧ Value.HasRefusedSet value := by
  simp only [← Value.exists_encode_eq_error_iff, exists_eq_error_iff]
  unfold encode Value.encode
  simp only [Named.exists_traverse_eq_ok_iff, Classical.not_forall, exists_prop]

theorem get?_of_encode (h : item.encode = .ok wire) (name : String) :
    (item.get? name).map Value.encode = (wire.get? name).map .ok :=
  Named.get?_of_traverse h name

theorem map_get?_of_encode {γ : Type} {told : Attribute → γ} {meant : Value → γ}
    (hvalue : ∀ value held, Value.encode value = .ok held → told held = meant value)
    (h : item.encode = .ok wire) (name : String) :
    (wire.get? name).map told = (item.get? name).map meant := by
  have hname := get?_of_encode h name
  cases hi : item.get? name with
  | none =>
    rw [hi, Option.map_none, eq_comm, Option.map_eq_none_iff] at hname
    rw [hname, Option.map_none, Option.map_none]
  | some value =>
    rw [hi, Option.map_some, eq_comm, Option.map_eq_some_iff] at hname
    obtain ⟨held, hheld, hencode⟩ := hname
    rw [hheld, Option.map_some, Option.map_some, hvalue value held hencode.symm]

theorem wireType_of_encode (h : item.encode = .ok wire) (name : String) :
    (wire.get? name).map Attribute.wireType = (item.get? name).map Value.wireType :=
  map_get?_of_encode (fun _ _ => Value.wireType_of_encode) h name

theorem decode_of_encode (h : item.encode = .ok wire) : wire.decode = item := by
  ext name : 1
  rw [WireItem.decode, Named.mapLeaves, Named.get?_map]
  have hname := map_get?_of_encode (fun _ _ => Value.decode_of_encode) h name
  rwa [Option.map_id'] at hname

end Item

/-- Values and items are encoded unless a set in them is refused, and what they are encoded to
decodes to them and has their wire types. -/
theorem decode_undoes_encode :
    (∀ value : Value,
      ((∃ cause, value.encode = .error cause) ↔ value.HasRefusedSet) ∧
      ∀ wire, value.encode = .ok wire →
        wire.decode = value ∧ wire.wireType = value.wireType) ∧
    ∀ item : Item,
      ((∃ cause, item.encode = .error cause) ↔
        ∃ name value, item.get? name = some value ∧ Value.HasRefusedSet value) ∧
      ∀ wire, item.encode = .ok wire →
        wire.decode = item ∧
        ∀ name, (item.get? name).map Value.encode = (wire.get? name).map .ok ∧
          (wire.get? name).map Attribute.wireType = (item.get? name).map Value.wireType := by
  constructor
  · intro value
    refine ⟨value.exists_encode_eq_error_iff, fun wire h => ?_⟩
    exact ⟨Value.decode_of_encode h, Value.wireType_of_encode h⟩
  · intro item
    refine ⟨item.exists_encode_eq_error_iff, fun wire h => ⟨Item.decode_of_encode h, ?_⟩⟩
    exact fun name => ⟨Item.get?_of_encode h name, Item.wireType_of_encode h name⟩

def nestedSets (members : List Number) : Value :=
  .map [("sets", .list [.leaf (.stringSet ["a"]), .leaf (.numberSet members)])]

/-- Numbers are told apart by their texts: a set may hold one number in two spellings. -/
theorem decode_undoes_encode_nestedSets :
    (∃ wire, (nestedSets [⟨"1"⟩, ⟨"1.0"⟩]).encode = .ok wire ∧
      wire.decode = nestedSets [⟨"1"⟩, ⟨"1.0"⟩] ∧ wire.wireType = .map) ∧
    ∃ cause, (nestedSets [⟨"1"⟩, ⟨"1"⟩]).encode = .error cause := by
  constructor
  · obtain ⟨wire, h⟩ : ∃ wire, (nestedSets [⟨"1"⟩, ⟨"1.0"⟩]).encode = .ok wire := ⟨_, rfl⟩
    exact ⟨wire, h, (decode_undoes_encode.1 _).2 wire h⟩
  · have hset : Document.Holds (.numberSet [⟨"1"⟩, ⟨"1"⟩]) (nestedSets [⟨"1"⟩, ⟨"1"⟩]) :=
      .map List.mem_cons_self <| .list (List.mem_cons_of_mem _ List.mem_cons_self) .leaf
    refine (decode_undoes_encode.1 _).1.2 ⟨_, hset, Or.inr ?_⟩
    decide

end AttributeStore
