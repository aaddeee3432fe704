import AttributeStore.Proofs.Encoding
import Mathlib.Data.List.Nodup

/-!
# Attributes there and back

Decoding takes every attribute and forgets little of it: the flag of a null, and what an attribute
of an unknown kind was. Encoding again therefore gives the attribute in a settled form, in which
both are a plain null, unless the store would refuse some set in it. Continuation keys, records and
entries that are staged once more all go this way.
-/

namespace AttributeStore

namespace WireAtom

/-- The atom with a plain null in the place of every null and of what is not known. -/
def settled : WireAtom → WireAtom
  | null _ | unknown => null true
  | atom => atom

/-- The atom is a set that is empty or has two equal members. -/
def IsRefusedSet : WireAtom → Prop
  | stringSet members => members = [] ∨ ¬ members.Nodup
  | numberSet members => members = [] ∨ ¬ members.Nodup
  | binarySet members => members = [] ∨ ¬ members.Nodup
  | _ => False

theorem isRefusedSet_decode (atom : WireAtom) : atom.decode.IsRefusedSet ↔ atom.IsRefusedSet := by
  cases atom with
  | numberSet members =>
    have hinj : Function.Injective Number.mk := fun _ _ h => congrArg Number.text h
    simp only [decode, Atom.IsRefusedSet, IsRefusedSet, List.map_eq_nil_iff,
      List.nodup_map_iff hinj]
  | _ => exact Iff.rfl

/-- An atom comes back settled. -/
theorem eq_settled_of_encode {atom result : WireAtom} (h : atom.decode.encode = .ok result) :
    result = atom.settled := by
  cases atom with
  | stringSet members =>
    simp only [decode, Atom.encode, bind_eq_ok, pure_eq_ok] at h
    obtain ⟨_, -, rfl⟩ := h
    rfl
  | numberSet members =>
    simp only [decode, Atom.encode, bind_eq_ok, pure_eq_ok] at h
    obtain ⟨_, -, rfl⟩ := h
    change WireAtom.numberSet _ = .numberSet members
    rw [List.map_map]
    congr 1
    exact List.map_id members
  | binarySet members =>
    simp only [decode, Atom.encode, bind_eq_ok, pure_eq_ok] at h
    obtain ⟨_, -, rfl⟩ := h
    rfl
  | _ => exact (Except.ok.inj h).symm

end WireAtom

namespace Attribute

/-- The attribute with a plain null in the place of every null and of what is not known, however
deep; all else stays as it is. -/
def settled (wire : Attribute) : Attribute :=
  wire.mapLeaves WireAtom.settled

/-- Some set in the attribute, at whatever depth, is empty or has two equal members. -/
def HasRefusedSet (wire : Attribute) : Prop :=
  ∃ atom, Document.Holds atom wire ∧ atom.IsRefusedSet

theorem encode_decode_eq (wire : Attribute) :
    wire.decode.encode = wire.traverse fun atom => atom.decode.encode :=
  Document.traverse_mapLeaves _ _ wire

theorem exists_encode_decode_eq_error_iff (wire : Attribute) :
    (∃ cause, wire.decode.encode = .error cause) ↔ wire.HasRefusedSet := by
  unfold HasRefusedSet
  simp only [encode_decode_eq, exists_eq_error_iff, Document.exists_traverse_eq_ok_iff,
    Atom.exists_encode_eq_ok_iff, WireAtom.isRefusedSet_decode, Classical.not_forall,
    Classical.not_not, exists_prop]

theorem eq_settled_of_encode {wire result : Attribute} (h : wire.decode.encode = .ok result) :
    result = wire.settled := by
  rw [encode_decode_eq] at h
  exact Document.eq_mapLeaves_of_traverse (fun _ _ => WireAtom.eq_settled_of_encode) h

theorem encode_decode_eq_ok_iff (wire result : Attribute) :
    wire.decode.encode = .ok result ↔ ¬ wire.HasRefusedSet ∧ result = wire.settled :=
  eq_ok_iff_of_unique wire.exists_encode_decode_eq_error_iff (fun _ => eq_settled_of_encode) result

end Attribute

namespace WireItem

def settled (item : WireItem) : WireItem :=
  item.mapLeaves WireAtom.settled

theorem get?_settled (item : WireItem) (name : String) :
    item.settled.get? name = (item.get? name).map Attribute.settled :=
  Named.get?_map _ item name

theorem get?_decode (item : WireItem) (name : String) :
    item.decode.get? name = (item.get? name).map Attribute.decode :=
  Named.get?_map _ item name

theorem exists_encode_decode_eq_error_iff (item : WireItem) :
    (∃ cause, item.decode.encode = .error cause) ↔
      ∃ name held, item.get? name = some held ∧ Attribute.HasRefusedSet held := by
  rw [Item.exists_encode_eq_error_iff]
  simp only [← Value.exists_encode_eq_error_iff, get?_decode, Option.map_eq_some_iff,
    ← Attribute.exists_encode_decode_eq_error_iff]
  constructor
  · rintro ⟨name, _, ⟨held, hheld, rfl⟩, hrefused⟩
    exact ⟨name, held, hheld, hrefused⟩
  · rintro ⟨name, held, hheld, hrefused⟩
    exact ⟨name, _, ⟨held, hheld, rfl⟩, hrefused⟩

theorem eq_settled_of_encode {item result : WireItem} (h : item.decode.encode = .ok result) :
    result = item.settled := by
  ext name : 1
  have hname := Item.get?_of_encode h name
  rw [get?_decode, Option.map_map] at hname
  rw [get?_settled]
  cases hitem : item.get? name with
  | none =>
    rw [hitem, Option.map_none, eq_comm, Option.map_eq_none_iff] at hname
    rw [hname, Option.map_none]
  | some held =>
    rw [hitem, Option.map_some, eq_comm, Option.map_eq_some_iff] at hname
    obtain ⟨given, hgiven, hencode⟩ := hname
    rw [hgiven, Option.map_some, Attribute.eq_settled_of_encode hencode.symm]

theorem encode_decode_eq_ok_iff (item result : WireItem) :
    item.decode.encode = .ok result ↔
      (¬ ∃ name held, item.get? name = some held ∧ Attribute.HasRefusedSet held) ∧
        result = item.settled :=
  eq_ok_iff_of_unique item.exists_encode_decode_eq_error_iff (fun _ => eq_settled_of_encode) result

end WireItem

/-- Decoding and encoding again fails for nothing but sets that the store refuses, and otherwise
settles the nulls of an attribute and leaves all else as it was; the same holds of items. -/
theorem encode_settles_decoded :
    (∀ wire : Attribute,
      ((∃ cause, wire.decode.encode = .error cause) ↔ wire.HasRefusedSet) ∧
      ∀ result, wire.decode.encode = .ok result ↔
        ¬ wire.HasRefusedSet ∧ result = wire.settled) ∧
    ∀ item : WireItem,
      ((∃ cause, item.decode.encode = .error cause) ↔
        ∃ name held, item.get? name = some held ∧ Attribute.HasRefusedSet held) ∧
      ∀ result, item.decode.encode = .ok result ↔
        (¬ ∃ name held, item.get? name = some held ∧ Attribute.HasRefusedSet held) ∧
          result = item.settled := by
  constructor
  · intro wire
    exact ⟨wire.exists_encode_decode_eq_error_iff, wire.encode_decode_eq_ok_iff⟩
  · intro item
    exact ⟨item.exists_encode_decode_eq_error_iff, item.encode_decode_eq_ok_iff⟩

/-- A null without its flag and an attribute of an unknown kind, inside a list and a map. -/
example :
    Attribute.settled
        (.map [("a", .list [.leaf (.null false), .leaf (.number "1.0")]), ("b", .leaf .unknown)]) =
      .map [("a", .list [.leaf (.null true), .leaf (.number "1.0")]), ("b", .leaf (.null true))] :=
  rfl

end AttributeStore
