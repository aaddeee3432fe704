import AttributeStore.Proofs.Decimal.Value
import AttributeStore.Proofs.Encoding
import AttributeStore.Proofs.Table.BatchPut

/-!
# Numbers told apart by their texts

The members of a set have to be distinct, and so have the keys of a batch. Both are told apart by
the texts of their numbers, and a number has many texts. That makes no difference as long as each
number is spelled in one way, as integers are; two spellings of one number pass for two.
-/

namespace AttributeStore

open Decimal (SameNumber SpelledOnce)

/-- The atom is a set that is empty or has two equal members, numbers being equal by value. -/
def Atom.IsRefusedByValue : Atom → Prop
  | .numberSet members =>
    members = [] ∨ ¬ members.Pairwise fun left right => ¬ SameNumber left.text right.text
  | atom => atom.IsRefusedSet

/-- The number sets of a value are written in some texts. -/
def Value.SetsIn (texts : Set String) (value : Value) : Prop :=
  ∀ members, Document.Holds (.numberSet members) value → ∀ number ∈ members, number.text ∈ texts

/-- Attributes that are equal, numbers by value. -/
inductive Attribute.SameByValue : Attribute → Attribute → Prop
  | refl (held : Attribute) : SameByValue held held
  | number {left right : String} (h : SameNumber left right) :
    SameByValue (.leaf (.number left)) (.leaf (.number right))

namespace TableSchema

/-- Items with one key, numbers being equal by value. -/
def SameKey (schema : TableSchema) (item other : WireItem) : Prop :=
  ∀ definition ∈ schema.keyDefinitions,
    Option.Rel Attribute.SameByValue (item.get? definition.name) (other.get? definition.name)

/-- The numbers of the key of an item are written in some texts. -/
def KeyIn (schema : TableSchema) (texts : Set String) (item : WireItem) : Prop :=
  ∀ definition ∈ schema.keyDefinitions, ∀ text,
    item.get? definition.name = some (.leaf (.number text)) → text ∈ texts

end TableSchema

/-! ## One spelling for each number -/

section

variable {texts : Set String}

/-- Among decimal texts that spell each number once, sets are refused by value. -/
theorem Atom.isRefusedByValue_iff (hd : ∀ text ∈ texts, Decimal.isDecimal text = true)
    (h : SpelledOnce texts) {atom : Atom}
    (ht : ∀ members, atom = .numberSet members → ∀ number ∈ members, number.text ∈ texts) :
    atom.IsRefusedByValue ↔ atom.IsRefusedSet := by
  cases atom with
  | numberSet members =>
    refine or_congr_right (not_congr ?_)
    rw [List.Nodup]
    refine List.Pairwise.iff_of_mem fun {left right} hl hr => not_congr ?_
    have hleft := ht members rfl left hl
    constructor
    · intro hsame
      exact congrArg Number.mk (h _ hleft _ (ht members rfl right hr) hsame)
    · rintro rfl
      exact .refl (hd _ hleft)
  | _ => exact Iff.rfl

theorem TableSchema.keyPart_eq_of_sameKey (h : SpelledOnce texts) {schema : TableSchema}
    {item other : WireItem} (hi : schema.KeyIn texts item) (ho : schema.KeyIn texts other)
    (hs : schema.SameKey item other) :
    keyPart schema.keyDefinitions item = keyPart schema.keyDefinitions other := by
  ext name : 1
  rw [get?_keyPart, get?_keyPart]
  split
  · rename_i hname
    obtain ⟨definition, hm, rfl⟩ := List.mem_map.1 hname
    have hitem := hi definition hm
    have hother := ho definition hm
    have hsame := hs definition hm
    generalize item.get? definition.name = held at hitem hsame ⊢
    generalize other.get? definition.name = held' at hother hsame ⊢
    cases hsame with
    | none => rfl
    | some hsame =>
      cases hsame with
      | refl held => rfl
      | number hnumber => rw [h _ (hitem _ rfl) _ (hother _ rfl) hnumber]
  · rfl

/-- Two spellings make a set that is not refused. -/
theorem Value.exists_encode_of_ne {left right : String} (h : left ≠ right) :
    ∃ wire, Value.encode (.leaf (.numberSet [⟨left⟩, ⟨right⟩])) = .ok wire := by
  by_contra hnone
  obtain ⟨atom, hholds, hrefused⟩ :=
    (exists_encode_eq_error_iff _).1 (exists_eq_error_iff.2 hnone)
  obtain rfl := Document.holds_leaf_iff.1 hholds
  simp [Atom.IsRefusedSet, h] at hrefused

end

namespace Table

/-- Some decimal texts spell each number once exactly if what is written in them is told apart by
value: encoding refuses the values with a set that has two equal members, and no batch that is sent
has two entries with equal keys. -/
theorem told_by_value_iff_spelledOnce {texts : Set String}
    (hd : ∀ text ∈ texts, Decimal.isDecimal text = true) :
    SpelledOnce texts ↔
      (∀ value : Value, value.SetsIn texts →
        ((∃ cause, value.encode = .error cause) ↔
          ∃ atom, Document.Holds atom value ∧ atom.IsRefusedByValue)) ∧
      ∀ {σ : Type} (server : Backend σ) (table : Table) (state : σ),
        (∀ entry ∈ table.spool, table.schema.KeyIn texts entry.item) →
        callsOf (table.batchPut.run server state).trace =
          table.batches.map (batchCall table.fullName) ∧
        ∀ batch ∈ table.batches,
          batch.Pairwise fun left right => ¬ table.schema.SameKey left.item right.item := by
  constructor
  · intro h
    constructor
    · intro value ht
      rw [Value.exists_encode_eq_error_iff]
      refine exists_congr fun atom => and_congr_right fun hholds => ?_
      refine (Atom.isRefusedByValue_iff hd h ?_).symm
      rintro members rfl
      exact ht members hholds
    · intro σ server table state ht
      refine ⟨(table.run_batchPut server state).2, fun batch hbatch => ?_⟩
      have hmem : ∀ entry ∈ batch, entry ∈ table.spool ∧
          HasKey table.schema.keyDefinitions entry.item := by
        intro entry hentry
        have haccepted := List.mem_flatten_of_mem hbatch hentry
        refine ⟨?_, (table.of_mem_batches haccepted).2⟩
        rw [flatten_batches] at haccepted
        exact (Screening.accepted_sublist 0 [] table.spool).mem haccepted
      have hkeys := Screening.keys_nodup hbatch
      rw [List.Nodup, List.pairwise_map] at hkeys
      refine hkeys.imp_of_mem fun {left right} hl hr hne hsame => hne ?_
      obtain ⟨hleft, hkeyed⟩ := hmem left hl
      obtain ⟨hright, hkeyed'⟩ := hmem right hr
      rw [TableSchema.keyOf_of_hasKey hkeyed, TableSchema.keyOf_of_hasKey hkeyed',
        TableSchema.keyPart_eq_of_sameKey h (ht left hleft) (ht right hright) hsame]
  · rintro ⟨hsets, -⟩ left hl right hr hsame
    by_contra hne
    -- The two spellings pass for two members, but are one by value.
    obtain ⟨wire, hwire⟩ := Value.exists_encode_of_ne hne
    have hin : Value.SetsIn texts (.leaf (.numberSet [⟨left⟩, ⟨right⟩])) := by
      intro members hholds
      obtain rfl := Atom.numberSet.inj (Document.holds_leaf_iff.1 hholds)
      simp [hl, hr]
    obtain ⟨cause, hcause⟩ := (hsets _ hin).2
      ⟨_, .leaf, .inr (by simpa [List.pairwise_cons] using hsame)⟩
    rw [hwire] at hcause
    cases hcause

def things : TableSchema :=
  .withHashKey "things" ⟨"id", .number⟩

def thing (text : String) : Entry :=
  ⟨Named.singleton "id" (.leaf (.number text)), ∅⟩

def thingsTable (texts : List String) : Table :=
  { namePrefix := "dev_", schema := things, spool := texts.map thing }

theorem told_by_value_iff_spelledOnce_integers :
    (∀ text ∈ Set.range Decimal.integerText, Decimal.isDecimal text = true) ∧
    (∃ cause, (nestedSets ([7, -1, 7].map Number.ofInt)).encode = .error cause) ∧
    ∀ batch ∈ (thingsTable ([7, -1, 7].map Decimal.integerText)).batches,
      batch.Pairwise fun left right => ¬ things.SameKey left.item right.item := by
  have hd : ∀ text ∈ Set.range Decimal.integerText, Decimal.isDecimal text = true := by
    rintro _ ⟨value, rfl⟩
    exact Decimal.isDecimal_integerText value
  obtain ⟨hsets, hbatches⟩ :=
    (told_by_value_iff_spelledOnce hd).1 Decimal.spelledOnce_integerText
  refine ⟨hd, (hsets _ ?_).2 ⟨.numberSet ([7, -1, 7].map Number.ofInt), ?_, .inr ?_⟩,
    (hbatches Store.backend _ {} ?_).2⟩
  · intro members hholds number hnumber
    have hmembers : [7, -1, 7].map Number.ofInt = members := by
      simpa [nestedSets, Document.holds_map_iff, Document.holds_list_iff,
        Document.holds_leaf_iff] using hholds
    rw [← hmembers] at hnumber
    obtain ⟨value, -, rfl⟩ := List.mem_map.1 hnumber
    exact ⟨value, rfl⟩
  · exact .map List.mem_cons_self <| .list (List.mem_cons_of_mem _ List.mem_cons_self) .leaf
  · intro hdistinct
    refine List.rel_of_pairwise_cons hdistinct ?_ (.refl (Decimal.isDecimal_integerText 7))
    exact List.mem_cons_of_mem _ List.mem_cons_self
  · intro entry hm definition hdefinition text htext
    obtain ⟨spelling, hspelling, rfl⟩ := List.mem_map.1 hm
    obtain ⟨value, -, rfl⟩ := List.mem_map.1 hspelling
    obtain rfl := List.mem_singleton.1 hdefinition
    have hheld : (thing (Decimal.integerText value)).item.get? "id" =
        some (.leaf (.number text)) := htext
    exact ⟨value, by simpa [thing, Named.get?_singleton] using hheld⟩

/-- One is spelled in two ways, and both are taken: as members of one set, and as keys in one
batch. -/
theorem two_spellings_of_one_pass :
    SameNumber "1" "1.0" ∧
    Value.encode (.leaf (.numberSet [⟨"1"⟩, ⟨"1.0"⟩])) = .ok (.leaf (.numberSet ["1", "1.0"])) ∧
    things.SameKey (thing "1").item (thing "1.0").item ∧
    callsOf ((thingsTable ["1", "1.0"]).batchPut.run Store.backend
      ((create "dev_" things).run Store.backend {}).state).trace =
        [batchCall "dev_things" [thing "1", thing "1.0"]] := by
  have hsame : SameNumber "1" "1.0" := ⟨1, by decide +kernel, by decide +kernel⟩
  refine ⟨hsame, rfl, ?_, ?_⟩
  · intro definition hm
    obtain rfl := List.mem_singleton.1 hm
    exact .some (.number hsame)
  · have hbatches : (thingsTable ["1", "1.0"]).batches = [[thing "1", thing "1.0"]] := by
      decide +kernel
    rw [(run_batchPut _ _ _).2, hbatches]
    rfl

end Table

end AttributeStore
