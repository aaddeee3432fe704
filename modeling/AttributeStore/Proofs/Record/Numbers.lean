import AttributeStore.Proofs.Decimal.Text
import AttributeStore.Proofs.Record.Leaves
import AttributeStore.Table

/-!
# The numbers of a record

The direct conversion of a floating number refuses infinities and what is no number. A record that
holds such a number is not refused: its text is carried into the value, the item or the staged
entry, where no other text than these can fail the check that numbers of callers go through.
-/

namespace AttributeStore

namespace Number

open Decimal (Format Binary)

/-- The direct conversion is the check of the text. -/
theorem ofBinary?_eq_ofText? {format : Format} (hformat : 0 < format.infinity) (x : Binary) :
    ofBinary? format x = ofText? (x.text format) := by
  unfold ofBinary? ofText?
  simp only [Binary.isDecimal_text_iff hformat]

theorem ofText?_integerText (value : Int) :
    ofText? (Decimal.integerText value) = some (ofInt value) :=
  if_pos (Decimal.isDecimal_integerText value)

end Number

def Atom.numbers : Atom → List Number
  | number held => [held]
  | numberSet members => members
  | _ => []

/-- An atom holds a text as a number that would not be accepted as one. -/
def Atom.HoldsRefused (atom : Atom) (text : String) : Prop :=
  ⟨text⟩ ∈ atom.numbers ∧ Number.ofText? text = none

theorem Atom.holdsRefused_number_iff (held text : String) :
    (Atom.number ⟨held⟩).HoldsRefused text ↔ held = text ∧ Number.ofText? held = none := by
  unfold HoldsRefused numbers
  rw [List.mem_singleton, Number.mk.injEq, eq_comm]
  exact and_congr_right fun h => by rw [h]

namespace Record

open Decimal (Format Binary nonFiniteTexts)

def float? : Record → Option (Format × Binary)
  | double value => some (.double, value)
  | single value => some (.single, value)
  | _ => none

/-- A record writes the text of a floating number that is infinite or no number. -/
def WritesNonFinite (record : Record) (text : String) : Prop :=
  ∃ part format x, record.Places part ∧ part.float? = some (format, x) ∧
    x.isFinite format = false ∧ x.text format = text

section

variable {part : Record} {format : Format} {x : Binary}

theorem infinity_pos_of_float? (h : part.float? = some (format, x)) : 0 < format.infinity := by
  cases part with
  | double value =>
    obtain ⟨rfl, -⟩ := Prod.mk.inj (Option.some.inj h)
    decide
  | single value =>
    obtain ⟨rfl, -⟩ := Prod.mk.inj (Option.some.inj h)
    decide
  | _ => cases h

theorem atom?_of_float? (h : part.float? = some (format, x)) :
    part.atom? = some (.number (x.text format)) := by
  cases part with
  | double value =>
    obtain ⟨rfl, rfl⟩ := Prod.mk.inj (Option.some.inj h)
    rfl
  | single value =>
    obtain ⟨rfl, rfl⟩ := Prod.mk.inj (Option.some.inj h)
    rfl
  | _ => cases h

theorem holdsRefused_float_iff (h : part.float? = some (format, x)) (text : String) :
    (WireAtom.number (x.text format)).decode.HoldsRefused text ↔
      x.isFinite format = false ∧ x.text format = text := by
  rw [WireAtom.decode, Atom.holdsRefused_number_iff,
    ← Number.ofBinary?_eq_ofText? (infinity_pos_of_float? h), Number.ofBinary?, and_comm]
  cases x.isFinite format <;> simp

theorem not_holdsRefused_of_atom? (h : part.float? = none) {atom : WireAtom}
    (hatom : part.atom? = some atom) (text : String) : ¬ atom.decode.HoldsRefused text := by
  cases part with
  | integer value =>
    obtain rfl := Option.some.inj hatom
    rw [WireAtom.decode, Atom.holdsRefused_number_iff, Number.ofText?_integerText]
    exact fun hrefused => nomatch hrefused.2
  | double | single => cases h
  | text | bool | nothing | bytes =>
    obtain rfl := Option.some.inj hatom
    exact fun hrefused => List.not_mem_nil hrefused.1
  | _ => cases hatom

end

theorem WritesNonFinite.mem_nonFiniteTexts {record : Record} {text : String}
    (h : record.WritesNonFinite text) : text ∈ nonFiniteTexts := by
  obtain ⟨part, format, x, -, hpart, hfinite, rfl⟩ := h
  exact Binary.text_mem_nonFiniteTexts (infinity_pos_of_float? hpart) hfinite

theorem exists_holdsRefused_iff {record : Record} {holds : WireAtom → Prop}
    (h : ∀ atom, holds atom ↔ record.Writes atom) (text : String) :
    (∃ atom, holds atom ∧ atom.decode.HoldsRefused text) ↔ record.WritesNonFinite text := by
  simp only [h]
  constructor
  · rintro ⟨atom, ⟨part, places, hatom⟩, hrefused⟩
    cases hfloat : part.float? with
    | none => exact absurd hrefused (not_holdsRefused_of_atom? hfloat hatom text)
    | some float =>
      obtain rfl := Option.some.inj (hatom.symm.trans (atom?_of_float? hfloat))
      exact ⟨part, _, _, places, hfloat, (holdsRefused_float_iff hfloat text).1 hrefused⟩
  · rintro ⟨part, format, x, places, hfloat, hx⟩
    exact ⟨_, ⟨part, places, atom?_of_float? hfloat⟩, (holdsRefused_float_iff hfloat text).2 hx⟩

/-- The numbers that a record carries past the check of numbers are its floating numbers that are
not finite, at whatever depth: all others, of the value, the item or the staged entry that it
becomes, are numbers that callers may give. -/
theorem refused_numbers_nonFinite (record : Record) :
    (∀ value, record.toValue = .ok value → ∀ text,
      (∃ atom, value.Holds atom ∧ atom.HoldsRefused text) ↔ record.WritesNonFinite text) ∧
    (∀ item, record.toItem = .ok item → ∀ text,
      (∃ atom, item.Holds atom ∧ atom.HoldsRefused text) ↔ record.WritesNonFinite text) ∧
    (∀ table staged, Table.addRecord table record = .ok staged →
      ∃ entry, staged = table.addEntry entry ∧ ∀ text,
        (∃ atom, entry.item.Holds atom ∧ atom.decode.HoldsRefused text) ↔
          record.WritesNonFinite text) ∧
    ∀ text, record.WritesNonFinite text → text ∈ nonFiniteTexts := by
  refine ⟨?_, ?_, ?_, fun _ => WritesNonFinite.mem_nonFiniteTexts⟩
  · intro value hvalue text
    simp only [toValue, bind_eq_ok, mapError_eq_ok, pure_eq_ok] at hvalue
    obtain ⟨written, hwritten, rfl⟩ := hvalue
    rw [← exists_holdsRefused_iff (holds_iff_writes hwritten)]
    simp only [Attribute.decode, Document.holds_mapLeaves_iff, exists_exists_and_eq_and]
  · intro item hitem text
    simp only [toItem, bind_eq_ok, mapError_eq_ok, pure_eq_ok] at hitem
    obtain ⟨written, hwritten, rfl⟩ := hitem
    rw [← exists_holdsRefused_iff (item_holds_iff_writes hwritten)]
    simp only [WireItem.decode, Named.holds_mapLeaves_iff, exists_exists_and_eq_and]
  · intro table staged hstaged
    simp only [Table.addRecord, bind_eq_ok, mapError_eq_ok, pure_eq_ok] at hstaged
    obtain ⟨written, hwritten, rfl⟩ := hstaged
    exact ⟨_, rfl, exists_holdsRefused_iff (item_holds_iff_writes hwritten)⟩

/-- A measurement that is no number. -/
def measured : Record :=
  .fields [("x", .double ⟨false, 0x7ff8000000000000⟩)]

def measuredItem : WireItem :=
  Named.singleton "x" (.leaf (.number "NaN"))

def measurements : Table :=
  { namePrefix := "dev_", schema := .withHashKey "measurements" ⟨"x", .number⟩ }

theorem refused_numbers_nonFinite_measured :
    (∃ atom, (Attribute.decode (.map measuredItem.entries)).Holds atom ∧
      atom.HoldsRefused "NaN") ∧
    (∃ atom, measuredItem.decode.Holds atom ∧ atom.HoldsRefused "NaN") ∧
    (∃ entry, measurements.addEntry { item := measuredItem } = measurements.addEntry entry ∧
      ∃ atom, entry.item.Holds atom ∧ atom.decode.HoldsRefused "NaN") ∧
    "NaN" ∈ nonFiniteTexts := by
  obtain ⟨hvalue, hitem, hstaged, htexts⟩ := refused_numbers_nonFinite measured
  have hwrites : measured.WritesNonFinite "NaN" :=
    ⟨.double ⟨false, 0x7ff8000000000000⟩, .double, _,
      @Places.fields [] [] "x" _ _ (fun _ h => (List.not_mem_nil h).elim) .self, rfl,
      by decide +kernel, by decide +kernel⟩
  refine ⟨(hvalue _ (by decide +kernel) _).2 hwrites, (hitem _ (by decide +kernel) _).2 hwrites, ?_,
    htexts _ hwrites⟩
  have hwire : measured.toWireItem = .ok measuredItem := by decide +kernel
  have hadded : measurements.addRecord measured =
      .ok (measurements.addEntry { item := measuredItem }) := by
    rw [Table.addRecord, hwire]
    rfl
  obtain ⟨entry, hentry, hnumbers⟩ := hstaged _ _ hadded
  exact ⟨entry, hentry, (hnumbers _).2 hwrites⟩

/-- The direct conversion refuses the number, and its text is none that a caller may give, but the
record becomes an item with that text. -/
theorem measured_item_not_accepted :
    Number.ofBinary? .double ⟨false, 0x7ff8000000000000⟩ = none ∧
    Number.ofText? "NaN" = none ∧
    measured.toItem = .ok (Named.singleton "x" (.leaf (.number ⟨"NaN"⟩))) := by
  decide +kernel

end Record

end AttributeStore
