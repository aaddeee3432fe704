import AttributeStore.Fragment
import AttributeStore.Proofs.Named
import AttributeStore.Proofs.Store.Words

/-!
# Placeholders of fragments

A checked name behind letters is one word of an expression. Fragments joined in order hold the
placeholders of all of them.
-/

namespace AttributeStore

open Store (IsWord IsWordChar expressionWords)

theorem isWordChar_of_range {c : Char} (hlow : 48 ≤ c.toNat) (hhigh : c.toNat ≤ 122) :
    IsWordChar c := by
  refine ⟨?_, ?_, ?_⟩
  · simp only [Text.isBlank, Text.blankRanges, List.any_cons, List.any_nil, Bool.or_false,
      Bool.or_eq_false_iff, Bool.and_eq_false_iff, decide_eq_false_iff_not]
    omega
  · rintro rfl
    revert hlow
    decide
  · rintro rfl
    revert hlow
    decide

theorem isAlphanum_iff {c : Char} :
    c.isAlphanum = true ↔
      (65 ≤ c.toNat ∧ c.toNat ≤ 90 ∨ 97 ≤ c.toNat ∧ c.toNat ≤ 122) ∨
        48 ≤ c.toNat ∧ c.toNat ≤ 57 := by
  change ((decide (c.val ≥ 65 ∧ c.val ≤ 90) || (c.val ≥ 97 && c.val ≤ 122)) ||
    (c.val ≥ 48 && c.val ≤ 57)) = true ↔ _
  simp [UInt32.le_iff_toNat_le]

theorem range_of_checked {name : String} (h : checkAttributeName name = .ok ()) :
    ∀ c ∈ name.toList, 48 ≤ c.toNat ∧ c.toNat ≤ 122 := by
  unfold checkAttributeName at h
  split at h
  · cases h
  · rename_i hn
    intro c hc
    simp only [Bool.or_eq_true, Bool.not_eq_true', not_or, Bool.not_eq_false,
      List.all_eq_true, decide_eq_true_eq] at hn
    rcases hn.2 c hc with halpha | rfl
    · have hcases := isAlphanum_iff.1 halpha
      omega
    · decide

theorem isWordChar_of_checked {name : String} (h : checkAttributeName name = .ok ()) :
    ∀ c ∈ name.toList, IsWordChar c := by
  intro c hc
  obtain ⟨hlow, hhigh⟩ := range_of_checked h c hc
  exact isWordChar_of_range hlow hhigh

theorem isWord_append {letters name : String} (hl : IsWord letters)
    (hn : checkAttributeName name = .ok ()) : IsWord (letters ++ name) := by
  refine ⟨?_, ?_⟩
  · intro h
    exact hl.1 (String.append_eq_empty_iff.1 h).1
  · intro c hc
    rw [String.toList_append, List.mem_append] at hc
    rcases hc with hc | hc
    · exact hl.2 c hc
    · exact isWordChar_of_checked hn c hc

theorem text_ne_empty {text : String} (h : expressionWords text ≠ []) : text.isEmpty = false := by
  rw [String.isEmpty_eq_false_iff]
  rintro rfl
  exact h rfl

namespace Store.Placeholders

theorem name_of_get? {names : Named String} {word name : String}
    (hhead : word.toList.head? = some '#') (h : names.get? word = some name)
    (values : Option (Named Attribute)) :
    Placeholders.name ⟨names.present, values⟩ word = .ok name := by
  unfold Placeholders.name
  rw [if_pos hhead, Named.get?_present, h]

theorem value_of_get? {values : Named Attribute} {word : String} {encoded : Attribute}
    (h : values.get? word = some encoded) (names : Option (Named String)) :
    Placeholders.value ⟨names, values.present⟩ word = .ok encoded := by
  unfold Placeholders.value
  rw [Named.get?_present, h]

end Store.Placeholders

namespace Fragment

variable (operator : String)

theorem spans_foldl_join (fragments : List Fragment) {before : Fragment}
    {pairs : String → String → Prop} {operands : String → Attribute → Prop}
    (hn : before.names.Spans pairs) (hv : before.values.Spans operands) :
    let result := fragments.foldl (fun before fragment => before.join operator fragment) before
    (result.names.Spans fun key name =>
        pairs key name ∨ ∃ fragment ∈ fragments, fragment.names.get? key = some name) ∧
      result.values.Spans fun key value =>
        operands key value ∨ ∃ fragment ∈ fragments, fragment.values.get? key = some value := by
  induction fragments generalizing before pairs operands with
  | nil => exact ⟨hn.congr (by simp), hv.congr (by simp)⟩
  | cons first rest ih =>
    have hnames := hn.union first.names.spans_self
    have hvalues := hv.union first.values.spans_self
    have hjoined : (before.join operator first).names.Spans _ := hnames
    obtain ⟨h, h'⟩ := ih hjoined hvalues
    refine ⟨h.congr ?_, h'.congr ?_⟩
    · intro key name
      simp [or_assoc]
    · intro key value
      simp [or_assoc]

/-- Joined fragments hold what each of them holds. -/
theorem spans_joinAll (fragments : List Fragment) :
    ((joinAll operator fragments).names.Spans fun key name =>
        ∃ fragment ∈ fragments, fragment.names.get? key = some name) ∧
      (joinAll operator fragments).values.Spans fun key value =>
        ∃ fragment ∈ fragments, fragment.values.get? key = some value := by
  have hempty : empty.names.Spans fun _ _ => False := Named.Spans.empty
  obtain ⟨h, h'⟩ := spans_foldl_join operator fragments hempty Named.Spans.empty
  exact ⟨h.congr fun _ _ => iff_of_eq (false_or _), h'.congr fun _ _ => iff_of_eq (false_or _)⟩

end Fragment

end AttributeStore
