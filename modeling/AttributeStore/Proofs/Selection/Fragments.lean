import AttributeStore.Proofs.Fragment
import AttributeStore.Proofs.Selection.Evaluation
import AttributeStore.Proofs.Success

/-!
# What written conditions say

The fragment of joined conditions has their words for a text, and its placeholders stand for the
attributes and the encoded operands of the conditions, as long as the attributes have names that
may be part of a placeholder.
-/

namespace AttributeStore

open Store (IsWord expressionWords expressionWords_blank expressionWords_word)

theorem Comparator.isWord_symbol (comparator : Comparator) : IsWord comparator.symbol := by
  cases comparator <;> decide

namespace Condition

variable {condition : Condition} {declared : Option WireType} {fragment : Fragment}

theorem isWord_placeholders (hn : checkAttributeName condition.name = .ok ()) :
    IsWord condition.namePlaceholder ∧ IsWord condition.valuePlaceholder ∧
      IsWord condition.upperPlaceholder := by
  unfold namePlaceholder valuePlaceholder upperPlaceholder
  refine ⟨isWord_append ?_ hn, isWord_append ?_ hn, isWord_append ?_ hn⟩
  · cases condition.role <;> decide
  · cases condition.role <;> decide
  · cases condition.role <;> decide

/-- What a condition says of its placeholders: an operand is what its value encodes to. -/
def Encodes (declared : Option WireType) (condition : Condition) (key : String)
    (encoded : Attribute) : Prop :=
  ∃ value, (key, value) ∈ condition.places ∧ value.encodeWith declared = .ok encoded

theorem fragment_spec (h : condition.fragment declared = .ok fragment)
    (hn : checkAttributeName condition.name = .ok ()) :
    expressionWords fragment.text = condition.words ∧
      fragment.names = Named.singleton condition.namePlaceholder condition.name ∧
      fragment.values.Spans (condition.Encodes declared) ∧
      ∀ place ∈ condition.places, ∃ encoded, place.2.encodeWith declared = .ok encoded := by
  obtain ⟨hname, hvalue, hupper⟩ := isWord_placeholders hn
  unfold Condition.fragment at h
  unfold words Encodes places
  cases hc : condition.comparison with
  | compare comparator operand =>
    rw [hc] at h
    simp only [bind_eq_ok, pure_eq_ok] at h
    obtain ⟨encoded, hencoded, rfl⟩ := h
    refine ⟨?_, rfl, ?_, ?_⟩
    · rw [expressionWords_blank, expressionWords_blank, expressionWords_word hname,
        expressionWords_word comparator.isWord_symbol, expressionWords_word hvalue]
      rfl
    · refine (Named.Spans.empty.insert _ _).congr ?_
      intro key value
      simp [hencoded, and_assoc, eq_comm (a := encoded)]
    · simp [hencoded]
  | between lower upper =>
    rw [hc] at h
    simp only [bind_eq_ok, pure_eq_ok] at h
    obtain ⟨low, hlow, high, hhigh, rfl⟩ := h
    refine ⟨?_, rfl, ?_, ?_⟩
    · have hbetween : " BETWEEN " = " " ++ "BETWEEN" ++ " " := rfl
      have hand : " AND " = " " ++ "AND" ++ " " := rfl
      have hbetweenWord : IsWord "BETWEEN" := by decide
      have handWord : IsWord "AND" := by decide
      rw [hbetween, hand]
      simp only [← String.append_assoc]
      rw [expressionWords_blank, expressionWords_blank, expressionWords_blank,
        expressionWords_blank, expressionWords_word hname, expressionWords_word hvalue,
        expressionWords_word hupper, expressionWords_word hbetweenWord,
        expressionWords_word handWord]
      rfl
    · refine ((Named.Spans.empty.insert _ _).insert _ _).congr ?_
      intro key value
      simp [or_and_right, exists_or, and_assoc, hlow, hhigh, eq_comm (a := low),
        eq_comm (a := high)]
    · simp [hlow, hhigh]

end Condition

/-! ## Joined conditions -/

theorem Condition.allWords_append (conditions : List Condition) (condition : Condition) :
    Condition.allWords (conditions ++ [condition]) =
      if conditions.isEmpty then condition.words
      else Condition.allWords conditions ++ condition.connective.word :: condition.words := by
  cases conditions with
  | nil => simp [Condition.allWords, Condition.joinedWords]
  | cons first rest => simp [Condition.allWords, Condition.joinedWords]

theorem Condition.words_ne_nil (condition : Condition) : condition.words ≠ [] := by
  unfold Condition.words
  cases condition.comparison <;> simp

theorem expressionWords_connective (connective : Connective) (left right : String) :
    expressionWords (left ++ connective.text ++ right) =
      expressionWords left ++ connective.word :: expressionWords right := by
  have htext : connective.text = " " ++ connective.word ++ " " := by
    cases connective <;> rfl
  have hword : IsWord connective.word := by
    cases connective <;> decide
  rw [htext]
  simp only [← String.append_assoc]
  rw [expressionWords_blank, expressionWords_blank, expressionWords_word hword,
    List.append_assoc, List.singleton_append]

/-- A fragment that writes joined conditions: it has their words, it is empty when there are none,
and its placeholders stand for their attributes and operands. -/
structure Writes (attributes : Catalog) (conditions : List Condition)
    (fragment : Fragment) : Prop where
  words : expressionWords fragment.text = Condition.allWords conditions
  isEmpty : fragment.isEmpty = conditions.isEmpty
  names : fragment.names.Spans fun key name =>
    ∃ condition ∈ conditions, key = condition.namePlaceholder ∧ name = condition.name
  values : fragment.values.Spans fun key encoded =>
    ∃ condition ∈ conditions, condition.Encodes (attributes.declared condition.name) key encoded
  encoded : ∀ condition ∈ conditions, ∀ place ∈ condition.places, ∃ encoded,
    place.2.encodeWith (attributes.declared condition.name) = .ok encoded

theorem Writes.empty (attributes : Catalog) : Writes attributes [] Fragment.empty where
  words := rfl
  isEmpty := rfl
  names := Named.Spans.empty.congr fun _ _ => by simp
  values := Named.Spans.empty.congr fun _ _ => by simp
  encoded := fun _ hc => (List.not_mem_nil hc).elim

theorem Writes.append {attributes : Catalog} {conditions : List Condition} {before : Fragment}
    (h : Writes attributes conditions before) {condition : Condition} {fragment : Fragment}
    (hf : condition.fragment (attributes.declared condition.name) = .ok fragment)
    (hn : checkAttributeName condition.name = .ok ()) :
    Writes attributes (conditions ++ [condition])
      (before.join condition.connective.text fragment) := by
  obtain ⟨hwords, hnames, hvalues, hencoded⟩ := Condition.fragment_spec hf hn
  have hfragment : fragment.text.isEmpty = false :=
    text_ne_empty (hwords ▸ condition.words_ne_nil)
  have hbefore : before.text.isEmpty = conditions.isEmpty := h.isEmpty
  have htext : expressionWords (joinText condition.connective.text before.text fragment.text) =
      Condition.allWords (conditions ++ [condition]) := by
    unfold joinText
    rw [hbefore, Condition.allWords_append, hfragment]
    split
    · exact hwords
    · rw [if_neg (by simp), expressionWords_connective, h.words, hwords]
  refine ⟨htext, ?_, ?_, ?_, ?_⟩
  · have hne : Condition.allWords (conditions ++ [condition]) ≠ [] := by
      rw [Condition.allWords_append]
      split
      · exact condition.words_ne_nil
      · simp
    rw [Fragment.isEmpty, Fragment.join, text_ne_empty (htext ▸ hne)]
    simp
  · rw [Fragment.join, hnames]
    refine (h.names.union (Named.Spans.empty.insert _ _)).congr ?_
    intro key name
    simp [or_and_right, exists_or]
  · refine (h.values.union hvalues).congr ?_
    intro key encoded
    simp [or_and_right, exists_or]
  · intro member hm
    rcases List.mem_append.1 hm with hm | hm
    · exact h.encoded member hm
    · obtain rfl := List.mem_singleton.1 hm
      exact hencoded

def joinCondition (attributes : Catalog) (before : Fragment) (condition : Condition) :
    Except CodecError Fragment := do
  return before.join condition.connective.text
    (← condition.fragment (attributes.declared condition.name))

theorem conditionsFragment_eq (attributes : Catalog) (conditions : List Condition) :
    conditionsFragment attributes conditions =
      conditions.foldlM (joinCondition attributes) Fragment.empty :=
  rfl

theorem writes_foldlM {attributes : Catalog} {written conditions : List Condition}
    {before fragment : Fragment} (h : Writes attributes written before)
    (hn : ∀ condition ∈ conditions, checkAttributeName condition.name = .ok ())
    (hf : conditions.foldlM (joinCondition attributes) before = .ok fragment) :
    Writes attributes (written ++ conditions) fragment := by
  induction conditions generalizing written before with
  | nil =>
    obtain rfl : before = fragment := by simpa using hf
    simpa using h
  | cons condition rest ih =>
    simp only [List.foldlM_cons, joinCondition, bind_eq_ok, pure_eq_ok] at hf
    obtain ⟨joined, ⟨first, hfirst, rfl⟩, hrest⟩ := hf
    have hnext := h.append hfirst (hn condition List.mem_cons_self)
    rw [List.append_cons]
    exact ih hnext (fun c hc => hn c (List.mem_cons_of_mem _ hc)) hrest

theorem writes_conditionsFragment {attributes : Catalog} {conditions : List Condition}
    {fragment : Fragment}
    (hn : ∀ condition ∈ conditions, checkAttributeName condition.name = .ok ())
    (hf : conditionsFragment attributes conditions = .ok fragment) :
    Writes attributes conditions fragment := by
  rw [conditionsFragment_eq] at hf
  have h := writes_foldlM (Writes.empty attributes) hn hf
  rwa [List.nil_append] at h

end AttributeStore
