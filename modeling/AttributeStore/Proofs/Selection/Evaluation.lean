import AttributeStore.Proofs.Selection.Meaning
import AttributeStore.Proofs.Store.Grammar

/-!
# Evaluating written conditions

The words of a condition, and what the store's evaluator makes of them where the placeholders
resolve to the attribute and the encoded operands. A condition is a formula over its placeholders,
so that read in the middle of an expression it adds its truth to the result so far; joined
conditions add theirs one after the other, and what comes out at the end is the truth of one of
their alternatives.
-/

namespace AttributeStore

open Store (Placeholders Partial operand operator expressionWords)

def Connective.word : Connective → String
  | .and => "AND"
  | .or => "OR"

namespace Condition

def words (condition : Condition) : List String :=
  match condition.comparison with
  | .compare comparator _ =>
    [condition.namePlaceholder, comparator.symbol, condition.valuePlaceholder]
  | .between _ _ =>
    [condition.namePlaceholder, "BETWEEN", condition.valuePlaceholder, "AND",
      condition.upperPlaceholder]

/-- The words of conditions that follow another one. -/
def joinedWords (conditions : List Condition) : List String :=
  conditions.flatMap fun condition => condition.connective.word :: condition.words

def allWords : List Condition → List String
  | [] => []
  | condition :: rest => condition.words ++ joinedWords rest

/-- The operands with their placeholders. -/
def places (condition : Condition) : List (String × Value) :=
  match condition.comparison with
  | .compare _ operand => [(condition.valuePlaceholder, operand)]
  | .between lower upper =>
    [(condition.valuePlaceholder, lower), (condition.upperPlaceholder, upper)]

/-- The placeholders of a condition stand for its attribute and its encoded operands. -/
structure Resolves (placeholders : Placeholders) (attributes : Catalog)
    (condition : Condition) : Prop where
  name : placeholders.name condition.namePlaceholder = .ok condition.name
  operands : ∀ place ∈ condition.places, ∃ encoded,
    place.2.encodeWith (attributes.declared condition.name) = .ok encoded ∧
      placeholders.value place.1 = .ok encoded

end Condition

def Comparator.sign : Comparator → Store.Sign
  | equal => .equal
  | less => .less
  | lessOrEqual => .lessOrEqual
  | greater => .greater
  | greaterOrEqual => .greaterOrEqual

theorem Comparator.word_sign (comparator : Comparator) :
    comparator.sign.word = comparator.symbol := by
  cases comparator <;> rfl

theorem Comparator.accepts_sign (comparator : Comparator) (order : Option Ordering) :
    comparator.sign.accepts order = order.any comparator.accepts := by
  cases comparator <;> rcases order with _ | _ | _ | _ <;> rfl

theorem any_compare {found : Option Attribute} {declared : Option WireType} {operand : Value}
    {encoded : Attribute} (h : operand.encodeWith declared = .ok encoded)
    (comparator : Comparator) :
    (found.bind fun held => Store.compareAttributes? held encoded).any comparator.accepts =
      found.any fun held => comparator.holds declared held operand := by
  unfold Comparator.holds
  rw [h]
  cases found <;> rfl

section

variable {placeholders : Placeholders} {attributes : Catalog} {item : WireItem}
  {condition : Condition}

/-- A placeholder of an attribute is none of the words that an expression knows. -/
theorem namePlaceholder_head (condition : Condition) :
    condition.namePlaceholder.toList.head? = some '#' := by
  unfold Condition.namePlaceholder
  simp [String.toList_append]

theorem notMem_reserved {word : String} (h : word.toList.head? = some '#') :
    word ∉ Store.reserved := by
  have hmark : ∀ other ∈ Store.reserved, other.toList.head? ≠ some '#' := by decide
  exact fun hm => hmark word hm h

namespace Condition

def formula (condition : Condition) : Store.Formula :=
  match condition.comparison with
  | .compare comparator _ =>
    .compare condition.namePlaceholder comparator.sign condition.valuePlaceholder
  | .between _ _ =>
    .between condition.namePlaceholder condition.valuePlaceholder condition.upperPlaceholder

theorem printed_formula (condition : Condition) :
    Store.Printed .single condition.formula condition.words := by
  have hplain := notMem_reserved (namePlaceholder_head condition)
  unfold formula words
  cases condition.comparison with
  | compare comparator _ =>
    dsimp only
    rw [← comparator.word_sign]
    exact .compare hplain comparator.sign _
  | between _ _ => exact .between hplain _ _

theorem check_formula (h : condition.Resolves placeholders attributes) :
    condition.formula.check placeholders = .ok () := by
  obtain ⟨hname, hoperands⟩ := h
  unfold formula
  unfold places at hoperands
  cases hc : condition.comparison with
  | compare comparator value =>
    rw [hc] at hoperands
    obtain ⟨encoded, -, hvalue⟩ := hoperands _ List.mem_cons_self
    simp [Store.Formula.check, Store.Formula.places, Store.Place.check, hname, hvalue]
  | between lower upper =>
    rw [hc] at hoperands
    obtain ⟨low, -, hlow⟩ := hoperands _ List.mem_cons_self
    obtain ⟨high, -, hhigh⟩ := hoperands _ (List.mem_cons_of_mem _ List.mem_cons_self)
    simp [Store.Formula.check, Store.Formula.places, Store.Place.check, hname, hlow, hhigh]

/-- A condition and its formula have one meaning. -/
theorem holds_formula (h : condition.Resolves placeholders attributes) :
    condition.formula.holds placeholders item = condition.holds attributes item := by
  obtain ⟨hname, hoperands⟩ := h
  unfold formula holds
  unfold places at hoperands
  cases hc : condition.comparison with
  | compare comparator value =>
    rw [hc] at hoperands
    obtain ⟨encoded, hencoded, hvalue⟩ := hoperands _ List.mem_cons_self
    rw [Store.Formula.holds, Store.order?_of_ok hname hvalue, comparator.accepts_sign,
      any_compare hencoded]
    rfl
  | between lower upper =>
    rw [hc] at hoperands
    obtain ⟨low, hlow, hlowvalue⟩ := hoperands _ List.mem_cons_self
    obtain ⟨high, hhigh, hhighvalue⟩ := hoperands _ (List.mem_cons_of_mem _ List.mem_cons_self)
    rw [Store.Formula.holds, Store.order?_of_ok hname hlowvalue,
      Store.order?_of_ok hname hhighvalue]
    change (Comparator.greaterOrEqual.sign.accepts _ &&
      Comparator.lessOrEqual.sign.accepts _) = _
    rw [Comparator.accepts_sign, Comparator.accepts_sign, any_compare hlow, any_compare hhigh]
    cases item.get? condition.name <;> rfl

end Condition

/-- A condition adds its truth to the result so far. -/
theorem operand_words (h : condition.Resolves placeholders attributes)
    (waiting : List Partial) (result : Partial) (rest : List String) :
    operand placeholders item waiting result (condition.words ++ rest) =
      operator placeholders item waiting (result.and (condition.holds attributes item)) rest := by
  rw [condition.printed_formula.evaluates placeholders item waiting result rest,
    condition.check_formula h, condition.holds_formula h]
  rfl

/-! ## Joined conditions -/

variable (attributes item) in
/-- The result with the truth of one more condition, joined as it says. -/
def joinResult (result : Partial) (condition : Condition) : Partial :=
  match condition.connective with
  | .and => result.and (condition.holds attributes item)
  | .or => result.or.and (condition.holds attributes item)

theorem operator_joinedWords {conditions : List Condition}
    (h : ∀ condition ∈ conditions, condition.Resolves placeholders attributes)
    (waiting : List Partial) (result : Partial) (rest : List String) :
    operator placeholders item waiting result (Condition.joinedWords conditions ++ rest) =
      operator placeholders item waiting (conditions.foldl (joinResult attributes item) result)
        rest := by
  induction conditions generalizing result with
  | nil => rfl
  | cons condition others ih =>
    have hfirst := h condition List.mem_cons_self
    have hothers := fun c hc => h c (List.mem_cons_of_mem _ hc)
    rw [List.foldl_cons, ← ih hothers]
    unfold Condition.joinedWords joinResult
    rw [List.flatMap_cons, List.cons_append, List.cons_append, List.append_assoc]
    cases condition.connective with
    | and =>
      rw [Connective.word, operator, operand_words hfirst]
    | or =>
      rw [Connective.word, operator, operand_words hfirst]

/-- What joined conditions make of a result: it held before, or all of the alternative in progress
holds, or some alternative after it does. -/
theorem value_foldl_joinResult (conditions : List Condition) (result : Partial) :
    (conditions.foldl (joinResult attributes item) result).value =
      (result.before ||
        result.current &&
          (Condition.following conditions).1.all (Condition.holds attributes item) ||
        (Condition.following conditions).2.any fun group =>
          group.all (Condition.holds attributes item)) := by
  induction conditions generalizing result with
  | nil => simp [Condition.following, Partial.value]
  | cons condition rest ih =>
    rw [List.foldl_cons, ih]
    simp only [joinResult, Condition.following]
    cases condition.connective with
    | and => simp [Partial.and, Bool.and_assoc]
    | or => simp [Partial.and, Partial.or, Bool.or_assoc]

theorem foldl_joinResult_of_and {conditions : List Condition}
    (h : ∀ condition ∈ conditions, condition.connective = .and) (result : Partial) :
    conditions.foldl (joinResult attributes item) result =
      result.and (conditions.all (Condition.holds attributes item)) := by
  induction conditions generalizing result with
  | nil => simp [Partial.and]
  | cons condition rest ih =>
    rw [List.foldl_cons, ih fun c hc => h c (List.mem_cons_of_mem _ hc), joinResult,
      h condition List.mem_cons_self]
    simp [Partial.and, Bool.and_assoc]

/-- Joined conditions at the beginning of an expression or of a parenthesis, after a result that
they have to hold with. -/
theorem operand_allWords {first : Condition} {conditions : List Condition}
    (h : ∀ condition ∈ first :: conditions, condition.Resolves placeholders attributes)
    (waiting : List Partial) (result : Partial) (rest : List String) :
    operand placeholders item waiting result
        (Condition.allWords (first :: conditions) ++ rest) =
      operator placeholders item waiting
        (conditions.foldl (joinResult attributes item)
          (result.and (first.holds attributes item))) rest := by
  rw [Condition.allWords, List.append_assoc, operand_words (h first List.mem_cons_self),
    operator_joinedWords fun c hc => h c (List.mem_cons_of_mem _ hc)]

theorem value_foldl_allWords (first : Condition) (conditions : List Condition) :
    (conditions.foldl (joinResult attributes item)
      (Partial.and {} (first.holds attributes item))).value =
        Condition.joinedHold attributes item (first :: conditions) := by
  rw [value_foldl_joinResult]
  simp [Partial.and, Condition.joinedHold, Condition.alternatives]

theorem following_of_and {conditions : List Condition}
    (h : ∀ condition ∈ conditions, condition.connective = .and) :
    Condition.following conditions = (conditions, []) := by
  induction conditions with
  | nil => rfl
  | cons condition rest ih =>
    rw [Condition.following, ih fun c hc => h c (List.mem_cons_of_mem _ hc),
      h condition List.mem_cons_self]

theorem joinedHold_of_and {first : Condition} {conditions : List Condition}
    (h : ∀ condition ∈ conditions, condition.connective = .and) :
    Condition.joinedHold attributes item (first :: conditions) =
      (first :: conditions).all (Condition.holds attributes item) := by
  rw [Condition.joinedHold, Condition.alternatives, following_of_and h]
  simp

end

end AttributeStore
