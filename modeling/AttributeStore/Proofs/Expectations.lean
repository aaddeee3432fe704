import AttributeStore.Entry
import AttributeStore.Proofs.Selection.Fragments

/-!
# What expectations ask of an item

An expectation means something without expressions: an attribute is there, is not there, or is
there and equal to a value. The condition of an entry says exactly that. A text in the middle of an
expression `Says` a truth when reading it adds the truth to the result so far; each expectation is
such a text, and joining texts by AND joins what they say.
-/

namespace AttributeStore

open Store (IsWord Placeholders Partial operand operator evaluate expressionWords)

namespace Precondition

def holds (item : WireItem) (name : String) : Precondition → Bool
  | present => item.contains name
  | absent => !item.contains name
  | equals value =>
    match value.encode with
    | .ok encoded =>
      (item.get? name).any fun held => Store.compareAttributes? held encoded = some .eq
    | .error _ => false

/-- The value that is asked for, if there is one, has a wire form. -/
def Encodes : Precondition → Prop
  | present | absent => True
  | equals value => ∃ encoded, value.encode = .ok encoded

/-- The placeholders of an expectation stand for its attribute and its encoded operand. -/
structure Resolves (placeholders : Placeholders) (name : String)
    (precondition : Precondition) : Prop where
  named : placeholders.name ("#e_" ++ name) = .ok name
  bound : ∀ value, precondition = .equals value → ∃ encoded,
    value.encode = .ok encoded ∧ placeholders.value (":e_" ++ name) = .ok encoded

end Precondition

/-! ## Texts that say a truth -/

section

variable {placeholders : Placeholders} {item : WireItem}

variable (placeholders item) in
/-- Read in the middle of an expression, a text adds a truth to the result so far. -/
def Says (text : String) (truth : Bool) : Prop :=
  ∀ (waiting : List Partial) (result : Partial) (rest : List String),
    operand placeholders item waiting result (expressionWords text ++ rest) =
      operator placeholders item waiting (result.and truth) rest

theorem Says.isEmpty {text : String} {truth : Bool} (h : Says placeholders item text truth) :
    text.isEmpty = false := by
  apply text_ne_empty
  intro hnone
  have hread := h [] {} []
  rw [hnone, List.append_nil, operand, operator] at hread
  cases hread

theorem Says.joinText {left right : String} {first second : Bool}
    (hl : Says placeholders item left first) (hr : Says placeholders item right second) :
    Says placeholders item (joinText " AND " left right) (first && second) := by
  intro waiting result rest
  have htext : AttributeStore.joinText " AND " left right =
      left ++ Connective.and.text ++ right := by
    unfold AttributeStore.joinText
    rw [hl.isEmpty, hr.isEmpty, if_neg Bool.false_ne_true, if_neg Bool.false_ne_true]
    rfl
  have hboth : (result.and first).and second = result.and (first && second) := by
    simp [Partial.and, Bool.and_assoc]
  rw [htext, expressionWords_connective, List.append_assoc, List.cons_append, hl,
    Connective.word, operator, hr, hboth]

theorem Says.evaluate {fragment : Fragment} {truth : Bool}
    (h : Says placeholders item fragment.text truth) :
    evaluate fragment.text? placeholders item = .ok truth := by
  have hread := h [] {} []
  rw [List.append_nil, operator] at hread
  unfold Fragment.text? Fragment.isEmpty
  rw [h.isEmpty, if_neg Bool.false_ne_true, Store.evaluate, hread]
  simp [Partial.and, Partial.value]

/-! ## Each expectation -/

namespace Precondition

variable {name : String} {precondition : Precondition} {fragment : Fragment}

theorem words_test {function : String} (hf : IsWord function)
    (hn : checkAttributeName name = .ok ()) :
    expressionWords (function ++ "(" ++ ("#e_" ++ name) ++ ")") =
      [function, "(", "#e_" ++ name, ")"] := by
  have hplaceholder : IsWord ("#e_" ++ name) := isWord_append (by decide) hn
  rw [Store.expressionWords_call, Store.expressionWords_word hf,
    Store.expressionWords_word hplaceholder]
  rfl

theorem words_comparison (hn : checkAttributeName name = .ok ()) :
    expressionWords ("#e_" ++ name ++ " = " ++ (":e_" ++ name)) =
      ["#e_" ++ name, "=", ":e_" ++ name] := by
  have hplaceholder : IsWord ("#e_" ++ name) := isWord_append (by decide) hn
  have hoperand : IsWord (":e_" ++ name) := isWord_append (by decide) hn
  have hsign : IsWord "=" := by decide
  have hblanks : "#e_" ++ name ++ " = " ++ (":e_" ++ name) =
      "#e_" ++ name ++ " " ++ "=" ++ " " ++ (":e_" ++ name) := by
    rw [show " = " = " " ++ "=" ++ " " from rfl]
    simp only [← String.append_assoc]
  rw [hblanks, Store.expressionWords_blank, Store.expressionWords_blank,
    Store.expressionWords_word hplaceholder, Store.expressionWords_word hsign,
    Store.expressionWords_word hoperand]
  rfl

def words (name : String) : Precondition → List String
  | present => ["attribute_exists", "(", "#e_" ++ name, ")"]
  | absent => ["attribute_not_exists", "(", "#e_" ++ name, ")"]
  | equals _ => ["#e_" ++ name, "=", ":e_" ++ name]

theorem words_fragment (h : precondition.fragment name = .ok fragment)
    (hn : checkAttributeName name = .ok ()) :
    expressionWords fragment.text = precondition.words name := by
  cases precondition with
  | present =>
    obtain rfl := Except.ok.inj h
    have hwords := words_test (show IsWord "attribute_exists" by decide) hn
    rwa [show "attribute_exists" ++ "(" = "attribute_exists(" from rfl] at hwords
  | absent =>
    obtain rfl := Except.ok.inj h
    have hwords := words_test (show IsWord "attribute_not_exists" by decide) hn
    rwa [show "attribute_not_exists" ++ "(" = "attribute_not_exists(" from rfl] at hwords
  | equals value =>
    unfold Precondition.fragment at h
    simp only [bind_eq_ok, pure_eq_ok] at h
    obtain ⟨encoded, -, rfl⟩ := h
    exact words_comparison hn

def formula (name : String) : Precondition → Store.Formula
  | present => .presence true ("#e_" ++ name)
  | absent => .presence false ("#e_" ++ name)
  | equals _ => .compare ("#e_" ++ name) .equal (":e_" ++ name)

theorem printed_formula (precondition : Precondition) (name : String) :
    Store.Printed .single (precondition.formula name) (precondition.words name) := by
  cases precondition with
  | present => exact .presence true _
  | absent => exact .presence false _
  | equals value => exact .compare (notMem_reserved (Store.head?_append rfl name)) .equal _

theorem check_formula (hr : precondition.Resolves placeholders name) :
    (precondition.formula name).check placeholders = .ok () := by
  cases precondition with
  | present | absent =>
    simp [formula, Store.Formula.check, Store.Formula.places, Store.Place.check, hr.named]
  | equals value =>
    obtain ⟨encoded, -, hvalue⟩ := hr.bound value rfl
    simp [formula, Store.Formula.check, Store.Formula.places, Store.Place.check, hr.named, hvalue]

/-- An expectation and its formula have one meaning. -/
theorem holds_formula (hr : precondition.Resolves placeholders name) :
    (precondition.formula name).holds placeholders item = precondition.holds item name := by
  cases precondition with
  | present =>
    rw [formula, Store.Formula.holds, Store.Placeholders.attribute?, hr.named, beq_true]
    rfl
  | absent =>
    rw [formula, Store.Formula.holds, Store.Placeholders.attribute?, hr.named, beq_false]
    rfl
  | equals value =>
    obtain ⟨encoded, hencoded, hvalue⟩ := hr.bound value rfl
    rw [formula, Store.Formula.holds, Store.order?_of_ok hr.named hvalue]
    simp only [holds, hencoded]
    cases item.get? name <;> rfl

theorem says_fragment (h : precondition.fragment name = .ok fragment)
    (hn : checkAttributeName name = .ok ()) (hr : precondition.Resolves placeholders name) :
    Says placeholders item fragment.text (precondition.holds item name) := by
  intro waiting result rest
  rw [words_fragment h hn,
    (precondition.printed_formula name).evaluates placeholders item waiting result rest,
    check_formula hr, holds_formula hr]
  rfl

theorem exists_fragment_iff :
    (∃ fragment, precondition.fragment name = .ok fragment) ↔ precondition.Encodes := by
  cases precondition with
  | present => exact iff_of_true ⟨_, rfl⟩ trivial
  | absent => exact iff_of_true ⟨_, rfl⟩ trivial
  | equals value =>
    unfold Precondition.fragment Encodes
    simp only [bind_eq_ok, pure_eq_ok]
    constructor
    · rintro ⟨_, encoded, hencoded, _⟩
      exact ⟨encoded, hencoded⟩
    · rintro ⟨encoded, hencoded⟩
      exact ⟨_, encoded, hencoded, rfl⟩

theorem names_fragment (h : precondition.fragment name = .ok fragment) :
    fragment.names = Named.singleton ("#e_" ++ name) name := by
  cases precondition with
  | present => rw [← Except.ok.inj h]
  | absent => rw [← Except.ok.inj h]
  | equals value =>
    unfold Precondition.fragment at h
    simp only [bind_eq_ok, pure_eq_ok] at h
    obtain ⟨encoded, -, rfl⟩ := h
    rfl

theorem values_fragment (h : precondition.fragment name = .ok fragment) (key : String)
    (encoded : Attribute) :
    fragment.values.get? key = some encoded ↔
      key = ":e_" ++ name ∧ ∃ value, precondition = .equals value ∧
        value.encode = .ok encoded := by
  cases precondition with
  | present =>
    rw [← Except.ok.inj h]
    exact ⟨nofun, nofun⟩
  | absent =>
    rw [← Except.ok.inj h]
    exact ⟨nofun, nofun⟩
  | equals value =>
    unfold Precondition.fragment at h
    simp only [bind_eq_ok, pure_eq_ok] at h
    obtain ⟨held, hheld, rfl⟩ := h
    dsimp only
    rw [Named.get?_singleton]
    by_cases hkey : ":e_" ++ name = key
    · simp [hkey, hheld]
    · simp [hkey, Ne.symm hkey]

end Precondition

/-! ## All expectations of an entry -/

def expectationFragment (expectation : String × Precondition) : Except CodecError Fragment :=
  expectation.2.fragment expectation.1

theorem says_foldl_join {expectations : List (String × Precondition)} {fragments : List Fragment}
    (hf : expectations.map expectationFragment = fragments.map .ok)
    (hn : ∀ expectation ∈ expectations, checkAttributeName expectation.1 = .ok ())
    (hr : ∀ expectation ∈ expectations, expectation.2.Resolves placeholders expectation.1)
    {before : Fragment} {truth : Bool} (hb : Says placeholders item before.text truth) :
    Says placeholders item
      (fragments.foldl (fun before fragment => before.join " AND " fragment) before).text
      (truth && expectations.all fun expectation => expectation.2.holds item expectation.1) := by
  induction expectations generalizing fragments before truth with
  | nil =>
    obtain rfl : fragments = [] := List.map_eq_nil_iff.1 hf.symm
    rwa [List.all_nil, Bool.and_true]
  | cons first rest ih =>
    cases fragments with
    | nil => cases hf
    | cons fragment others =>
      rw [List.map_cons, List.map_cons, List.cons.injEq] at hf
      have hsays : Says placeholders item fragment.text _ :=
        Precondition.says_fragment hf.1 (hn first List.mem_cons_self) (hr first List.mem_cons_self)
      have hjoined : Says placeholders item (before.join " AND " fragment).text _ :=
        hb.joinText hsays
      have hlater := ih hf.2 (fun e he => hn e (List.mem_cons_of_mem _ he))
        (fun e he => hr e (List.mem_cons_of_mem _ he)) hjoined
      rwa [List.all_cons, ← Bool.and_assoc]

theorem evaluate_joinAll {expectations : List (String × Precondition)}
    {fragments : List Fragment} (hf : expectations.map expectationFragment = fragments.map .ok)
    (hn : ∀ expectation ∈ expectations, checkAttributeName expectation.1 = .ok ())
    (hr : ∀ expectation ∈ expectations, expectation.2.Resolves placeholders expectation.1) :
    evaluate (Fragment.joinAll " AND " fragments).text? placeholders item =
      .ok (expectations.all fun expectation => expectation.2.holds item expectation.1) := by
  cases expectations with
  | nil =>
    obtain rfl : fragments = [] := List.map_eq_nil_iff.1 hf.symm
    rfl
  | cons first rest =>
    cases fragments with
    | nil => cases hf
    | cons fragment others =>
      rw [List.map_cons, List.map_cons, List.cons.injEq] at hf
      have hsays : Says placeholders item fragment.text _ :=
        Precondition.says_fragment hf.1 (hn first List.mem_cons_self) (hr first List.mem_cons_self)
      have hfirst : Says placeholders item (Fragment.empty.join " AND " fragment).text _ := hsays
      have hall := says_foldl_join hf.2 (fun e he => hn e (List.mem_cons_of_mem _ he))
        (fun e he => hr e (List.mem_cons_of_mem _ he)) hfirst
      exact hall.evaluate

end

namespace Expectations

variable {expected : Expectations} {fragments : List Fragment}
  {expectation : String × Precondition}

theorem exists_of_mem_fragments
    (hf : expected.members.map expectationFragment = fragments.map .ok) {fragment : Fragment}
    (hm : fragment ∈ fragments) :
    ∃ expectation ∈ expected.members, expectation.2.fragment expectation.1 = .ok fragment := by
  have hok : Except.ok fragment ∈ expected.members.map expectationFragment :=
    hf ▸ List.mem_map_of_mem hm
  exact List.mem_map.1 hok

theorem exists_mem_fragments
    (hf : expected.members.map expectationFragment = fragments.map .ok)
    (hm : expectation ∈ expected.members) :
    ∃ fragment ∈ fragments, expectation.2.fragment expectation.1 = .ok fragment := by
  have hok : expectationFragment expectation ∈ fragments.map Except.ok :=
    hf ▸ List.mem_map_of_mem hm
  obtain ⟨fragment, hfragment, hwritten⟩ := List.mem_map.1 hok
  exact ⟨fragment, hfragment, hwritten.symm⟩

/-- A placeholder stands for one name, as its letters are followed by it. -/
theorem get?_names_joinAll (hf : expected.members.map expectationFragment = fragments.map .ok)
    (hm : expectation ∈ expected.members) :
    (Fragment.joinAll " AND " fragments).names.get? ("#e_" ++ expectation.1) =
      some expectation.1 := by
  obtain ⟨fragment, hfragment, hwritten⟩ := exists_mem_fragments hf hm
  refine (Fragment.spans_joinAll " AND " fragments).1.get? ?_ ⟨fragment, hfragment, ?_⟩
  · rintro key left right ⟨one, hone, hleft⟩ ⟨two, htwo, hright⟩
    obtain ⟨first, -, hfirst⟩ := exists_of_mem_fragments hf hone
    obtain ⟨second, -, hsecond⟩ := exists_of_mem_fragments hf htwo
    rw [Precondition.names_fragment hfirst, Named.get?_singleton] at hleft
    rw [Precondition.names_fragment hsecond, Named.get?_singleton] at hright
    simp only [Option.ite_none_right_eq_some, Option.some.injEq] at hleft hright
    obtain ⟨hkey, rfl⟩ := hleft
    obtain ⟨hkey', rfl⟩ := hright
    simpa [← String.toList_inj] using hkey.trans hkey'.symm
  · rw [Precondition.names_fragment hwritten, Named.get?_singleton, if_pos rfl]

/-- An operand stands for one value, as no two expectations are of one attribute. -/
theorem get?_values_joinAll (hf : expected.members.map expectationFragment = fragments.map .ok)
    (hm : expectation ∈ expected.members) {value : Value} (hv : expectation.2 = .equals value)
    {encoded : Attribute} (he : value.encode = .ok encoded) :
    (Fragment.joinAll " AND " fragments).values.get? (":e_" ++ expectation.1) =
      some encoded := by
  obtain ⟨fragment, hfragment, hwritten⟩ := exists_mem_fragments hf hm
  refine (Fragment.spans_joinAll " AND " fragments).2.get? ?_ ⟨fragment, hfragment, ?_⟩
  · rintro key left right ⟨one, hone, hleft⟩ ⟨two, htwo, hright⟩
    obtain ⟨first, hmfirst, hfirst⟩ := exists_of_mem_fragments hf hone
    obtain ⟨second, hmsecond, hsecond⟩ := exists_of_mem_fragments hf htwo
    obtain ⟨hkey, v, hv, hleft⟩ := (Precondition.values_fragment hfirst _ _).1 hleft
    obtain ⟨hkey', w, hw, hright⟩ := (Precondition.values_fragment hsecond _ _).1 hright
    have hsame : first.1 = second.1 := by
      simpa [← String.toList_inj] using hkey.symm.trans hkey'
    obtain rfl := Roster.eq_of_name_eq hmfirst hmsecond hsame
    obtain rfl : v = w := by simpa [hv] using hw
    exact Except.ok.inj (hleft.symm.trans hright)
  · exact (Precondition.values_fragment hwritten _ _).2 ⟨rfl, value, hv, he⟩

/-- Joined expectations do not disturb one another's placeholders. -/
theorem resolves (hf : expected.members.map expectationFragment = fragments.map .ok) :
    let condition := Fragment.joinAll " AND " fragments
    ∀ expectation ∈ expected.members, expectation.2.Resolves
      ⟨condition.names.present, condition.values.present⟩ expectation.1 := by
  intro condition expectation hm
  constructor
  · exact Placeholders.name_of_get? (Store.head?_append rfl _) (get?_names_joinAll hf hm) _
  · intro value hvalue
    obtain ⟨fragment, -, hwritten⟩ := exists_mem_fragments hf hm
    have hencodes := Precondition.exists_fragment_iff.1 ⟨fragment, hwritten⟩
    rw [hvalue] at hencodes
    obtain ⟨encoded, hencoded⟩ := hencodes
    have hget := get?_values_joinAll hf hm hvalue hencoded
    exact ⟨encoded, hencoded, Placeholders.value_of_get? hget _⟩

end Expectations

namespace Entry

variable {entry : Entry} {fragment : Fragment}

theorem exists_condition_iff :
    (∃ fragment, entry.condition = .ok fragment) ↔
      ∀ expectation ∈ entry.expected.members, expectation.2.Encodes := by
  have hfragments : (∃ fragment, entry.condition = .ok fragment) ↔
      ∃ fragments, entry.expected.members.mapM expectationFragment = .ok fragments := by
    unfold condition
    simp only [bind_eq_ok, pure_eq_ok]
    constructor
    · rintro ⟨_, fragments, hf, _⟩
      exact ⟨fragments, hf⟩
    · rintro ⟨fragments, hf⟩
      exact ⟨_, fragments, hf, rfl⟩
  rw [hfragments, exists_mapM_eq_ok]
  exact forall₂_congr fun _ _ => Precondition.exists_fragment_iff

/-- The store evaluates the condition of an entry to the truth of all its expectations. -/
theorem evaluate_condition (h : entry.condition = .ok fragment)
    (hn : ∀ name ∈ entry.expected.names, checkAttributeName name = .ok ()) (item : WireItem) :
    evaluate fragment.text? ⟨fragment.names.present, fragment.values.present⟩ item =
      .ok (entry.expected.members.all fun expectation =>
        expectation.2.holds item expectation.1) := by
  unfold condition at h
  simp only [bind_eq_ok, pure_eq_ok, mapM_eq_ok] at h
  obtain ⟨fragments, hf, rfl⟩ := h
  exact evaluate_joinAll hf (fun expectation hm => hn _ (List.mem_map_of_mem hm))
    (Expectations.resolves hf)

end Entry

end AttributeStore
