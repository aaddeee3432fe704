import AttributeStore.Proofs.Store.Layout
import AttributeStore.Proofs.Success

/-!
# Formulas

The conditions that expressions write down, as trees: comparisons, ranges and tests for presence,
joined by AND and OR. A formula names attributes and operands by words, which placeholders
resolve; `Formula.holds` is its truth on an item, and `Formula.Bound` says that all its words can
be resolved. `Printed` gives the words of its printings: AND binds stronger than OR, and
parentheses may stand around any part. `Reads` says of any sequence of words, well formed or not,
where its last one is looked up.
-/

namespace AttributeStore.Store

inductive Sign
  | equal
  | unequal
  | less
  | lessOrEqual
  | greater
  | greaterOrEqual

namespace Sign

def word : Sign → String
  | equal => "="
  | unequal => "<>"
  | less => "<"
  | lessOrEqual => "<="
  | greater => ">"
  | greaterOrEqual => ">="

/-- Whether a sign holds for the order between an attribute and an operand, if there is one.
Where there is none the two differ. -/
def accepts : Sign → Option Ordering → Bool
  | equal, order => order = some .eq
  | unequal, order => order ≠ some .eq
  | less, order => order = some .lt
  | lessOrEqual, order => order = some .lt || order = some .eq
  | greater, order => order = some .gt
  | greaterOrEqual, order => order = some .gt || order = some .eq

end Sign

def testWord (wanted : Bool) : String :=
  if wanted then "attribute_exists" else "attribute_not_exists"

/-- The words with which no comparison can begin, since something else does. -/
def reserved : List String :=
  ["(", "attribute_exists", "attribute_not_exists"]

/-- A word that is looked up, as the name of an attribute or as an operand. -/
inductive Place
  | name (word : String)
  | operand (word : String)

namespace Place

/-- A word cannot be looked up: a placeholder of a name that stands for none, or an operand that
is not given. -/
def Unbound (placeholders : Placeholders) : Place → Prop
  | name word => word.toList.head? = some '#' ∧ placeholders.names.bind (·.get? word) = none
  | operand word => placeholders.values.bind (·.get? word) = none

instance (placeholders : Placeholders) (place : Place) :
    Decidable (place.Unbound placeholders) :=
  match place with
  | name _ => inferInstanceAs (Decidable (_ ∧ _))
  | operand _ => inferInstanceAs (Decidable (_ = none))

/-- Looks a word up without using what it stands for. -/
def check (placeholders : Placeholders) : Place → Except BackendError Unit
  | name word => (fun _ => ()) <$> placeholders.name word
  | operand word => (fun _ => ()) <$> placeholders.value word

end Place

inductive Formula
  | compare (subject : String) (sign : Sign) (operand : String)
  | between (subject lower upper : String)
  | presence (wanted : Bool) (subject : String)
  | and (left right : Formula)
  | or (left right : Formula)

/-- The attribute of an item that a word names, if the item has it. -/
def Placeholders.attribute? (placeholders : Placeholders) (item : WireItem) (word : String) :
    Option Attribute :=
  (placeholders.name word).toOption.bind item.get?

/-- The order between the attribute and the operand of two words, if there is one. -/
def Placeholders.order? (placeholders : Placeholders) (item : WireItem) (subject operand : String) :
    Option Ordering := do
  compareAttributes? (← placeholders.attribute? item subject)
    (← (placeholders.value operand).toOption)

namespace Formula

/-- The words of a formula that are looked up, from the left. -/
def places : Formula → List Place
  | compare subject _ operand => [.name subject, .operand operand]
  | between subject lower upper => [.name subject, .operand lower, .operand upper]
  | presence _ subject => [.name subject]
  | and left right | or left right => left.places ++ right.places

def Bound (placeholders : Placeholders) (formula : Formula) : Prop :=
  ∀ place ∈ formula.places, ¬ place.Unbound placeholders

instance (placeholders : Placeholders) (formula : Formula) :
    Decidable (formula.Bound placeholders) :=
  inferInstanceAs (Decidable (∀ place ∈ formula.places, _))

def holds (placeholders : Placeholders) (item : WireItem) : Formula → Bool
  | compare subject sign operand => sign.accepts (placeholders.order? item subject operand)
  | between subject lower upper =>
    Sign.greaterOrEqual.accepts (placeholders.order? item subject lower) &&
      Sign.lessOrEqual.accepts (placeholders.order? item subject upper)
  | presence wanted subject => (placeholders.attribute? item subject).isSome == wanted
  | and left right => left.holds placeholders item && right.holds placeholders item
  | or left right => left.holds placeholders item || right.holds placeholders item

end Formula

/-- The parts of which expressions are made. -/
inductive Level
  /-- A comparison, a range, a test, or anything in parentheses. -/
  | single
  /-- Parts joined by AND. -/
  | conjunction
  /-- Parts joined by OR. -/
  | disjunction

/-- The words of a printing of a formula as a part of an expression. -/
inductive Printed : Level → Formula → List String → Prop
  | compare {subject : String} (plain : subject ∉ reserved) (sign : Sign) (operand : String) :
    Printed .single (.compare subject sign operand) [subject, sign.word, operand]
  | between {subject : String} (plain : subject ∉ reserved) (lower upper : String) :
    Printed .single (.between subject lower upper) [subject, "BETWEEN", lower, "AND", upper]
  | presence (wanted : Bool) (subject : String) :
    Printed .single (.presence wanted subject) [testWord wanted, "(", subject, ")"]
  | parentheses {formula : Formula} {words : List String}
    (inner : Printed .disjunction formula words) :
    Printed .single formula ("(" :: words ++ [")"])
  | one {formula : Formula} {words : List String} (single : Printed .single formula words) :
    Printed .conjunction formula words
  | and {left right : Formula} {before behind : List String}
    (first : Printed .conjunction left before) (second : Printed .conjunction right behind) :
    Printed .conjunction (.and left right) (before ++ "AND" :: behind)
  | all {formula : Formula} {words : List String}
    (conjunction : Printed .conjunction formula words) : Printed .disjunction formula words
  | or {left right : Formula} {before behind : List String}
    (first : Printed .disjunction left before) (second : Printed .disjunction right behind) :
    Printed .disjunction (.or left right) (before ++ "OR" :: behind)

/-- A text is a printing of a formula: its words are laid out with blanks as one likes. -/
def Formula.Prints (formula : Formula) (text : String) : Prop :=
  ∃ words, Printed .disjunction formula words ∧ LaidOut words text.toList

/-- Words behind which a comparison, a test or a parenthesis has to begin. -/
inductive Opens : List String → Prop
  | start : Opens []
  | parenthesis {before : List String} (opens : Opens before) : Opens (before ++ ["("])
  | joint {before words : List String} {formula : Formula} {word : String} (opens : Opens before)
    (single : Printed .single formula words) (h : word = "AND" ∨ word = "OR") :
    Opens (before ++ (words ++ [word]))

/-- Words of which the last one is looked up. -/
inductive Reads : List String → Place → Prop
  | subject {before : List String} (opens : Opens before) {word : String}
    (plain : word ∉ reserved) : Reads (before ++ [word]) (.name word)
  | tested {before : List String} (opens : Opens before) (wanted : Bool) (word : String) :
    Reads (before ++ [testWord wanted, "(", word]) (.name word)
  | operand {before : List String} (opens : Opens before) {subject : String}
    (plain : subject ∉ reserved) (sign word : String) :
    Reads (before ++ [subject, sign, word]) (.operand word)
  | upper {before : List String} (opens : Opens before) {subject : String}
    (plain : subject ∉ reserved) (lower word : String) :
    Reads (before ++ [subject, "BETWEEN", lower, "AND", word]) (.operand word)

end AttributeStore.Store
