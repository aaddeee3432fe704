import AttributeStore.Error
import AttributeStore.Store.Order
import AttributeStore.Text.Blank

/-!
# Expressions

What the store makes of a condition on an item: comparisons of an attribute with an operand,
`BETWEEN`, tests for presence, `AND`, `OR` and parentheses, `AND` binding stronger. Words are
separated by blanks, and a parenthesis is a word by itself.

Every part is evaluated, also where the result is already known, so that an error shows wherever
it stands. `operand` reads a comparison, a test or an opening parenthesis; `operator` reads what
joins it to the next. The parentheses that are open form a stack of the results that wait for
their content.
-/

namespace AttributeStore.Store

/-- The names and values for which the placeholders of a request stand. -/
structure Placeholders where
  names : Option (Named String)
  values : Option (Named Attribute)

namespace Placeholders

/-- The attribute name that a word stands for; a word that is no placeholder is a name. -/
def name (placeholders : Placeholders) (word : String) : Except BackendError String :=
  if word.toList.head? = some '#' then
    match placeholders.names.bind (·.get? word) with
    | some name => .ok name
    | none => .error ⟨s!"unbound attribute name {word}"⟩
  else .ok word

def value (placeholders : Placeholders) (word : String) : Except BackendError Attribute :=
  match placeholders.values.bind (·.get? word) with
  | some value => .ok value
  | none => .error ⟨s!"unbound attribute value {word}"⟩

end Placeholders

/-- Whether there is an order, and it puts the left side no higher than the right. -/
def notAbove (order : Option Ordering) : Bool :=
  order = some .lt || order = some .eq

def notBelow (order : Option Ordering) : Bool :=
  order = some .gt || order = some .eq

def holds (sign : String) (order : Option Ordering) : Except BackendError Bool :=
  if sign = "=" then .ok (order = some .eq)
  else if sign = "<>" then .ok (order ≠ some .eq)
  else if sign = "<" then .ok (order = some .lt)
  else if sign = "<=" then .ok (notAbove order)
  else if sign = ">" then .ok (order = some .gt)
  else if sign = ">=" then .ok (notBelow order)
  else .error ⟨s!"unsupported operator {sign}"⟩

def endOfExpression : BackendError :=
  ⟨"unexpected end of expression"⟩

def expectedWord (wanted found : String) : BackendError :=
  ⟨s!"expected {wanted}, got {found}"⟩

/-- The result of an expression so far. -/
structure Partial where
  /-- Whether an alternative before the last `OR` holds. -/
  before : Bool := false
  /-- Whether everything since the last `OR` holds. -/
  current : Bool := true

namespace Partial

def and (result : Partial) (value : Bool) : Partial :=
  { result with current := result.current && value }

/-- The beginning of another alternative. -/
def or (result : Partial) : Partial :=
  { before := result.before || result.current }

def value (result : Partial) : Bool :=
  result.before || result.current

end Partial

section

variable (placeholders : Placeholders) (item : WireItem)

mutual

/-- The result of an expression from a comparison, a test or a parenthesis on. `waiting` are the
results around the open parentheses, the innermost first. -/
def operand (waiting : List Partial) (result : Partial) :
    List String → Except BackendError Bool
  | [] => .error endOfExpression
  | "(" :: rest => operand (result :: waiting) {} rest
  | "attribute_exists" :: rest => presence true waiting result rest
  | "attribute_not_exists" :: rest => presence false waiting result rest
  | word :: rest => do
    let name ← placeholders.name word
    comparison (item.get? name) waiting result rest

/-- The result from the parenthesis of a test for presence on. -/
def presence (wanted : Bool) (waiting : List Partial) (result : Partial) :
    List String → Except BackendError Bool
  | [] => .error endOfExpression
  | opening :: rest =>
    if opening ≠ "(" then .error (expectedWord "(" opening)
    else match rest with
      | [] => .error endOfExpression
      | word :: rest => do
        let name ← placeholders.name word
        match rest with
        | [] => .error endOfExpression
        | closing :: rest =>
          if closing ≠ ")" then .error (expectedWord ")" closing)
          else operator waiting (result.and (item.contains name == wanted)) rest

/-- The result from the operator of a comparison on. -/
def comparison (found : Option Attribute) (waiting : List Partial) (result : Partial) :
    List String → Except BackendError Bool
  | [] | [_] => .error endOfExpression
  | sign :: word :: rest => do
    let value ← placeholders.value word
    let order := found.bind fun held => compareAttributes? held value
    if sign = "BETWEEN" then upperBound found order waiting result rest
    else operator waiting (result.and (← holds sign order)) rest

/-- The result from the `AND` of a range on. -/
def upperBound (found : Option Attribute) (lower : Option Ordering) (waiting : List Partial)
    (result : Partial) : List String → Except BackendError Bool
  | [] => .error endOfExpression
  | joint :: rest =>
    if joint ≠ "AND" then .error (expectedWord "AND" joint)
    else match rest with
      | [] => .error endOfExpression
      | word :: rest => do
        let value ← placeholders.value word
        let upper := found.bind fun held => compareAttributes? held value
        operator waiting (result.and (notBelow lower && notAbove upper)) rest

/-- The result of an expression from behind a comparison, a test or a parenthesis on. -/
def operator (waiting : List Partial) (result : Partial) :
    List String → Except BackendError Bool
  | [] =>
    match waiting with
    | [] => .ok result.value
    | _ :: _ => .error endOfExpression
  | "AND" :: rest => operand waiting result rest
  | "OR" :: rest => operand waiting result.or rest
  | word :: rest =>
    match waiting with
    | [] => .error ⟨s!"trailing token {word}"⟩
    | outer :: waiting =>
      if word ≠ ")" then .error (expectedWord ")" word)
      else operator waiting (outer.and result.value) rest

end

end

def expressionWords (expression : String) : List String :=
  let padded := expression.toList.flatMap fun c =>
    if c = '(' ∨ c = ')' then [' ', c, ' '] else [c]
  (Text.words padded).map String.ofList

/-- Whether an item satisfies an expression; without one, every item does. -/
def evaluate (expression : Option String) (placeholders : Placeholders) (item : WireItem) :
    Except BackendError Bool :=
  match expression with
  | none => .ok true
  | some text => operand placeholders item [] {} (expressionWords text)

end AttributeStore.Store
