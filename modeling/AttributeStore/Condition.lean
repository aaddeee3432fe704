import AttributeStore.Fragment
import AttributeStore.Value.Codec

/-!
# Conditions

A condition compares an attribute with one operand, or with two bounds. It belongs to the key of
a query or to the filter of a read, and says how it is joined to the one before it.
-/

namespace AttributeStore

/-- An order relation between an attribute and an operand. -/
inductive Comparator
  | equal
  | less
  | lessOrEqual
  | greater
  | greaterOrEqual
deriving DecidableEq, Repr

namespace Comparator

def all : List Comparator :=
  [equal, less, lessOrEqual, greater, greaterOrEqual]

def symbol : Comparator → String
  | equal => "="
  | less => "<"
  | lessOrEqual => "<="
  | greater => ">"
  | greaterOrEqual => ">="

def accepts : Comparator → Ordering → Bool
  | equal, ordering => ordering = .eq
  | less, ordering => ordering = .lt
  | lessOrEqual, ordering => ordering ≠ .gt
  | greater, ordering => ordering = .gt
  | greaterOrEqual, ordering => ordering ≠ .lt

end Comparator

/-- What is asked of an attribute. -/
inductive Comparison
  | compare (comparator : Comparator) (operand : Value)
  /-- Both bounds count as between. -/
  | between (lower upper : Value)
deriving DecidableEq

namespace Comparison

def symbol : Comparison → String
  | compare comparator _ => comparator.symbol
  | between _ _ => "BETWEEN"

def operands : Comparison → List Value
  | compare _ operand => [operand]
  | between lower upper => [lower, upper]

end Comparison

/-- Whether a condition selects by key or filters what was read. -/
inductive Role
  | key
  | filter
deriving DecidableEq, Repr

namespace Role

def name : Role → String
  | key => "key"
  | filter => "filter"

/-- The letters in front of the placeholders of a condition. -/
def letters : Role → String
  | key => "c"
  | filter => "f"

def upperLetters : Role → String
  | key => "cs"
  | filter => "fs"

end Role

/-- How a condition is joined to the one before it. -/
inductive Connective
  | and
  | or
deriving DecidableEq, Repr

def Connective.text : Connective → String
  | and => " AND "
  | or => " OR "

/-- A comparison of a named attribute. -/
structure Condition where
  name : String
  comparison : Comparison
  role : Role
  connective : Connective := .and
deriving DecidableEq

namespace Condition

/-- The condition joined to its predecessor by OR. -/
def orElse (condition : Condition) : Condition :=
  { condition with connective := .or }

def namePlaceholder (condition : Condition) : String :=
  "#" ++ condition.role.letters ++ "_" ++ condition.name

/-- The placeholder of the operand or the lower bound. -/
def valuePlaceholder (condition : Condition) : String :=
  ":" ++ condition.role.letters ++ "_" ++ condition.name

def upperPlaceholder (condition : Condition) : String :=
  ":" ++ condition.role.upperLetters ++ "_" ++ condition.name

/-- The condition as an expression, its operands encoded as a declared type or by their own
kind. -/
def fragment (condition : Condition) (declared : Option WireType) :
    Except CodecError Fragment := do
  let names := Named.singleton condition.namePlaceholder condition.name
  match condition.comparison with
  | .compare comparator operand =>
    let encoded ← operand.encodeWith declared
    return {
      text := condition.namePlaceholder ++ " " ++ comparator.symbol ++ " " ++
        condition.valuePlaceholder
      names
      values := Named.singleton condition.valuePlaceholder encoded }
  | .between lower upper =>
    let lower ← lower.encodeWith declared
    let upper ← upper.encodeWith declared
    return {
      text := condition.namePlaceholder ++ " BETWEEN " ++ condition.valuePlaceholder ++ " AND " ++
        condition.upperPlaceholder
      names
      values := (Named.singleton condition.valuePlaceholder lower).insert
        condition.upperPlaceholder upper }

end Condition

end AttributeStore
