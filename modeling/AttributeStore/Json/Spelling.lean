import AttributeStore.Decimal.Literal
import AttributeStore.Json.Escape

/-!
# JSON as it is spelled

The tree of a JSON text with its strings and numbers as they are written, so that a reader decides
what an escape or a number stands for only where it looks at one. A text holds one value and
blanks around it. The readers of values and of what stands in arrays and objects call each other
on shorter and shorter texts; the bound that they carry is more than the number of their calls, so
it never runs out.
-/

namespace AttributeStore.Json

open Decimal (splitSign)

/-- A JSON text taken apart. -/
inductive Spelling
  | null
  | bool (flag : Bool)
  /-- The characters of a number. -/
  | number (digits : List Char)
  /-- What stands between the quotes of a string. -/
  | string (inside : List Char)
  | array (elements : List Spelling)
  /-- Members in order, each name as it stands between its quotes. -/
  | object (members : List (List Char × Spelling))
deriving Inhabited

/-- What a reader accepts of numbers and of escapes, wherever they stand. -/
structure Rules where
  /-- Whether a run of digits, signs, points and exponent letters is a number. -/
  isNumber : List Char → Bool
  /-- Whether an escape has to be one of the standard; otherwise any character may follow the
  backslash. -/
  wholeEscapes : Bool

def isSpace (c : Char) : Bool :=
  c = ' ' || c = '\n' || c = '\t' || c = '\r'

def skipSpace (text : List Char) : List Char :=
  text.dropWhile isSpace

def isNumberPart (c : Char) : Bool :=
  c.isDigit || c = '-' || c = '+' || c = '.' || c = 'e' || c = 'E'

/-- Whether a run is a number of the standard: no superfluous zero in front, digits on both sides
of a point and after an exponent letter. -/
def isStandardNumber (run : List Char) : Bool :=
  let unsigned := if run.head? = some '-' then run.drop 1 else run
  let (integer, rest) := (unsigned.takeWhile Char.isDigit, unsigned.dropWhile Char.isDigit)
  let rest? := match rest with
    | '.' :: rest =>
      if (rest.takeWhile Char.isDigit).isEmpty then none else some (rest.dropWhile Char.isDigit)
    | rest => some rest
  !integer.isEmpty && (integer.length = 1 || integer.head? ≠ some '0') &&
    match rest? with
    | none => false
    | some [] => true
    | some (letter :: rest) =>
      let power := (splitSign rest).2
      (letter = 'e' || letter = 'E') && !power.isEmpty && power.all Char.isDigit

def Rules.strict : Rules := ⟨isStandardNumber, true⟩

/-- The rules of a reader that takes any decimal literal for a number and does not look into the
escapes of strings that it passes over. -/
def Rules.lenient : Rules := ⟨fun run => (Decimal.Literal.parse run).isSome, false⟩

/-- Whether a text starts with what follows the backslash in an escape of the standard. -/
def startsWithEscape : List Char → Bool
  | 'u' :: a :: b :: c :: d :: _ => (hexUnit? a b c d).isSome
  | c :: _ => (shortEscape? c).isSome
  | [] => false

namespace Spelling

/-- The inside of a string up to its closing quote, and the text after that. -/
def scanString (rules : Rules) : List Char → Option (List Char × List Char)
  | [] => none
  | '"' :: rest => some ([], rest)
  | '\\' :: c :: rest =>
    if !rules.wholeEscapes || startsWithEscape (c :: rest) then do
      let (inside, rest) ← scanString rules rest
      return ('\\' :: c :: inside, rest)
    else none
  | c :: rest =>
    if c.toNat < 0x20 then none
    else do
      let (inside, rest) ← scanString rules rest
      return (c :: inside, rest)

def scanNumber (rules : Rules) (text : List Char) : Option (List Char × List Char) :=
  let run := text.takeWhile isNumberPart
  match run with
  | [] => none
  | c :: _ =>
    if (c.isDigit || c = '-') && rules.isNumber run then some (run, text.dropWhile isNumberPart)
    else none

mutual

/-- A value at the head of a text, and the text after it. -/
def readValue (rules : Rules) : Nat → List Char → Option (Spelling × List Char)
  | 0, _ => none
  | bound + 1, text =>
    match skipSpace text with
    | 'n' :: 'u' :: 'l' :: 'l' :: rest => some (null, rest)
    | 't' :: 'r' :: 'u' :: 'e' :: rest => some (bool true, rest)
    | 'f' :: 'a' :: 'l' :: 's' :: 'e' :: rest => some (bool false, rest)
    | '"' :: rest => do
      let (inside, rest) ← scanString rules rest
      some (string inside, rest)
    | '[' :: rest =>
      match skipSpace rest with
      | ']' :: rest => some (array [], rest)
      | rest => do
        let (elements, rest) ← readElements rules bound rest
        some (array elements, rest)
    | '{' :: rest =>
      match skipSpace rest with
      | '}' :: rest => some (object [], rest)
      | rest => do
        let (members, rest) ← readMembers rules bound rest
        some (object members, rest)
    | rest => do
      let (digits, rest) ← scanNumber rules rest
      some (number digits, rest)

def readElements (rules : Rules) : Nat → List Char → Option (List Spelling × List Char)
  | 0, _ => none
  | bound + 1, text => do
    let (element, rest) ← readValue rules bound text
    match skipSpace rest with
    | ',' :: rest => do
      let (elements, rest) ← readElements rules bound rest
      some (element :: elements, rest)
    | ']' :: rest => some ([element], rest)
    | _ => none

def readMembers (rules : Rules) :
    Nat → List Char → Option (List (List Char × Spelling) × List Char)
  | 0, _ => none
  | bound + 1, text =>
    match skipSpace text with
    | '"' :: rest => do
      let (name, rest) ← scanString rules rest
      match skipSpace rest with
      | ':' :: rest => do
        let (value, rest) ← readValue rules bound rest
        match skipSpace rest with
        | ',' :: rest => do
          let (members, rest) ← readMembers rules bound rest
          some ((name, value) :: members, rest)
        | '}' :: rest => some ([(name, value)], rest)
        | _ => none
      | _ => none
    | _ => none

end

/-- The tree of a text; none when the text is not JSON by the rules. -/
def parse (rules : Rules) (text : String) : Option Spelling := do
  let chars := text.toList
  let (value, rest) ← readValue rules (2 * chars.length + 2) chars
  if (skipSpace rest).isEmpty then some value else none

mutual

/-- How many arrays and objects stand within each other. -/
def height : Spelling → Nat
  | array elements => elementsHeight elements + 1
  | object members => membersHeight members + 1
  | _ => 0

def elementsHeight : List Spelling → Nat
  | [] => 0
  | element :: rest => max element.height (elementsHeight rest)

def membersHeight : List (List Char × Spelling) → Nat
  | [] => 0
  | (_, value) :: rest => max value.height (membersHeight rest)

end

end Spelling

end AttributeStore.Json
