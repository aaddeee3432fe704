/-!
# Escapes in JSON strings

What stands between the quotes of a string stands for characters: an escape names one by a letter
or by its code units in hexadecimal. `unescape?` gives the characters; a code unit that is half of
a surrogate pair and lacks the other half stands for none.
-/

namespace AttributeStore.Json

def hexDigit? (c : Char) : Option Nat :=
  if '0' ≤ c ∧ c ≤ '9' then some (c.toNat - '0'.toNat)
  else if 'a' ≤ c ∧ c ≤ 'f' then some (c.toNat - 'a'.toNat + 10)
  else if 'A' ≤ c ∧ c ≤ 'F' then some (c.toNat - 'A'.toNat + 10)
  else none

def hexUnit? (a b c d : Char) : Option Nat := do
  return (← hexDigit? a) * 4096 + (← hexDigit? b) * 256 + (← hexDigit? c) * 16 + (← hexDigit? d)

/-- The character of an escape with a single letter. -/
def shortEscape? (c : Char) : Option Char :=
  if c = '"' ∨ c = '\\' ∨ c = '/' then some c
  else if c = 'b' then some '\x08'
  else if c = 'f' then some '\x0c'
  else if c = 'n' then some '\n'
  else if c = 'r' then some '\r'
  else if c = 't' then some '\t'
  else none

/-- The code units that the inside of a string stands for. A character that is not escaped is one
unit, whatever its size. -/
def units? : List Char → Option (List Nat)
  | [] => some []
  | ['\\'] => none
  | '\\' :: 'u' :: a :: b :: c :: d :: rest => do
    return (← hexUnit? a b c d) :: (← units? rest)
  | '\\' :: c :: rest => do
    return (← shortEscape? c).toNat :: (← units? rest)
  | c :: rest => (units? rest).map (c.toNat :: ·)

/-- The characters of code units: a high surrogate and the low one after it form one character,
and neither may stand alone. -/
def joinUnits : List Nat → Option (List Char)
  | [] => some []
  | unit :: rest =>
    if 0xd800 ≤ unit ∧ unit ≤ 0xdbff then
      match rest with
      | low :: rest =>
        if 0xdc00 ≤ low ∧ low ≤ 0xdfff then
          (joinUnits rest).map
            (Char.ofNat (0x10000 + (unit - 0xd800) * 0x400 + (low - 0xdc00)) :: ·)
        else none
      | [] => none
    else if 0xdc00 ≤ unit ∧ unit ≤ 0xdfff then none
    else (joinUnits rest).map (Char.ofNat unit :: ·)

def unescape? (inside : List Char) : Option String := do
  return String.ofList (← joinUnits (← units? inside))

end AttributeStore.Json
