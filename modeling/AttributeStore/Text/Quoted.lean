import AttributeStore.Text.Printable

/-!
# Quoted text

Text as messages show it: between double quotes, with the quote, the backslash and every
unprintable character escaped. The escape of an unprintable character without a letter of its own
is its code point in hexadecimal, between braces.
-/

namespace AttributeStore.Text

/-- The digits of a code point, lower case and without leading zeros. -/
def hexDigits (n : Nat) : String :=
  String.ofList (Nat.toDigits 16 n)

/-- One character as it stands between the quotes. -/
def quoteChar (c : Char) : String :=
  if c = '"' then "\\\""
  else if c = '\\' then "\\\\"
  else if c = '\t' then "\\t"
  else if c = '\r' then "\\r"
  else if c = '\n' then "\\n"
  else if c.toNat = 0 then "\\0"
  else if isPrintable c then c.toString
  else "\\u\x7b" ++ hexDigits c.toNat ++ "\x7d"

def quoted (text : String) : String :=
  "\"" ++ String.join (text.toList.map quoteChar) ++ "\""

end AttributeStore.Text
