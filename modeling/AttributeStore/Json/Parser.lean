import AttributeStore.Json
import AttributeStore.Json.Spelling

/-!
# Reading JSON

A strict reader: one value by the rules of the standard, every string with the text that it stands
for.
-/

namespace AttributeStore.Json

namespace Spelling

mutual

/-- The value that is spelled; none when a string stands for no text. -/
def toJson? : Spelling → Option Json
  | null => some .null
  | bool flag => some (.bool flag)
  | number digits => some (.number (String.ofList digits))
  | string inside => (unescape? inside).map .string
  | array elements => (elementsToJson? elements).map .array
  | object members => (membersToJson? members).map .object

def elementsToJson? : List Spelling → Option (List Json)
  | [] => some []
  | element :: rest => do
    let value ← element.toJson?
    return value :: (← elementsToJson? rest)

def membersToJson? : List (List Char × Spelling) → Option (List (String × Json))
  | [] => some []
  | (name, spelling) :: rest => do
    let name ← unescape? name
    let value ← spelling.toJson?
    return (name, value) :: (← membersToJson? rest)

end

end Spelling

/-- The value of a text; none when the text is not JSON. -/
def parse (text : String) : Option Json := do
  (← Spelling.parse .strict text).toJson?

end AttributeStore.Json
