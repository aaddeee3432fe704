/-!
# JSON

JSON values with their numbers as text and their members in the order of the text, so that a
reader decides what a repeated member means. `Json.text` writes a value.
-/

namespace AttributeStore

inductive Json
  | null
  | bool (flag : Bool)
  | number (text : String)
  | string (text : String)
  | array (elements : List Json)
  | object (members : List (String × Json))
deriving Inhabited

namespace Json

def ofNat (n : Nat) : Json :=
  number (toString n)

def ofInt (i : Int) : Json :=
  number (toString i)

def ofText? (text : Option String) : Json :=
  (text.map string).getD null

def orNull {α : Type} (write : α → Json) : Option α → Json
  | some value => write value
  | none => null

/-- An object of the members that are there. -/
def ofMembers (members : List (String × Option Json)) : Json :=
  object (members.filterMap fun (name, value) => value.map (name, ·))

/-- The last member of a name; null counts as absent. -/
def member? (name : String) : Json → Option Json
  | object members =>
    match members.reverse.find? fun member => member.1 = name with
    | some (_, null) | none => none
    | some (_, value) => some value
  | _ => none

def escape (c : Char) : String :=
  if c = '"' then "\\\""
  else if c = '\\' then "\\\\"
  else if c.toNat < 0x20 then
    "\\u00" ++ (if c.toNat < 0x10 then "0" else "") ++ String.ofList (Nat.toDigits 16 c.toNat)
  else c.toString

def quote (text : String) : String :=
  text.toList.foldl (fun written c => written ++ escape c) "\"" ++ "\""

mutual

/-- The value appended to a text. -/
def write (before : String) : Json → String
  | null => before ++ "null"
  | bool flag => before ++ (if flag then "true" else "false")
  | number text => before ++ text
  | string text => before ++ quote text
  | array elements => writeElements (before ++ "[") "" elements ++ "]"
  | object members => writeMembers (before ++ "\x7b") "" members ++ "\x7d"

/-- Elements appended to a text, the first after `separator` and the others after a comma. -/
def writeElements (before separator : String) : List Json → String
  | [] => before
  | element :: rest => writeElements (write (before ++ separator) element) "," rest

def writeMembers (before separator : String) : List (String × Json) → String
  | [] => before
  | (name, value) :: rest =>
    writeMembers (write (before ++ separator ++ quote name ++ ":") value) "," rest

end

/-- The text of a value, without blanks. -/
def text (value : Json) : String :=
  write "" value

end Json

end AttributeStore
