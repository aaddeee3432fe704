/-!
# Wire types

The ten kinds of attribute that the store knows, and their tags.
-/

namespace AttributeStore

/-- A kind of attribute. -/
inductive WireType
  | string
  | number
  | binary
  | bool
  | null
  | map
  | list
  | stringSet
  | numberSet
  | binarySet
deriving DecidableEq, Repr

namespace WireType

def all : List WireType :=
  [string, number, binary, bool, null, map, list, stringSet, numberSet, binarySet]

/-- The tag under which the store knows a kind. -/
def tag : WireType → String
  | string => "S"
  | number => "N"
  | binary => "B"
  | bool => "BOOL"
  | null => "NULL"
  | map => "M"
  | list => "L"
  | stringSet => "SS"
  | numberSet => "NS"
  | binarySet => "BS"

def name : WireType → String
  | string => "String"
  | number => "Number"
  | binary => "Binary"
  | bool => "Bool"
  | null => "Null"
  | map => "Map"
  | list => "List"
  | stringSet => "StringSet"
  | numberSet => "NumberSet"
  | binarySet => "BinarySet"

def ofTag? (text : String) : Option WireType :=
  all.find? fun wireType => wireType.tag = text

theorem ofTag?_tag (wireType : WireType) : ofTag? wireType.tag = some wireType := by
  cases wireType <;> decide

theorem tag_of_ofTag? {text : String} {wireType : WireType} (h : ofTag? text = some wireType) :
    wireType.tag = text := by
  simpa using List.find?_some h

end WireType

end AttributeStore
