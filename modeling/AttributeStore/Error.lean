import AttributeStore.Decimal.Integer
import AttributeStore.Decimal.Shortest
import AttributeStore.Text.Quoted
import AttributeStore.WireType

/-!
# Errors

The causes of failure, one inductive type for each layer, and the one wording of each. Operations
on one item give the cause; operations on many items try all of them and give an aggregate of the
causes in the order in which they arose.
-/

namespace AttributeStore

open Text (quoted)

/-- Why a request is refused before anything is sent. -/
inductive ValidationError
  | noCondition
  | duplicateCondition (name role : String)
  | orInKeyCondition (name : String)
  | missingKey (table name : String)
  | keyType (table name : String) (expected actual : WireType)
  | unexpectedRangeKey (table : String)
  | invalidAttributeName (name : String)
  | duplicateKey (table : String)
  | preconditionInBatch (table : String)
deriving DecidableEq, Repr

def ValidationError.message : ValidationError → String
  | noCondition => "query requires at least one key condition"
  | duplicateCondition name role =>
    s!"duplicate {role} condition on attribute {name}"
  | orInKeyCondition name =>
    s!"key condition on attribute {name} cannot be joined with OR"
  | missingKey table name =>
    s!"item for table {table} is missing key attribute {name}"
  | keyType table name expected actual =>
    s!"key attribute {name} of table {table} must be {expected.tag}, got {actual.tag}"
  | unexpectedRangeKey table => s!"table {table} has no range key"
  | invalidAttributeName name =>
    "attribute name " ++ quoted name ++ " cannot be used in an expression"
  | duplicateKey table => s!"batch write to table {table} already holds an item with this key"
  | preconditionInBatch table => s!"batch write to table {table} cannot carry preconditions"

def ValidationError.kind : ValidationError → String
  | noCondition => "NoCondition"
  | duplicateCondition _ _ => "DuplicateCondition"
  | orInKeyCondition _ => "OrInKeyCondition"
  | missingKey _ _ => "MissingKey"
  | keyType _ _ _ _ => "KeyType"
  | unexpectedRangeKey _ => "UnexpectedRangeKey"
  | invalidAttributeName _ => "InvalidAttributeName"
  | duplicateKey _ => "DuplicateKey"
  | preconditionInBatch _ => "PreconditionInBatch"

/-- Why a record is no item, or an item no record of the wanted shape. -/
inductive ConversionError
  | notMap
  | keyNotText
  | tooWide
  | expected (kind : String)
  | badInteger (text : String) (cause : Decimal.IntegerError)
  | badFloat (text : String)
  | missingField (name : String)
  | invalidType (found wanted : String)
  | other (message : String)
deriving DecidableEq, Repr

def ConversionError.message : ConversionError → String
  | notMap => "Not a map-like object"
  | keyNotText => "Key must be a string"
  | tooWide => "i128 is not supported"
  | expected kind => s!"Expected {kind}"
  | badInteger text cause => s!"Failed to parse '{text}' as an integer: {cause.message}"
  | badFloat text =>
    s!"Failed to parse '{text}' as a float: " ++
      (if text.isEmpty then "cannot parse float from empty string" else "invalid float literal")
  | missingField name => "missing field " ++ "\x60" ++ name ++ "\x60"
  | invalidType found wanted => s!"invalid type: {found}, expected {wanted}"
  | other message => message

/-- Why a value has no wire form, or a text no meaning. -/
inductive CodecError
  | invalidNumber (text : String)
  | nonFiniteNumber (value : Decimal.Binary)
  | typeMismatch (declared actual : WireType)
  | emptySet (set : WireType)
  | duplicateSetMember (set : WireType) (member : String)
  | unknownType (tag : String)
  | conversion (cause : ConversionError)
deriving DecidableEq, Repr

def CodecError.message : CodecError → String
  | invalidNumber text => "invalid number: " ++ quoted text
  | nonFiniteNumber value => "non-finite number: " ++ value.text .double
  | typeMismatch declared actual => s!"cannot encode {actual.tag} value as {declared.tag}"
  | emptySet set => s!"empty {set.tag} set"
  | duplicateSetMember set member =>
    "duplicate member " ++ quoted member ++ s!" in {set.tag} set"
  | unknownType tag => "unknown attribute type " ++ quoted tag
  | conversion cause => cause.message

def CodecError.kind : CodecError → String
  | invalidNumber _ => "InvalidNumber"
  | nonFiniteNumber _ => "NonFiniteNumber"
  | typeMismatch _ _ => "TypeMismatch"
  | emptySet _ => "EmptySet"
  | duplicateSetMember _ _ => "DuplicateSetMember"
  | unknownType _ => "UnknownType"
  | conversion _ => "Conversion"

/-- Why a table schema is not well formed. -/
inductive SchemaError
  | indexKeyCount (index : String) (count : Nat)
  | localIndexWithoutRangeKey (index : String)
  | missingHashKey (table : String)
  | undefinedAttribute (owner name : String)
  | unknownAttributeType (name kind : String)
  | missingDescription (table : String)
deriving DecidableEq, Repr

def SchemaError.message : SchemaError → String
  | indexKeyCount index count => s!"index {index} must have 1 or 2 key attributes, got {count}"
  | localIndexWithoutRangeKey index =>
    s!"local index {index} requires the table to have a range key"
  | missingHashKey table => s!"description of table {table} has no HASH key"
  | undefinedAttribute owner name =>
    s!"key attribute {name} of {owner} has no attribute definition"
  | unknownAttributeType name kind =>
    s!"attribute {name} has unknown type " ++ quoted kind
  | missingDescription table => s!"describe response for table {table} carried no description"

def SchemaError.kind : SchemaError → String
  | indexKeyCount _ _ => "IndexKeyCount"
  | localIndexWithoutRangeKey _ => "LocalIndexWithoutRangeKey"
  | missingHashKey _ => "MissingHashKey"
  | undefinedAttribute _ _ => "UndefinedAttribute"
  | unknownAttributeType _ _ => "UnknownAttributeType"
  | missingDescription _ => "MissingDescription"

/-- A failure that the store reports. -/
structure BackendError where
  message : String
deriving DecidableEq, Repr

inductive Error
  | validation (cause : ValidationError)
  | codec (cause : CodecError)
  | schema (cause : SchemaError)
  | wire (operation table : String) (cause : BackendError)
  | decode (row : Nat) (cause : ConversionError)
  | notActive (table status : String)
  | unprocessed (table : String) (count : Nat)
  | aggregate (service : String) (errors : List Error)

namespace Error

/-- The name of an error, with the layer in front of those that have a layer of their own. -/
def kind : Error → String
  | validation cause => "Validation." ++ cause.kind
  | codec cause => "Codec." ++ cause.kind
  | schema cause => "Schema." ++ cause.kind
  | wire _ _ _ => "Wire"
  | decode _ _ => "Decode"
  | notActive _ _ => "NotActive"
  | unprocessed _ _ => "Unprocessed"
  | aggregate _ _ => "Aggregate"

def aggregateMessage (service : String) (messages : List String) : String :=
  s!"[{service}] {messages.length} error(s): " ++ "; ".intercalate messages

mutual

def message : Error → String
  | validation cause => cause.message
  | codec cause => cause.message
  | schema cause => cause.message
  | wire operation table cause => s!"{operation} on table {table} failed: {cause.message}"
  | decode row cause => s!"failed to decode row {row}: {cause.message}"
  | notActive table status =>
    s!"table {table} is {status}, throughput can only change while ACTIVE"
  | unprocessed table count => s!"{count} item(s) left unprocessed by batch write on table {table}"
  | aggregate service errors => aggregateMessage service (messages errors)

def messages : List Error → List String
  | [] => []
  | error :: errors => message error :: messages errors

end

end Error

/-- Failures of one operation on many items, in the order in which they arose. -/
structure Aggregate where
  service : String
  errors : List Error

namespace Aggregate

def message (aggregate : Aggregate) : String :=
  Error.aggregateMessage aggregate.service (Error.messages aggregate.errors)

/-- Success when nothing failed, and otherwise the aggregate as one error. -/
def toResult (aggregate : Aggregate) : Except Error Unit :=
  if aggregate.errors.isEmpty then .ok ()
  else .error (.aggregate aggregate.service aggregate.errors)

end Aggregate

/-- The name under which this library reports aggregates and events. -/
def serviceName : String := "dynamodb"

end AttributeStore
