import AttributeStore.Json
import AttributeStore.Json.Spelling

/-!
# Connection settings

Where the store is and who asks. Settings come from named variables, of which an empty one counts
as unset, or from JSON: an object of fields, or an array of them in order. What an object holds
beside the fields is not looked into.
-/

namespace AttributeStore

structure Config where
  region : Option String := none
  /-- An address to use in place of the usual one. -/
  endpointUrl : Option String := none
  accessKeyId : Option String := none
  secretAccessKey : Option String := none
  sessionToken : Option String := none
  /-- What stands in front of every table name. -/
  tablePrefix : String := ""
deriving DecidableEq, Repr

structure Credentials where
  accessKeyId : String
  secretAccessKey : String
  sessionToken : Option String
deriving DecidableEq, Repr

namespace Config

def ofVariables (lookup : String → Option String) : Config :=
  let get := fun name => (lookup name).filter fun value => !value.isEmpty
  { region := (get "DYNAMODB_REGION").or (get "AWS_REGION")
    endpointUrl := get "DYNAMODB_ENDPOINT_URL"
    accessKeyId := get "AWS_ACCESS_KEY_ID"
    secretAccessKey := get "AWS_SECRET_ACCESS_KEY"
    sessionToken := get "AWS_SESSION_TOKEN"
    tablePrefix := (get "DYNAMODB_TABLE_PREFIX").getD "" }

/-- The credentials, when both halves of the key are set. -/
def credentials (config : Config) : Option Credentials := do
  return ⟨← config.accessKeyId, ← config.secretAccessKey, config.sessionToken⟩

/-- A field that may be null. -/
def nullable : Json.Spelling → Option (Option String)
  | .null => some none
  | .string inside => (Json.unescape? inside).map some
  | _ => none

def required : Json.Spelling → Option String
  | .string inside => Json.unescape? inside
  | _ => none

def fieldNames : List String :=
  ["region", "endpoint_url", "access_key_id", "secret_access_key", "session_token",
    "table_prefix"]

/-- The settings with a field set; a name that is no field changes nothing. -/
def setField (config : Config) (name : String) (value : Json.Spelling) : Option Config :=
  match name with
  | "region" => (nullable value).map fun region => { config with region }
  | "endpoint_url" => (nullable value).map fun endpointUrl => { config with endpointUrl }
  | "access_key_id" => (nullable value).map fun accessKeyId => { config with accessKeyId }
  | "secret_access_key" =>
    (nullable value).map fun secretAccessKey => { config with secretAccessKey }
  | "session_token" => (nullable value).map fun sessionToken => { config with sessionToken }
  | "table_prefix" => (required value).map fun tablePrefix => { config with tablePrefix }
  | _ => some config

/-- The settings of fields, of which none may be given twice. -/
def ofFields (fields : List (String × Json.Spelling)) : Option Config :=
  let known := fields.filter fun field => fieldNames.contains field.1
  if (known.map Prod.fst).Nodup then
    known.foldlM (fun config field => config.setField field.1 field.2) {}
  else none

def ofSpelling? : Json.Spelling → Option Config
  | .object members => do
    let fields ← members.mapM fun (name, value) => do
      return (← Json.unescape? name, value)
    ofFields fields
  | .array elements =>
    if fieldNames.length < elements.length then none else ofFields (fieldNames.zip elements)
  | _ => none

def parse (text : String) : Option Config := do
  ofSpelling? (← Json.Spelling.parse .strict text)

/-- The settings as JSON, with the credentials that they give. -/
def toJson (config : Config) : Json :=
  .object [("region", .ofText? config.region), ("endpoint_url", .ofText? config.endpointUrl),
    ("access_key_id", .ofText? config.accessKeyId),
    ("secret_access_key", .ofText? config.secretAccessKey),
    ("session_token", .ofText? config.sessionToken),
    ("table_prefix", .string config.tablePrefix),
    ("credentials", Json.orNull (fun credentials => .object [
      ("access_key_id", .string credentials.accessKeyId),
      ("secret_access_key", .string credentials.secretAccessKey),
      ("session_token", .ofText? credentials.sessionToken)]) config.credentials)]

end Config

end AttributeStore
