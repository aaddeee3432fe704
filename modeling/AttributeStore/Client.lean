import AttributeStore.Text.Blank
import AttributeStore.Wire.OperationJson
import AttributeStore.Wire.ReplyShape

/-!
# The client of a remote store

How an operation travels to a remote store: the members of the request that are passed on, the
name under which the store knows the operation, and the reading of what comes back. A request that
has to name a table and does not stays unsent. Anything but a well-formed reply with a status of
success is a failure.
-/

namespace AttributeStore

open Wire

namespace Client

/-- The name under which the store knows an operation. -/
def operationName : Operation → String
  | .createTable => "CreateTable"
  | .describeTable => "DescribeTable"
  | .updateTable => "UpdateTable"
  | .deleteTable => "DeleteTable"
  | .getItem => "GetItem"
  | .putItem => "PutItem"
  | .deleteItem => "DeleteItem"
  | .query => "Query"
  | .scan => "Scan"
  | .batchWriteItem => "BatchWriteItem"

def target (operation : Operation) : String :=
  "DynamoDB_20120810." ++ operationName operation

def method : String := "POST"

/-- The members of a request that are passed on. -/
def forward : (operation : Operation) → operation.Request → operation.Request
  | .createTable, (request : CreateTable) => { request with deletionProtection := none }
  | .describeTable, request | .deleteTable, request => request
  | .updateTable, (request : UpdateTable) =>
    { request with billingMode := none, deletionProtection := none }
  | .getItem, (request : GetItem) =>
    { request with attributesToGet := none, returnConsumedCapacity := none }
  | .putItem, (request : PutItem) => { request with returnConsumedCapacity := none }
  | .deleteItem, (request : DeleteItem) => { request with returnConsumedCapacity := none }
  | .query, (request : Query) =>
    { request with attributesToGet := none, returnConsumedCapacity := none }
  | .scan, (request : Scan) =>
    { request with attributesToGet := none, returnConsumedCapacity := none }
  | .batchWriteItem, request => request

/-- Whether a name is there and more than blanks. -/
def isNamed (name : Option String) : Bool :=
  name.any fun name => !(Text.trim name.toList).isEmpty

/-- Whether a request can be sent: it names its table. A batch names tables beside its writes, and
need not name any. -/
def isAddressed : (operation : Operation) → operation.Request → Bool
  | .createTable, (request : CreateTable) => isNamed request.tableName
  | .describeTable, (request : TableRequest) | .deleteTable, request => isNamed request.tableName
  | .updateTable, (request : UpdateTable) => isNamed request.tableName
  | .getItem, (request : GetItem) => isNamed request.tableName
  | .putItem, (request : PutItem) => isNamed request.tableName
  | .deleteItem, (request : DeleteItem) => isNamed request.tableName
  | .query, (request : Query) => isNamed request.tableName
  | .scan, (request : Scan) => isNamed request.tableName
  | .batchWriteItem, _ => true

def isSuccess (status : Nat) : Bool :=
  200 ≤ status && status < 300

/-- The reply of an answer; an empty body counts as an empty object. -/
def reply? (operation : Operation) (status : Nat) (body : String) : Option operation.Reply := do
  guard (isSuccess status)
  let spelling ← if body.isEmpty then some (.object []) else Json.Spelling.parse .lenient body
  let value ← operation.replyShape.conform? Shape.depthLimit spelling
  operation.replyOfJson? .base64 (← value.object?)

/-- The request that is sent, if any, and the reply of the answer to it. -/
def call (operation : Operation) (request : operation.Request) (status : Nat) (body : String) :
    Option operation.Request × Option operation.Reply :=
  if isAddressed operation request then
    (some (forward operation request), reply? operation status body)
  else (none, none)

end Client

end AttributeStore
