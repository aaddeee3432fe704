import AttributeStore.Batch
import AttributeStore.Table

/-!
# Flushing the spool

Both flushes take the whole spool and try every entry; what fails is told as one aggregate and
stays with the handle as error items. `put` sends each entry by itself and can carry
expectations. `batchPut` sends batches: it first screens the entries, so that no batch holds two
items of one key, and then goes on past batches that fail.
-/

namespace AttributeStore

/-- What failed in a flush, in the order in which it failed. -/
structure Flush where
  errors : List Error := []
  /-- The entries that were not written. -/
  items : List Entry := []

namespace Flush

def append (first second : Flush) : Flush :=
  ⟨first.errors ++ second.errors, first.items ++ second.items⟩

/-- Success when nothing failed, and otherwise all failures as one error. -/
def result (flush : Flush) : Except Error Unit :=
  Aggregate.toResult ⟨serviceName, flush.errors⟩

end Flush

/-- The identity of a key: for each attribute its name and its bytes. -/
abbrev KeyIdentity := List (String × List UInt8)

/-- The bytes by which a key attribute is told from others. -/
def keyBytes : Attribute → List UInt8
  | .leaf (.string text) | .leaf (.number text) => text.toUTF8.toList
  | .leaf (.binary bytes) => bytes
  | _ => []

def keyIdentity (key : WireItem) : KeyIdentity :=
  key.entries.map fun (name, value) => (name, keyBytes value)

/-- Entries told apart by whether a batch can take them. -/
structure Screening where
  /-- The entries to send, in order. -/
  accepted : List Entry := []
  /-- The other entries, each with the reason. -/
  refused : List (Entry × ValidationError) := []

namespace Screening

/-- The identity of an entry's key, if the entry can join a batch that holds some keys. -/
def joinBatch (schema : TableSchema) (held : List KeyIdentity) (entry : Entry) :
    Except ValidationError KeyIdentity := do
  if !entry.expected.isEmpty then throw (.preconditionInBatch schema.name)
  let key ← schema.keyOf entry.item
  let identity := keyIdentity key
  if identity ∈ held then throw (.duplicateKey schema.name)
  return identity

/-- The entries that batches can take after a number of accepted ones. `held` are the keys of
the batch that is being filled; a full batch is followed by an empty one. -/
def screen (schema : TableSchema) : Nat → List KeyIdentity → List Entry → Screening
  | _, _, [] => {}
  | count, held, entry :: rest =>
    let held := if count % batchSize = 0 then [] else held
    match joinBatch schema held entry with
    | .ok identity =>
      let later := screen schema (count + 1) (identity :: held) rest
      { later with accepted := entry :: later.accepted }
    | .error cause =>
      let later := screen schema count held rest
      { later with refused := (entry, cause) :: later.refused }

def flush (screening : Screening) : Flush :=
  ⟨screening.refused.map fun (_, cause) => .validation cause, screening.refused.map Prod.fst⟩

end Screening

def entriesOf (writes : List Write) : List Entry :=
  writes.map fun write => { item := write.item }

namespace Table

/-- Sends one entry by itself, and gives what went wrong. -/
def putEntry (table : Table) (entry : Entry) : Program (Option Error) :=
  match entry.validate table.schema with
  | .error cause => return some (.validation cause)
  | .ok () =>
    match entry.putRequest table.fullName with
    | .error cause => return some (.codec cause)
    | .ok request => do
      match ← callTable .putItem table.fullName request with
      | .error cause => return some cause
      | .ok _ => return none

def putEntries (table : Table) : List Entry → Program Flush
  | [] => return {}
  | entry :: rest => do
    let failure ← table.putEntry entry
    let later ← table.putEntries rest
    match failure with
    | none => return later
    | some cause => return ⟨cause :: later.errors, entry :: later.items⟩

def putBatch (table : Table) (writes : List Write) : Program Flush := do
  match ← sendBatch table.fullName writes with
  | .error cause => return ⟨[cause], entriesOf writes⟩
  | .ok [] => return {}
  | .ok undone =>
    Program.emit {
      level := .warn, message := "items left unprocessed", table := table.fullName,
      operation := Wire.Operation.batchWriteItem.name, counts := [("count", undone.length)] }
    return ⟨[.unprocessed table.fullName undone.length], entriesOf undone⟩

def putBatches (table : Table) : List (List Write) → Program Flush
  | [] => return {}
  | batch :: rest => do
    let first ← table.putBatch batch
    let later ← table.putBatches rest
    return first.append later

def batchEntries (table : Table) (entries : List Entry) : Program Flush := do
  let screening := Screening.screen table.schema 0 [] entries
  let writes := screening.accepted.map fun entry => Write.put entry.item
  return screening.flush.append (← table.putBatches (chunks batchSize writes))

/-- Takes the spool, hands it to a way of sending, and keeps what failed. -/
def flushWith (table : Table) (name : String) (send : List Entry → Program Flush) :
    Program (Except Error Unit × Table) := do
  let (entries, table) := table.takeSpool
  Program.emit {
    level := .debug, message := "flushing spool", table := table.fullName, operation := name,
    counts := [("entries", entries.length)] }
  let flush ← send entries
  return (flush.result, { table with errorItems := flush.items })

/-- Sends every staged entry with its own call. -/
def put (table : Table) : Program (Except Error Unit × Table) :=
  table.flushWith "put" table.putEntries

/-- Sends the staged entries in batches. -/
def batchPut (table : Table) : Program (Except Error Unit × Table) :=
  table.flushWith "batch_put" table.batchEntries

end Table

end AttributeStore
