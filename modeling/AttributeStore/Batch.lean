import AttributeStore.Read

/-!
# Batches of writes

Writes that go to the store together, at most twenty-five in one call. The store may leave some
of them undone and gives those back.
-/

namespace AttributeStore

inductive Write
  | put (item : WireItem)
  | delete (key : WireItem)
deriving DecidableEq

namespace Write

/-- The item of a put or the key of a delete. -/
def item : Write → WireItem
  | put item => item
  | delete key => key

def toWire : Write → Wire.WriteRequest
  | put item => { put := some item }
  | delete key => { delete := some key }

/-- The write that a request stands for; one that says neither puts an empty item. -/
def ofWire (request : Wire.WriteRequest) : Write :=
  match request.put, request.delete with
  | some item, _ => put item
  | none, some key => delete key
  | none, none => put ∅

end Write

/-- The most writes that one call takes. -/
def batchSize : Nat := 25

/-- A list cut into pieces of a size, as long as the bound allows. -/
def chunksWithin {α : Type} (size : Nat) : Nat → List α → List (List α)
  | 0, _ => []
  | bound + 1, list =>
    if list.isEmpty then [] else list.take size :: chunksWithin size bound (list.drop size)

/-- A list cut into pieces of a size; the last one may be shorter. -/
def chunks {α : Type} (size : Nat) (list : List α) : List (List α) :=
  chunksWithin size list.length list

def batchRequest (table : String) (writes : List Write) : Wire.BatchWrite :=
  { requestItems := some (Named.singleton table (writes.map Write.toWire)) }

def unprocessedWrites (table : String) (reply : Wire.BatchReply) : List Write :=
  ((reply.unprocessed.bind (·.get? table)).getD []).map Write.ofWire

/-- Sends a batch and gives the writes that were left undone. -/
def sendBatch (table : String) (writes : List Write) : Program (Except Error (List Write)) := do
  return (← callTable .batchWriteItem table (batchRequest table writes)).map
    (unprocessedWrites table)

end AttributeStore
