import AttributeStore.Store

/-!
# Pages

Reading the items of a table or index in the order of its key. The candidates are the items that
have the hash key and satisfy the key condition; a page takes them from behind a start key up to
a limit, and only then filters. When candidates remain, the page ends with the key of the last
one that was evaluated. There is no page where sorting the items panics.
-/

namespace AttributeStore.Store

open Wire

/-- The key of the index to read; that of the table itself when there is no such index. -/
def StoredTable.indexKeys (table : StoredTable) (indexName : Option String) : KeyNames :=
  match indexName with
  | none => table.keys
  | some name =>
    let localKey := ((table.description.localIndexes.getD []).find? fun index =>
      index.name = some name).map (·.keySchema)
    let globalKey := ((table.description.globalIndexes.getD []).find? fun index =>
      index.name = some name).map (·.keySchema)
    match localKey.or globalKey with
    | some keySchema => keyNames (keySchema.getD [])
    | none => table.keys

structure PageRequest where
  indexName : Option String
  keyCondition : Option String
  filter : Option String
  placeholders : Placeholders
  limit : Option Int
  pageSize : Option Nat
  descending : Bool
  startKey : Option WireItem

structure Page where
  items : List WireItem
  /-- How many items were evaluated. -/
  scanned : Nat
  /-- The key of the last evaluated item, when more remain. -/
  lastEvaluatedKey : Option WireItem

def selectItems (expression : Option String) (placeholders : Placeholders) (items : List WireItem) :
    Except BackendError (List WireItem) :=
  items.filterM (evaluate expression placeholders ·)

/-- Those of some items that have the hash key of a key and satisfy the key condition. -/
def candidates (keys : KeyNames) (request : PageRequest) (sorted : List WireItem) :
    Except BackendError (List WireItem) :=
  selectItems request.keyCondition request.placeholders
    (sorted.filter (·.contains keys.hashKey))

/-- How many candidates stand up to a start key: those up to the item of that key, or else those
before the first item that comes after it. -/
def startPlace (table : StoredTable) (keys : KeyNames) (descending : Bool)
    (startKey : WireItem) (items : List WireItem) : Nat :=
  match items.findIdx? fun item => table.keyOf item = startKey with
  | some place => place + 1
  | none =>
    (items.findIdx? fun item => compareItems keys descending item startKey = .gt).getD
      items.length

def pageLimit (request : PageRequest) (available : Nat) : Nat :=
  let asked := (request.limit.map Int.toNat).getD available
  match request.pageSize with
  | none => asked
  | some size => min asked size

/-- One page of a table whose items are in the order of the index. -/
def pageOf (table : StoredTable) (request : PageRequest) (sorted : List WireItem) :
    Except BackendError Page := do
  let keys := table.indexKeys request.indexName
  let all ← candidates keys request sorted
  let remaining := match request.startKey with
    | none => all
    | some startKey => all.drop (startPlace table keys request.descending startKey all)
  let limit := pageLimit request remaining.length
  let evaluated := remaining.take limit
  let items ← selectItems request.filter request.placeholders evaluated
  return {
    items
    scanned := evaluated.length
    lastEvaluatedKey :=
      if limit < remaining.length then evaluated.getLast?.map table.keyOf else none }

/-- One page of a table, unless the sort panics. -/
def readPage (table : StoredTable) (request : PageRequest) : Option (Except BackendError Page) :=
  (sortItems? (table.indexKeys request.indexName) request.descending table.items).map
    (pageOf table request)

/-- An item cut to the attributes that a projection lists; what it lists in vain is passed
over. -/
def project (projection : Option String) (placeholders : Placeholders) (item : WireItem) :
    WireItem :=
  match projection with
  | none => item
  | some expression =>
    let names := (Text.splitAt ',' expression.toList).filterMap fun word =>
      (placeholders.name (String.ofList (Text.trim word))).toOption
    item.filterNames (· ∈ names)

/-- The reply of a page; without its items when only the count is wanted. -/
def pageReply (select projection : Option String) (placeholders : Placeholders) (page : Page) :
    PageReply where
  items :=
    if select = some countSelect then none
    else some (page.items.map (project projection placeholders))
  count := page.items.length
  scannedCount := page.scanned
  lastEvaluatedKey := page.lastEvaluatedKey

end AttributeStore.Store
