import AttributeStore.Proofs.Selection.Rendering
import AttributeStore.Proofs.Store.Calls
import AttributeStore.Proofs.Store.Paging
import AttributeStore.Table.Read

/-!
# What a read asks for and gives

A query or scan that can be rendered sends one request, and gives what the page of the store
holds. The page filters by what the selection means, so no read of a rendered selection fails for
its expressions.
-/

namespace AttributeStore

open Store (StoredTable PageRequest Page backend evaluate)

namespace Selection

variable (selection : Selection) (attributes : Catalog)

/-- What a read asks of the items that it evaluates: a query goes by its key conditions. -/
def walks : ReadKind → WireItem → Bool
  | .query, item => selection.keyHolds attributes item
  | .scan, _ => true

def keeps : ReadKind → WireItem → Bool
  | .query, item => selection.filterHolds attributes item
  | .scan, item => selection.keyHolds attributes item && selection.filterHolds attributes item

/-- Whether a read goes backwards; a scan never does. -/
def reverses (selection : Selection) : ReadKind → Bool
  | .query => selection.descending
  | .scan => false

end Selection

namespace Table

def read (table : Table) : ReadKind → Selection → Program (Except Error ReadOutput)
  | .query, selection => table.query selection
  | .scan, selection => table.scan selection

def pageRequest (kind : ReadKind) (selection : Selection) (rendering : Rendering)
    (startKey : Option WireItem) (pageSize : Option Nat) : PageRequest where
  indexName := selection.indexName
  keyCondition := match kind with
    | .query => rendering.keyCondition
    | .scan => none
  filter := rendering.filter
  placeholders := ⟨rendering.names, rendering.values⟩
  limit := selection.limit
  pageSize
  descending := selection.reverses kind
  startKey

def pageOutput (rendering : Rendering) (page : Page) : ReadOutput where
  rows := page.items.map (Store.project rendering.projection ⟨rendering.names, rendering.values⟩)
  count := page.items.length
  scannedCount := page.scanned
  lastEvaluatedKey := page.lastEvaluatedKey.map WireItem.decode

variable {table : Table} {kind : ReadKind} {selection : Selection} {rendering : Rendering}
  {state : Store.State} {stored : StoredTable}

def readMany (selection : Selection) (rendering : Rendering) (startKey : Option WireItem)
    (name : String) : Wire.ReadMany where
  tableName := some name
  indexName := selection.indexName
  filterExpression := rendering.filter
  projectionExpression := rendering.projection
  names := rendering.names
  values := rendering.values
  limit := selection.limit
  consistentRead := selection.consistentRead
  exclusiveStartKey := startKey

/-- The request of a query, for what it selects or for the count alone. -/
def queryAsked (selection : Selection) (rendering : Rendering) (startKey : Option WireItem)
    (select : Option String) (name : String) : Wire.Query :=
  { readMany selection rendering startKey name with
    select
    keyConditionExpression := rendering.keyCondition
    scanIndexForward := if selection.descending then some false else none }

theorem readManyRequest_eq {startKey : Option WireItem}
    (hs : selection.startKey.mapM Item.encode = .ok startKey) (select : Option String)
    (name : String) :
    readManyRequest selection rendering select name =
      .ok { readMany selection rendering startKey name with select } := by
  unfold readManyRequest
  rw [hs]
  rfl

theorem queryRequest_eq {attributes : Catalog} {startKey : Option WireItem}
    (hr : selection.render .query attributes = .ok rendering)
    (hs : selection.startKey.mapM Item.encode = .ok startKey) (select : Option String)
    (name : String) :
    queryRequest selection attributes select name =
      .ok (queryAsked selection rendering startKey select name) := by
  unfold queryRequest
  rw [hr]
  simp only [readManyRequest_eq hs, bind, Except.bind, pure, Except.pure]
  rfl

theorem scanRequest_eq {attributes : Catalog} {startKey : Option WireItem}
    (hr : selection.render .scan attributes = .ok rendering)
    (hs : selection.startKey.mapM Item.encode = .ok startKey) (name : String) :
    scanRequest selection attributes none name =
      .ok { readMany selection rendering startKey name with } := by
  unfold scanRequest
  rw [hr]
  simp only [readManyRequest_eq hs, bind, Except.bind, pure, Except.pure]
  rfl

theorem isSome_keyCondition {attributes : Catalog}
    (hr : selection.render .query attributes = .ok rendering) :
    rendering.keyCondition.isSome = true := by
  obtain ⟨_, key, filter, _, _, hne, rfl⟩ := Selection.render_spec hr
  change (Fragment.text? key).isSome = true
  rw [Fragment.text?, hne rfl]
  rfl

theorem answerPage_eq {request : PageRequest} {page : Page} {reply : Page → Wire.PageReply}
    (hp : Store.readPage stored request = some (.ok page)) :
    state.answerPage (.ok (stored, request)) reply = (.ok (reply page), state) := by
  unfold Store.State.answerPage
  simp only [hp]
  rfl

theorem answerPage_of_panic {request : PageRequest} {reply : Page → Wire.PageReply}
    (hp : Store.readPage stored request = none) :
    state.answerPage (.ok (stored, request)) reply =
      (.error Store.State.sortPanic, { state with panicked := true }) := by
  unfold Store.State.answerPage
  simp only [hp]

theorem queriedPage_eq {startKey : Option WireItem} {name : String} {select : Option String}
    (hk : rendering.keyCondition.isSome = true)
    (hc : select = some Wire.countSelect → rendering.projection = none)
    (h : state.tables.get? name = some stored) :
    state.queriedPage (queryAsked selection rendering startKey select name) =
      .ok (stored, pageRequest .query selection rendering startKey state.pageSize) := by
  have hforward : decide ((if selection.descending then some false else none) = some false) =
      selection.descending := by
    cases selection.descending <;> rfl
  have hpresent : rendering.keyCondition.isNone = false := by
    cases hc : rendering.keyCondition with
    | none => simp [hc] at hk
    | some text => rfl
  have hcounted : (decide (select = some Wire.countSelect) && rendering.projection.isSome) =
      false := by
    rw [Bool.and_eq_false_imp, decide_eq_true_eq]
    intro hs
    rw [hc hs]
    rfl
  unfold Store.State.queriedPage Store.State.pageRequest queryAsked readMany
  simp only [Option.getD_some, Store.State.table_eq_ok h, hforward, hpresent, hcounted,
    Bool.false_eq_true, ↓reduceIte, bind, Except.bind, pure, Except.pure]
  rfl

theorem queryPage_eq {startKey : Option WireItem} {page : Page} {name : String}
    {select : Option String} (hk : rendering.keyCondition.isSome = true)
    (hc : select = some Wire.countSelect → rendering.projection = none)
    (h : state.tables.get? name = some stored)
    (hp : Store.readPage stored
      (pageRequest .query selection rendering startKey state.pageSize) = some (.ok page)) :
    state.queryPage (queryAsked selection rendering startKey select name) =
      (.ok (Store.pageReply select rendering.projection ⟨rendering.names, rendering.values⟩
        page), state) := by
  rw [Store.State.queryPage, queriedPage_eq hk hc h]
  exact answerPage_eq hp

theorem scan_eq_answerPage {startKey : Option WireItem} {name : String}
    (h : state.tables.get? name = some stored) (hserved : state.scanCalls ∉ state.failingScans) :
    state.scan { readMany selection rendering startKey name with } =
      Store.State.answerPage
        (.ok (stored, pageRequest .scan selection rendering startKey state.pageSize))
        (Store.pageReply none rendering.projection ⟨rendering.names, rendering.values⟩)
        { state with scanCalls := state.scanCalls + 1 } := by
  have htable : ({ state with scanCalls := state.scanCalls + 1 } : Store.State).table name =
      .ok stored := Store.State.table_eq_ok h
  unfold Store.State.scan Store.State.scanPage
  rw [if_neg hserved]
  simp only [readMany, Option.getD_some, htable]
  rfl

theorem scan_eq {startKey : Option WireItem} {page : Page} {name : String}
    (h : state.tables.get? name = some stored) (hserved : state.scanCalls ∉ state.failingScans)
    (hp : Store.readPage stored
      (pageRequest .scan selection rendering startKey state.pageSize) = some (.ok page)) :
    state.scan { readMany selection rendering startKey name with } =
      (.ok (Store.pageReply none rendering.projection ⟨rendering.names, rendering.values⟩ page),
        { state with scanCalls := state.scanCalls + 1 }) := by
  rw [scan_eq_answerPage h hserved]
  exact answerPage_eq hp

theorem value_run_query {attributes : Catalog} {select : Option String} {name : String}
    {request : Wire.Query} (h : queryRequest selection attributes select name = .ok request) :
    ((runQuery selection attributes select name).run backend state).value =
      ((state.queryPage request).1.mapError
        (Error.wire Wire.Operation.query.name name)).map ReadOutput.ofReply := by
  unfold runQuery sendIfOk
  simp only [h, Program.value_run_bind, Store.run_query, Program.run_pure]
  rfl

theorem state_run_query {attributes : Catalog} {select : Option String} {name : String}
    {request : Wire.Query} (h : queryRequest selection attributes select name = .ok request) :
    ((runQuery selection attributes select name).run backend state).state =
      (state.queryPage request).2 := by
  unfold runQuery sendIfOk
  simp only [h, Program.state_run_bind, Store.run_query, Program.run_pure]
  rfl

theorem state_run_scan {request : Wire.Scan}
    (h : scanRequest selection table.schema.attributes none table.fullName = .ok request) :
    ((table.scan selection).run backend state).state = (state.scan request).2 := by
  unfold scan runScan sendIfOk
  simp only [h, Program.state_run_bind, Store.run_scan, Program.run_pure]
  rfl

theorem value_run_scan {request : Wire.Scan}
    (h : scanRequest selection table.schema.attributes none table.fullName = .ok request) :
    ((table.scan selection).run backend state).value =
      ((state.scan request).1.mapError
        (Error.wire Wire.Operation.scan.name table.fullName)).map ReadOutput.ofReply := by
  unfold scan runScan sendIfOk
  simp only [h, Program.value_run_bind, Store.run_scan, Program.run_pure]
  rfl

/-- A read gives what its page holds. -/
theorem value_run_read {startKey : Option WireItem} {page : Page}
    (hr : selection.render kind table.schema.attributes = .ok rendering)
    (hs : selection.startKey.mapM Item.encode = .ok startKey)
    (h : state.tables.get? table.fullName = some stored)
    (hserved : kind = .scan → state.scanCalls ∉ state.failingScans)
    (hp : Store.readPage stored
      (pageRequest kind selection rendering startKey state.pageSize) = some (.ok page)) :
    ((table.read kind selection).run backend state).value = .ok (pageOutput rendering page) := by
  cases kind with
  | query =>
    have hwhole : none = some Wire.countSelect → rendering.projection = none := nofun
    refine (value_run_query (queryRequest_eq hr hs none _)).trans ?_
    rw [queryPage_eq (isSome_keyCondition hr) hwhole h hp]
    rfl
  | scan =>
    refine (value_run_scan (scanRequest_eq hr hs _)).trans ?_
    rw [scan_eq h (hserved rfl) hp]
    rfl

/-- A read that panics gives no page and leaves a mark. -/
theorem run_read_of_panic {startKey : Option WireItem}
    (hr : selection.render kind table.schema.attributes = .ok rendering)
    (hs : selection.startKey.mapM Item.encode = .ok startKey)
    (h : state.tables.get? table.fullName = some stored)
    (hserved : kind = .scan → state.scanCalls ∉ state.failingScans)
    (hp : Store.readPage stored
      (pageRequest kind selection rendering startKey state.pageSize) = none) :
    let run := (table.read kind selection).run backend state
    run.state.panicked = true ∧ ∃ cause, run.value = .error cause := by
  intro run
  cases kind with
  | query =>
    have hwhole : none = some Wire.countSelect → rendering.projection = none := nofun
    have hrequest := queryRequest_eq hr hs none table.fullName
    have hstate : run.state = _ := state_run_query hrequest
    have hvalue : run.value = _ := value_run_query hrequest
    rw [Store.State.queryPage, queriedPage_eq (isSome_keyCondition hr) hwhole h,
      answerPage_of_panic hp] at hstate hvalue
    exact ⟨by rw [hstate], _, hvalue⟩
  | scan =>
    have hrequest := scanRequest_eq hr hs table.fullName
    have hstate : run.state = _ := state_run_scan hrequest
    have hvalue : run.value = _ := value_run_scan hrequest
    rw [scan_eq_answerPage h (hserved rfl), answerPage_of_panic hp] at hstate hvalue
    exact ⟨by rw [hstate], _, hvalue⟩

theorem value_run_count {startKey : Option WireItem} {page : Page}
    (hr : { selection with projection := [] }.render .query table.schema.attributes = .ok rendering)
    (hs : selection.startKey.mapM Item.encode = .ok startKey)
    (h : state.tables.get? table.fullName = some stored)
    (hp : Store.readPage stored
      (pageRequest .query selection rendering startKey state.pageSize) = some (.ok page)) :
    ((table.count selection).run backend state).value =
      .ok { pageOutput rendering page with rows := [] } := by
  have hnone : some Wire.countSelect = some Wire.countSelect → rendering.projection = none := by
    intro _
    obtain ⟨_, key, filter, _, _, _, rfl⟩ := Selection.render_spec hr
    rfl
  have hpage := queryPage_eq (isSome_keyCondition hr) hnone h hp
  refine (value_run_query (queryRequest_eq hr hs (some Wire.countSelect) _)).trans ?_
  exact congrArg (fun answer => (Except.mapError _ answer.1).map ReadOutput.ofReply) hpage

/-- The expressions of a read mean what the selection does. -/
theorem evaluate_pageRequest (hb : selection.Built) {attributes : Catalog}
    (hr : selection.render kind attributes = .ok rendering) (startKey : Option WireItem)
    (pageSize : Option Nat) (item : WireItem) :
    let request := pageRequest kind selection rendering startKey pageSize
    Store.evaluate request.keyCondition request.placeholders item =
        .ok (selection.walks attributes kind item) ∧
      Store.evaluate request.filter request.placeholders item =
        .ok (selection.keeps attributes kind item) := by
  have h := Selection.evaluate_render hb attributes item
  cases kind with
  | query => exact h.1 rendering hr
  | scan => exact ⟨rfl, h.2 rendering hr⟩

end Table

end AttributeStore
