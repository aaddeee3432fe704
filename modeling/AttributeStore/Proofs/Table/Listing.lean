import AttributeStore.Proofs.Placeholders
import AttributeStore.Proofs.Selection.History
import AttributeStore.Proofs.Store.Stable
import AttributeStore.Proofs.Table.Indexed
import AttributeStore.Proofs.Table.Paging

/-!
# What a read lists

A read goes through the items of its table in the order of the key of an index, those that are
equal in it in the order in which they were stored. It evaluates the first of those that match, as
many as its limit and the pages of the store allow, and gives those that satisfy its filter. Queries
and scans differ in what they ask before and after the limit, and a count leaves the rows out.
-/

namespace AttributeStore

open Store (StoredTable Placeholders backend describeCreated IsStableSort WeaklyOrdered)

/-- An item cut to some attributes, or whole when there are none. -/
def WireItem.cutTo (names : List String) (item : WireItem) : WireItem :=
  if names = [] then item else item.filterNames (· ∈ names)

theorem Selection.project_of_render {selection : Selection} {kind : ReadKind}
    {attributes : Catalog} {rendering : Rendering} (hb : selection.Built)
    (hr : selection.render kind attributes = .ok rendering) (item : WireItem) :
    Store.project rendering.projection ⟨rendering.names, rendering.values⟩ item =
      item.cutTo selection.projection := by
  have htext : rendering.projection = (Fragment.projection selection.projection).text? := by
    obtain ⟨_, key, filter, _, _, _, rfl⟩ := render_spec hr
    cases kind <;> rfl
  rw [htext, WireItem.cutTo]
  split
  · rename_i hnone
    rw [hnone]
    rfl
  · rename_i hne
    refine Store.project_projection hne
      (fun name hm => Store.isListable_of_checked (projection_of_render hr name hm))
      (fun name hm => ?_) item
    have hbound := (binds_of_render hb.byRole hr).aliased ("#p_" ++ name, name)
      (List.mem_append_right _ (List.mem_map_of_mem hm))
    unfold Placeholders.name
    rw [if_pos (Store.head?_append rfl name), hbound]

namespace Table

inductive Reading
  | query
  | count
  | scan
deriving DecidableEq

namespace Reading

def kind : Reading → ReadKind
  | query | count => .query
  | scan => .scan

/-- What a read makes of a selection; a count drops the projection. -/
def asked (reading : Reading) (selection : Selection) : Selection :=
  match reading with
  | query | scan => selection
  | count => { selection with projection := [] }

end Reading

def readAs (table : Table) (reading : Reading) (selection : Selection) :
    Program (Except Error ReadOutput) :=
  match reading with
  | .query => table.query selection
  | .count => table.count selection
  | .scan => table.scan selection

/-- How many of a number of items a limit and a page size let through. -/
def letThrough (limit : Option Int) (pageSize : Option Nat) (available : Nat) : Nat :=
  min ((limit.map Int.toNat).getD available) (pageSize.getD available)

/-- What a read tells of the items that it evaluated, the first ones of all that match. -/
structure Lists (schema : TableSchema) (reading : Reading) (selection : Selection)
    (matching evaluated : List WireItem) (output : ReadOutput) : Prop where
  rows : output.rows = if reading = .count then [] else
    (evaluated.filter (selection.keeps schema.attributes reading.kind)).map
      (WireItem.cutTo selection.projection)
  count : output.count =
    (evaluated.filter (selection.keeps schema.attributes reading.kind)).length
  scannedCount : output.scannedCount = evaluated.length
  /-- There is a last key exactly when more items match than were evaluated. -/
  more : (∃ key, output.lastEvaluatedKey = some key) ↔ evaluated.length < matching.length
  last : ∀ key, output.lastEvaluatedKey = some key → ∃ item, evaluated.getLast? = some item ∧
    key = (keyPart schema.keyDefinitions item).decode

variable {table : Table} {reading : Reading} {selection : Selection} {rendering : Rendering}
  {state : Store.State} {stored : StoredTable}

theorem value_run_readAs {page : Store.Page}
    (hr : (reading.asked selection).render reading.kind table.schema.attributes = .ok rendering)
    (hs : selection.startKey = none) (h : state.tables.get? table.fullName = some stored)
    (hserved : reading = .scan → state.scanCalls ∉ state.failingScans)
    (hp : Store.readPage stored
      (pageRequest reading.kind selection rendering none state.pageSize) = some (.ok page)) :
    ((table.readAs reading selection).run backend state).value =
      .ok { pageOutput rendering page with
        rows := if reading = .count then [] else (pageOutput rendering page).rows } := by
  have hstart : selection.startKey.mapM Item.encode = .ok none := by
    rw [hs]
    rfl
  cases reading with
  | query => exact value_run_read hr hstart h (fun hkind => nomatch hkind) hp
  | count => exact value_run_count hr hstart h hp
  | scan => exact value_run_read hr hstart h (fun _ => hserved rfl) hp

/-- The expressions of a read mean what the selection does, with its projection or without. -/
theorem means_of_render {attributes : Catalog} (hb : selection.Built)
    (hr : (reading.asked selection).render reading.kind attributes = .ok rendering)
    (pageSize : Option Nat) (item : WireItem) :
    let request := pageRequest reading.kind selection rendering none pageSize
    Store.evaluate request.keyCondition request.placeholders item =
        .ok (selection.walks attributes reading.kind item) ∧
      Store.evaluate request.filter request.placeholders item =
        .ok (selection.keeps attributes reading.kind item) := by
  cases reading with
  | query => exact evaluate_pageRequest hb hr none pageSize item
  | count => exact evaluate_pageRequest (hb.setProjection []) hr none pageSize item
  | scan => exact evaluate_pageRequest hb hr none pageSize item

theorem take_letThrough {α : Type} (request : Store.PageRequest) (list : List α) :
    list.take (letThrough request.limit request.pageSize list.length) =
      list.take (Store.pageLimit request list.length) := by
  unfold letThrough Store.pageLimit
  cases request.pageSize with
  | none => exact List.take_eq_take_min.symm
  | some size => rfl

theorem lists_pageOutput {matching : List WireItem} {limit : Nat} (hb : selection.Built)
    (hr : (reading.asked selection).render reading.kind table.schema.attributes = .ok rendering)
    (hk : stored.keys = table.schema.keyNames) (hpos : 0 < matching.length → 0 < limit) :
    let page := stored.pageFrom (selection.keeps table.schema.attributes reading.kind) limit
      matching
    Lists table.schema reading selection matching (matching.take limit)
      { pageOutput rendering page with
        rows := if reading = .count then [] else (pageOutput rendering page).rows } := by
  intro page
  have hmore : (matching.take limit).length < matching.length ↔ limit < matching.length := by
    rw [List.length_take]
    omega
  have hkeys : if limit < matching.length then ∃ last, (matching.take limit).getLast? = some last ∧
      (pageOutput rendering page).lastEvaluatedKey =
        some (keyPart table.schema.keyDefinitions last).decode
      else (pageOutput rendering page).lastEvaluatedKey = none := by
    split
    · rename_i hlt
      simp only [← stored.keyOf_eq hk]
      exact lastEvaluatedKey_of_lt (hpos (Nat.zero_lt_of_lt hlt)) hlt
    · rename_i hge
      simp only [pageOutput, page, StoredTable.pageFrom, if_neg hge, Option.map_none]
  constructor
  case rows =>
    cases reading with
    | count => rfl
    | query => exact List.map_congr_left fun item _ => Selection.project_of_render hb hr item
    | scan => exact List.map_congr_left fun item _ => Selection.project_of_render hb hr item
  case count => rfl
  case scannedCount => rfl
  case more =>
    rw [hmore]
    split at hkeys
    · rename_i hlt
      obtain ⟨last, -, hkey⟩ := hkeys
      exact iff_of_true ⟨_, hkey⟩ hlt
    · rename_i hge
      refine iff_of_false ?_ hge
      rintro ⟨key, hkey⟩
      rw [hkeys] at hkey
      cases hkey
  case last =>
    intro key hkey
    split at hkeys
    · obtain ⟨last, hlast, hlastKey⟩ := hkeys
      exact ⟨last, hlast, Option.some.inj (hkey.symm.trans hlastKey)⟩
    · rw [hkeys] at hkey
      cases hkey

/-- A read of a created table lists the items that match in the stable order of the key of its
index, whatever the table holds by now. -/
theorem readAs_lists_matching {namePrefix : String} {asked : TableSchema} {start : Store.State}
    (made : ((create namePrefix asked).run backend start).value = .ok table)
    (hm : stored.MadeFor namePrefix asked) (h : state.tables.get? table.fullName = some stored)
    (ho : WeaklyOrdered (table.schema.indexKeyNames selection.indexName) stored.items)
    (hb : selection.Built) (hs : selection.startKey = none)
    (hr : ∃ rendering,
      (reading.asked selection).render reading.kind table.schema.attributes = .ok rendering)
    (hl : ∀ limit, selection.limit = some limit → 1 ≤ limit)
    (hp : ∀ size, state.pageSize = some size → 1 ≤ size)
    (hserved : reading = .scan → state.scanCalls ∉ state.failingScans) :
    let keys := table.schema.indexKeyNames selection.indexName
    let order := Store.compareItems keys (selection.reverses reading.kind)
    (∃! sorted, IsStableSort order stored.items sorted) ∧
      ∀ sorted, IsStableSort order stored.items sorted →
        let matching := sorted.filter fun item => item.contains keys.hashKey &&
          selection.walks table.schema.attributes reading.kind item
        let evaluated :=
          matching.take (letThrough selection.limit state.pageSize matching.length)
        ∃ output, ((table.readAs reading selection).run backend state).value = .ok output ∧
          Lists table.schema reading selection matching evaluated output := by
  intro keys order
  have hsorted := ho.isStableSort (selection.reverses reading.kind)
  refine ⟨⟨_, hsorted, fun other hother => hother.unique hsorted⟩, ?_⟩
  intro sorted hstable matching evaluated
  obtain rfl := hstable.unique hsorted
  obtain ⟨rendering, hr⟩ := hr
  have told := tells_of_create made
  have hkeys : stored.keys = table.schema.keyNames := hm.keys.trans told.keys_created
  have hmeans (item : WireItem) := means_of_render hb hr state.pageSize item
  let request := pageRequest reading.kind selection rendering none state.pageSize
  have hsort := ho.sortItems?_eq (selection.reverses reading.kind)
  have hwalk : stored.walk (stored.indexKeys selection.indexName)
      (selection.reverses reading.kind) (selection.walks table.schema.attributes reading.kind) =
        matching := by
    rw [hm.indexKeys_eq told, StoredTable.walk, StoredTable.sorted_eq hsort, List.filter_filter]
    exact List.filter_congr fun item _ => Bool.and_comm _ _
  have hpage : Store.readPage stored request =
      some (.ok (stored.pageFrom (selection.keeps table.schema.attributes reading.kind)
        (Store.pageLimit request matching.length) matching)) := by
    rw [← hwalk]
    rw [← hm.indexKeys_eq told] at hsort
    exact Store.readPage_start rfl (StoredTable.sorts_of_eq hsort) (fun item => (hmeans item).1)
      fun item => (hmeans item).2
  have htaken : evaluated = matching.take (Store.pageLimit request matching.length) :=
    take_letThrough request matching
  refine ⟨_, value_run_readAs hr hs h hserved hpage, ?_⟩
  rw [htaken]
  exact lists_pageOutput hb hr hkeys fun hsome => pageLimit_pos hsome hl hp

/-- Two people of one age, a younger one, and one without a team. -/
def teamsStored : StoredTable :=
  { Store.State.created (teams.toCreateRequest "dev_") with
    items := [
      Named.ofList [("id", .leaf (.string "eva")), ("team", .leaf (.string "red")),
        ("age", .leaf (.number "30"))],
      Named.ofList [("id", .leaf (.string "dan"))],
      Named.ofList [("id", .leaf (.string "bob")), ("team", .leaf (.string "red")),
        ("age", .leaf (.number "30.0"))],
      Named.ofList [("id", .leaf (.string "cal")), ("team", .leaf (.string "red")),
        ("age", .leaf (.number "4"))]] }

def teamsState : Store.State :=
  { tables := Named.singleton "dev_people" teamsStored, pageSize := some 2 }

def ofTeam : Selection :=
  .build [.add ⟨"team", .compare .equal (.leaf (.string "red")), .key, .and⟩, .setIndex "by_team",
    .setLimit 3, .setDescending true, .setProjection ["id"]]

example : (((teamsTable.query ofTeam).run backend teamsState).value.map (·.rows)).toOption =
    some [Named.ofList [("id", .leaf (.string "eva"))],
      Named.ofList [("id", .leaf (.string "bob"))]] := by
  decide +kernel

theorem readAs_lists_matching_team :
    ((create "dev_" teams).run backend {}).value = .ok teamsTable ∧
    teamsStored.MadeFor "dev_" teams ∧
    WeaklyOrdered (teamsTable.schema.indexKeyNames ofTeam.indexName) teamsStored.items ∧
    ofTeam.Built ∧
    ∃ sorted output,
      IsStableSort (Store.compareItems ⟨"team", some "age"⟩ true) teamsStored.items sorted ∧
      ((teamsTable.readAs .query ofTeam).run backend teamsState).value = .ok output ∧
      let matching := sorted.filter fun item => item.contains "team" &&
        ofTeam.walks teamsTable.schema.attributes .query item
      Lists teamsTable.schema .query ofTeam matching
        (matching.take (letThrough (some 3) (some 2) matching.length)) output := by
  have hcreated : ((create "dev_" teams).run backend {}).value = .ok teamsTable := rfl
  have hmade : teamsStored.MadeFor "dev_" teams := ⟨rfl, rfl, rfl⟩
  have hordered : WeaklyOrdered (teamsTable.schema.indexKeyNames ofTeam.indexName)
      teamsStored.items := by decide +kernel
  have hbuilt : ofTeam.Built := Selection.built_iff.2 ⟨_, rfl⟩
  have hlimit : ∀ limit, ofTeam.limit = some limit → 1 ≤ limit := by
    rintro _ ⟨⟩
    decide
  have hsize : ∀ size, teamsState.pageSize = some size → 1 ≤ size := by
    rintro _ ⟨⟩
    decide
  have hstored : teamsState.tables.get? teamsTable.fullName = some teamsStored := rfl
  obtain ⟨⟨sorted, hsorted, -⟩, hlists⟩ := readAs_lists_matching hcreated hmade hstored
    hordered hbuilt rfl ⟨_, rfl⟩ hlimit hsize (fun hscan : Reading.query = .scan => nomatch hscan)
  obtain ⟨output, hvalue, houtput⟩ := hlists sorted hsorted
  exact ⟨hcreated, hmade, hordered, hbuilt, sorted, output, hsorted, hvalue, houtput⟩

end Table

end AttributeStore
