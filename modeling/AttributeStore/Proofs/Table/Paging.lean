import AttributeStore.Proofs.Codec
import AttributeStore.Proofs.Selection.History
import AttributeStore.Proofs.Table.Read
import AttributeStore.Proofs.Table.Written
import Mathlib.Algebra.Ring.Int.Defs

/-!
# Reading page by page

A read that is continued from the last key of each page until there is none gives the same rows
as the read without limits, in the same order and with the same counts. Each page is a piece of
one list of candidates, and the last key finds the place where the piece ended, because keys are
unique and come back from their decoded form. If sorting the items panics there are no pages at
all, which takes an index whose order of the items is no weak one and more than twenty of them.
-/

namespace AttributeStore

open Store (StoredTable PageRequest Page backend)

namespace Table

variable {table : Table} {kind : ReadKind} {selection : Selection} {rendering : Rendering}
  {state : Store.State} {stored : StoredTable}

def readWalk (table : Table) (kind : ReadKind) (selection : Selection) (stored : StoredTable) :
    List WireItem :=
  stored.walk (stored.indexKeys selection.indexName) (selection.reverses kind)
    (selection.walks table.schema.attributes kind)

/-- The items can be sorted for a read without a panic. -/
def ReadSorts (kind : ReadKind) (selection : Selection) (stored : StoredTable) : Prop :=
  stored.Sorts (stored.indexKeys selection.indexName) (selection.reverses kind)

/-- Where a read goes on: at the first candidate without a start key, else behind the candidate of
the key. -/
inductive ResumesAt (stored : StoredTable) (all : List WireItem) :
    Option Item → List WireItem → Prop
  | start : ResumesAt stored all none all
  | behind {before after : List WireItem} {last : WireItem}
    (split : all = before ++ last :: after) :
    ResumesAt stored all (some (stored.keyOf last).decode) after

theorem encode_decode_keyOf (hs : table.schema.ScalarKeys) (hk : stored.Keyed table.schema)
    {item : WireItem} (hi : item ∈ stored.items) :
    Item.encode (WireItem.decode (stored.keyOf item)) = .ok (stored.keyOf item) := by
  rw [stored.keyOf_eq hk.names]
  exact WireItem.encode_decode_keyPart hs (hk.complete item hi)

/-- A read that goes on at a place gives the page that begins there. -/
theorem value_run_read_resumed (hs : table.schema.ScalarKeys) (hb : selection.Built)
    (hr : selection.render kind table.schema.attributes = .ok rendering)
    (h : state.tables.get? table.fullName = some stored) (hk : stored.Keyed table.schema)
    (hsorts : ReadSorts kind selection stored)
    (hserved : kind = .scan → state.scanCalls ∉ state.failingScans)
    (limit : Option Int) {startKey : Option Item} {remaining : List WireItem}
    (hres : ResumesAt stored (table.readWalk kind selection stored) startKey remaining) :
    ((table.read kind { selection with limit, startKey }).run backend state).value =
      .ok (pageOutput rendering (stored.pageFrom (selection.keeps table.schema.attributes kind)
        (Store.pageLimit (pageRequest kind { selection with limit } rendering none state.pageSize)
          remaining.length) remaining)) := by
  have hmeans (startKey : Option WireItem) (item : WireItem) :=
    evaluate_pageRequest hb hr startKey state.pageSize item
  cases hres with
  | start =>
    refine value_run_read hr rfl h hserved ?_
    exact Store.readPage_start rfl hsorts (fun item => (hmeans none item).1)
      fun item => (hmeans none item).2
  | behind split =>
    rename_i before last
    have hlast : last ∈ stored.items := by
      apply Store.StoredTable.mem_of_mem_walk
      rw [readWalk] at split
      rw [split]
      exact List.mem_append_right _ List.mem_cons_self
    have hencode : (some (WireItem.decode (stored.keyOf last))).mapM Item.encode =
        .ok (some (stored.keyOf last)) := by
      rw [Option.mapM_some, encode_decode_keyOf hs hk hlast]
      rfl
    refine value_run_read hr hencode h hserved ?_
    exact Store.readPage_behind hk.distinct rfl hsorts split
      (fun item => (hmeans (some (stored.keyOf last)) item).1)
      fun item => (hmeans (some (stored.keyOf last)) item).2

/-! ## Pages one after the other -/

/-- The choices for one page: its limit, and the store that answers it. -/
structure Turn where
  limit : Option Int
  store : Store.State

/-- A turn that reads from the same table with a limit and a page size of at least one, if any,
and is not set to be refused. -/
structure Turn.Reads (table : Table) (kind : ReadKind) (state : Store.State)
    (turn : Turn) : Prop where
  same : turn.store.tables.get? table.fullName = state.tables.get? table.fullName
  limit : ∀ limit, turn.limit = some limit → 1 ≤ limit
  pageSize : ∀ size, turn.store.pageSize = some size → 1 ≤ size
  served : kind = .scan → turn.store.scanCalls ∉ turn.store.failingScans

/-- The outputs of a read that goes on from the last key of each page until there is none; nothing
when a page fails or more pages are needed than allowed. -/
def readPages (table : Table) (kind : ReadKind) (selection : Selection) (turns : Nat → Turn) :
    Nat → Nat → Option Item → Option (List ReadOutput)
  | 0, _, _ => none
  | allowed + 1, page, startKey =>
    let turn := turns page
    let asked := { selection with limit := turn.limit, startKey }
    match ((table.read kind asked).run backend turn.store).value with
    | .error _ => none
    | .ok output =>
      match output.lastEvaluatedKey with
      | none => some [output]
      | some key => (readPages table kind selection turns allowed (page + 1) (some key)).map
        (output :: ·)

theorem pageLimit_pos {request : PageRequest} {available : Nat} (ha : 0 < available)
    (hl : ∀ limit, request.limit = some limit → 1 ≤ limit)
    (hp : ∀ size, request.pageSize = some size → 1 ≤ size) :
    0 < Store.pageLimit request available := by
  have hasked : 0 < (request.limit.map Int.toNat).getD available := by
    cases hlimit : request.limit with
    | none => exact ha
    | some limit =>
      have := hl limit hlimit
      simp only [Option.map_some, Option.getD_some]
      omega
  unfold Store.pageLimit
  cases hsize : request.pageSize with
  | none => exact hasked
  | some size =>
    have := hp size hsize
    exact Nat.lt_min.2 ⟨hasked, this⟩

/-- Outputs that together have the rows and the counts of one. -/
structure Makes (outputs : List ReadOutput) (whole : ReadOutput) : Prop where
  rows : (outputs.map (·.rows)).flatten = whole.rows
  count : (outputs.map (·.count)).sum = whole.count
  scannedCount : (outputs.map (·.scannedCount)).sum = whole.scannedCount

theorem Makes.singleton {output whole : ReadOutput} (hr : output.rows = whole.rows)
    (hc : output.count = whole.count) (hs : output.scannedCount = whole.scannedCount) :
    Makes [output] whole :=
  ⟨by simpa using hr, by simpa using hc, by simpa using hs⟩

theorem ResumesAt.suffix {all remaining : List WireItem} {startKey : Option Item}
    (h : ResumesAt stored all startKey remaining) : ∃ before, all = before ++ remaining := by
  cases h with
  | start => exact ⟨[], rfl⟩
  | behind split =>
    rename_i before last
    exact ⟨before ++ [last], by rw [split, List.append_assoc, List.singleton_append]⟩

theorem ResumesAt.next {all remaining : List WireItem} {startKey : Option Item} {last : WireItem}
    {taken : Nat} (h : ResumesAt stored all startKey remaining)
    (hl : (remaining.take taken).getLast? = some last) :
    ResumesAt stored all (some (stored.keyOf last).decode) (remaining.drop taken) := by
  obtain ⟨before, hall⟩ := h.suffix
  obtain ⟨first, hfirst⟩ := List.getLast?_eq_some_iff.1 hl
  have hsplit : all = (before ++ first) ++ last :: remaining.drop taken := by
    rw [hall, List.append_assoc]
    congr 1
    rw [← List.singleton_append, ← List.append_assoc, ← hfirst, List.take_append_drop]
  exact .behind hsplit

variable (table kind selection rendering stored) in
def outputOf (remaining : List WireItem) : ReadOutput :=
  pageOutput rendering
    (stored.pageFrom (selection.keeps table.schema.attributes kind) remaining.length remaining)

theorem outputOf_eq (remaining : List WireItem) :
    outputOf table kind selection rendering stored remaining =
      { rows := (remaining.filter (selection.keeps table.schema.attributes kind)).map
          (Store.project rendering.projection ⟨rendering.names, rendering.values⟩)
        count := (remaining.filter (selection.keeps table.schema.attributes kind)).length
        scannedCount := remaining.length
        lastEvaluatedKey := none } := by
  simp [outputOf, pageOutput, StoredTable.pageFrom]

/-- A page in front of the outputs of the candidates after it. -/
theorem Makes.cons {remaining : List WireItem} {outputs : List ReadOutput} {taken : Nat}
    (h : Makes outputs (outputOf table kind selection rendering stored (remaining.drop taken))) :
    Makes (pageOutput rendering (stored.pageFrom (selection.keeps table.schema.attributes kind)
        taken remaining) :: outputs)
      (outputOf table kind selection rendering stored remaining) := by
  obtain ⟨hrows, hcount, hscanned⟩ := h
  rw [outputOf_eq] at hrows hcount hscanned ⊢
  have hsplit : remaining.filter (selection.keeps table.schema.attributes kind) =
      (remaining.take taken).filter (selection.keeps table.schema.attributes kind) ++
        (remaining.drop taken).filter (selection.keeps table.schema.attributes kind) := by
    rw [← List.filter_append, List.take_append_drop]
  constructor
  · rw [List.map_cons, List.flatten_cons, hrows]
    dsimp only
    rw [hsplit, List.map_append]
    rfl
  · rw [List.map_cons, List.sum_cons, hcount]
    dsimp only
    rw [hsplit, List.length_append]
    rfl
  · rw [List.map_cons, List.sum_cons, hscanned]
    conv => rhs; rw [← List.take_append_drop taken remaining]
    dsimp only
    rw [List.length_append]
    rfl

theorem lastEvaluatedKey_of_lt {keep : WireItem → Bool} {limit : Nat}
    {remaining : List WireItem} (hpos : 0 < limit) (hlt : limit < remaining.length) :
    ∃ last, (remaining.take limit).getLast? = some last ∧
      (pageOutput rendering (stored.pageFrom keep limit remaining)).lastEvaluatedKey =
        some (stored.keyOf last).decode := by
  have hlast := List.getLast?_eq_some_getLast (Store.take_ne_nil hpos hlt)
  refine ⟨_, hlast, ?_⟩
  simp only [pageOutput, StoredTable.pageFrom, if_pos hlt, hlast, Option.map_some]

theorem Makes.last {remaining : List WireItem} {limit : Nat} (h : ¬limit < remaining.length) :
    let output := pageOutput rendering
      (stored.pageFrom (selection.keeps table.schema.attributes kind) limit remaining)
    output.lastEvaluatedKey = none ∧
      Makes [output] (outputOf table kind selection rendering stored remaining) := by
  have htake : remaining.take limit = remaining := List.take_of_length_le (Nat.le_of_not_lt h)
  refine ⟨?_, ?_⟩
  · simp only [pageOutput, StoredTable.pageFrom, if_neg h, Option.map_none]
  · rw [outputOf_eq]
    refine Makes.singleton ?_ ?_ ?_
    · simp [pageOutput, StoredTable.pageFrom, htake]
    · simp [pageOutput, StoredTable.pageFrom, htake]
    · simp [pageOutput, StoredTable.pageFrom, htake]

/-- Pages that go on at a place make what the remaining candidates give at once. -/
theorem readPages_of_resumesAt (hs : table.schema.ScalarKeys) (hb : selection.Built)
    (hr : selection.render kind table.schema.attributes = .ok rendering)
    (h : state.tables.get? table.fullName = some stored) (hk : stored.Keyed table.schema)
    (hsorts : ReadSorts kind selection stored) {turns : Nat → Turn}
    (hturns : ∀ page, (turns page).Reads table kind state)
    {allowed page : Nat} {startKey : Option Item} {remaining : List WireItem}
    (ha : remaining.length < allowed)
    (hres : ResumesAt stored (table.readWalk kind selection stored) startKey remaining) :
    ∃ outputs, table.readPages kind selection turns allowed page startKey = some outputs ∧
      Makes outputs (outputOf table kind selection rendering stored remaining) := by
  induction allowed generalizing page startKey remaining with
  | zero => exact (Nat.not_lt_zero _ ha).elim
  | succ allowed ih =>
    have hturn := hturns page
    have hvalue := value_run_read_resumed hs hb hr (hturn.same.trans h) hk hsorts hturn.served
      (turns page).limit hres
    unfold readPages
    simp only [hvalue]
    generalize hl : Store.pageLimit _ remaining.length = limit
    by_cases hlt : limit < remaining.length
    · have hpos : 0 < limit := by
        rw [← hl]
        exact pageLimit_pos (by omega) hturn.limit hturn.pageSize
      obtain ⟨last, hlast, hkey⟩ := lastEvaluatedKey_of_lt hpos hlt
      have hshorter : (remaining.drop limit).length < allowed := by
        rw [List.length_drop]
        omega
      obtain ⟨outputs, houtputs, hmakes⟩ : ∃ outputs,
          table.readPages kind selection turns allowed (page + 1)
            (some (stored.keyOf last).decode) = some outputs ∧ Makes outputs _ :=
        ih hshorter (hres.next hlast)
      rw [hkey]
      simp only [houtputs, Option.map_some]
      exact ⟨_, rfl, hmakes.cons⟩
    · obtain ⟨hkey, hmakes⟩ := Makes.last hlt
      rw [hkey]
      exact ⟨_, rfl, hmakes⟩

theorem length_readWalk_le (table : Table) (kind : ReadKind) (selection : Selection)
    (stored : StoredTable) :
    (table.readWalk kind selection stored).length ≤ stored.items.length :=
  (stored.walk_subperm _ _ _).length_le

/-- There is no panic for an order of the index that is a weak one of the items, nor for at most
twenty items. -/
theorem readSorts_of_weaklyOrdered_or_length_le
    (h : Store.WeaklyOrdered (stored.indexKeys selection.indexName) stored.items ∨
      stored.items.length ≤ 20) :
    ReadSorts kind selection stored := by
  rcases h with hweak | hshort
  · exact StoredTable.sorts_of_eq (hweak.sortItems?_eq _)
  · exact StoredTable.sorts_of_eq (Store.sortItems?_of_length_le hshort _ _)

/-- A read from the start panics at a turn, and so leaves its mark where there was none. -/
def Turn.Panics (table : Table) (kind : ReadKind) (selection : Selection) (turn : Turn) : Prop :=
  ((table.read kind { selection with limit := turn.limit, startKey := none }).run backend
    { turn.store with panicked := false }).state.panicked = true

/-- Where the items cannot be sorted, every read panics and there are no pages. -/
theorem panics_of_not_readSorts
    (hr : selection.render kind table.schema.attributes = .ok rendering)
    (h : state.tables.get? table.fullName = some stored)
    (hsorts : ¬ ReadSorts kind selection stored) {turns : Nat → Turn}
    (hturns : ∀ page, (turns page).Reads table kind state) :
    (∀ page, (turns page).Panics table kind selection) ∧
      ∀ allowed, table.readPages kind selection turns allowed 0 none = none := by
  have hpanic (page : Nat) (marked : Bool) :
      let run := (table.read kind
        { selection with limit := (turns page).limit, startKey := none }).run backend
          { (turns page).store with panicked := marked }
      run.state.panicked = true ∧ ∃ cause, run.value = .error cause :=
    run_read_of_panic hr rfl ((hturns page).same.trans h) (hturns page).served
      (Store.readPage_of_not_sorts hsorts)
  refine ⟨fun page => (hpanic page false).1, fun allowed => ?_⟩
  cases allowed with
  | zero => rfl
  | succ allowed =>
    obtain ⟨-, cause, hvalue⟩ := hpanic 0 (turns 0).store.panicked
    unfold readPages
    simp only [hvalue]

/-- Reading a written table page by page loses and repeats nothing, unless sorting its items panics:
whatever limits and page sizes are chosen for the pages, there is a last page, and together the
pages make what the read without limit and page size gives. If the sort panics, so does every read
from the start, with limits and without. -/
theorem readPages_make_whole (hw : table.Written state) (hs : table.schema.ScalarKeys)
    (hb : selection.Built) (hr : selection.render kind table.schema.attributes = .ok rendering)
    {whole : Store.State} (hwhole : Turn.Reads table kind state ⟨none, whole⟩)
    (hsize : whole.pageSize = none) {turns : Nat → Turn}
    (hturns : ∀ page, (turns page).Reads table kind state) :
    ∃ stored, state.tables.get? table.fullName = some stored ∧
      (Store.WeaklyOrdered (stored.indexKeys selection.indexName) stored.items ∨
        stored.items.length ≤ 20 → ReadSorts kind selection stored) ∧
      (ReadSorts kind selection stored → ∃ output,
        ((table.read kind { selection with limit := none, startKey := none }).run backend
          whole).value = .ok output ∧
        output.lastEvaluatedKey = none ∧
        ∀ allowed, stored.items.length < allowed →
          ∃ outputs, table.readPages kind selection turns allowed 0 none = some outputs ∧
            Makes outputs output) ∧
      (¬ ReadSorts kind selection stored →
        Turn.Panics table kind selection ⟨none, whole⟩ ∧
        (∀ page, (turns page).Panics table kind selection) ∧
        ∀ allowed, table.readPages kind selection turns allowed 0 none = none) := by
  obtain ⟨stored, h, hk⟩ := hw.holds
  refine ⟨stored, h, readSorts_of_weaklyOrdered_or_length_le, fun hsorts => ?_, fun hsorts => ?_⟩
  · refine ⟨outputOf table kind selection rendering stored (table.readWalk kind selection stored),
      ?_, ?_, ?_⟩
    · have hvalue := value_run_read_resumed hs hb hr (hwhole.same.trans h) hk hsorts
        hwhole.served none .start
      rw [hvalue, hsize]
      rfl
    · rw [outputOf_eq]
    · intro allowed ha
      have hlength := length_readWalk_le table kind selection stored
      exact readPages_of_resumesAt hs hb hr h hk hsorts hturns (by omega) .start
  · obtain ⟨hwholePanics, -⟩ := panics_of_not_readSorts hr h hsorts fun _ => hwhole
    exact ⟨hwholePanics 0, panics_of_not_readSorts hr h hsorts hturns⟩

def peopleTurn : Turn :=
  { limit := some 1, store := { peopleState with pageSize := some 2 } }

theorem readPages_people :
    peopleTable.Written peopleState ∧ peopleTable.schema.ScalarKeys ∧
    ∃ output outputs,
      ((peopleTable.read .scan {}).run backend peopleState).value = .ok output ∧
      peopleTable.readPages .scan {} (fun _ => peopleTurn) 4 0 none = some outputs ∧
      Makes outputs output := by
  have hscalar : peopleTable.schema.ScalarKeys := by decide
  have hwhole : Turn.Reads peopleTable .scan peopleState ⟨none, peopleState⟩ :=
    ⟨rfl, nofun, nofun, fun _ => List.not_mem_nil⟩
  have hturn (page : Nat) : Turn.Reads peopleTable .scan peopleState peopleTurn := by
    refine ⟨rfl, ?_, ?_, fun _ => List.not_mem_nil⟩
    · rintro _ ⟨⟩
      decide
    · rintro _ ⟨⟩
      decide
  obtain ⟨stored, hstored, hsorts, hwholeRead, -⟩ := readPages_make_whole
    written_people hscalar .new rfl hwhole rfl hturn
  have hlength : stored.items.length = 3 := by
    have hitems : (peopleState.items peopleTable.fullName).length = 3 := by decide +kernel
    rwa [Store.State.items_eq hstored] at hitems
  obtain ⟨output, hvalue, -, hpages⟩ := hwholeRead (hsorts (.inr (by omega)))
  obtain ⟨outputs, houtputs, hmakes⟩ := hpages 4 (by omega)
  exact ⟨written_people, hscalar, output, outputs, hvalue, houtputs, hmakes⟩

/-- People by id, with an index by team and age. -/
def teams : TableSchema :=
  { people with
    attributes := Roster.ofList [⟨"id", .string⟩, ⟨"team", .string⟩, ⟨"age", .number⟩]
    globalIndexes := [⟨"by_team", .globalIndex, "team", some "age", .all, some ⟨1, 1⟩⟩] }

def teamsTable : Table :=
  { namePrefix := "dev_", schema := { teams with status := some Wire.activeStatus } }

def redTeam : Selection :=
  .build [.add ⟨"team", .compare .equal (.leaf (.string "red")), .key, .and⟩, .setIndex "by_team"]

/-- A team in which the age of every third one is a text. -/
def mixedTeam : List WireItem :=
  (List.range 21).map fun place =>
    let age := if place % 3 = 0 then .string "old" else .number (Decimal.integerText (21 - place))
    Named.ofList [("id", .leaf (.string (Decimal.integerText place))),
      ("team", .leaf (.string "red")), ("age", .leaf age)]

def mixedTeamState : Store.State :=
  let staged : Table := { teamsTable with spool := mixedTeam.map fun item => ⟨item, ∅⟩ }
  (staged.put.run backend ((Table.create "dev_" teams).run backend {}).state).state

/-- A table that was written through a handle can hold items of which a read of an index panics. -/
theorem read_of_mixedTeam_panics :
    teamsTable.Written mixedTeamState ∧ teamsTable.schema.ScalarKeys ∧ redTeam.Built ∧
      (redTeam.render .query teamsTable.schema.attributes).toOption.isSome = true ∧
      Turn.Reads teamsTable .query mixedTeamState ⟨none, mixedTeamState⟩ ∧
      mixedTeamState.pageSize = none ∧
      Turn.Panics teamsTable .query redTeam ⟨none, mixedTeamState⟩ := by
  refine ⟨.put (.create rfl (.refl teamsTable)) ⟨rfl, rfl, rfl⟩, by decide,
    Selection.built_iff.2 ⟨_, rfl⟩, by decide +kernel, ⟨rfl, nofun, ?_, nofun⟩, ?_, ?_⟩
  · decide +kernel
  · decide +kernel
  · unfold Turn.Panics
    decide +kernel

end Table

end AttributeStore
