import AttributeStore.Proofs.Table.Delivery
import AttributeStore.Proofs.Table.Written

/-!
# Flushes in batches

The batches that a flush sends and what becomes of the entries that it took. The store may be any:
it answers each batch as it likes. The batches are cut from the accepted entries and are well
formed whatever comes back; and where the store gives back nothing but writes of a batch, every
entry that was staged is written or kept, with an error for each failure.
-/

namespace AttributeStore

open Screening (Screens)

namespace Table

variable {σ : Type} (server : Backend σ) (table : Table) (state : σ)

def batches : List (List Entry) :=
  chunks batchSize (Screening.screen table.schema 0 [] table.spool).accepted

theorem flatten_batches :
    table.batches.flatten = (Screening.screen table.schema 0 [] table.spool).accepted :=
  flatten_chunks (by decide) _

theorem of_mem_batches {entry : Entry} (h : entry ∈ table.batches.flatten) :
    entry.expected.isEmpty = true ∧ HasKey table.schema.keyDefinitions entry.item := by
  rw [flatten_batches] at h
  exact Screening.of_mem_accepted h

theorem nodup_of_mem_batches {batch : List Entry} (h : batch ∈ table.batches) : batch.Nodup :=
  List.Nodup.of_map _ (Screening.identities_nodup h)

theorem run_batchEntries_deliver :
    let run := (table.batchEntries table.spool).run server state
    let refused := (Screening.screen table.schema 0 [] table.spool).flush
    let sent := deliveries server table.fullName table.batches state
    run.value = refused.append
        ⟨sent.flatMap (Delivery.errors table.fullName), sent.flatMap Delivery.kept⟩ ∧
      callsOf run.trace = table.batches.map (batchCall table.fullName) := by
  have hplain : ∀ entry ∈ table.batches.flatten, entry.expected.isEmpty = true :=
    fun entry hm => (table.of_mem_batches hm).1
  obtain ⟨hsent, hcalls⟩ := table.run_putBatches_deliver server hplain state
  have hwrites : chunks batchSize ((Screening.screen table.schema 0 [] table.spool).accepted.map
      fun entry => Write.put entry.item) = table.batches.map batchWrites :=
    (map_chunks (fun entry : Entry => Write.put entry.item) _).symm
  unfold batchEntries
  simp only [Program.run_bind, Program.run_pure, List.append_nil, hwrites, hsent, hcalls]
  exact ⟨trivial, trivial⟩

/-- What a flush in batches sends, tells and keeps. -/
theorem run_batchPut :
    let run := table.batchPut.run server state
    let refused := (Screening.screen table.schema 0 [] table.spool).flush
    let sent := deliveries server table.fullName table.batches state
    run.value =
        (Aggregate.toResult ⟨serviceName,
          refused.errors ++ sent.flatMap (Delivery.errors table.fullName)⟩,
        { table with spool := [], errorItems := refused.items ++ sent.flatMap Delivery.kept }) ∧
      callsOf run.trace = table.batches.map (batchCall table.fullName) := by
  obtain ⟨hvalue, -, hcalls⟩ :=
    run_flushWith server table "batch_put" table.batchEntries state
  obtain ⟨hentries, hsent⟩ := table.run_batchEntries_deliver server state
  refine ⟨?_, hcalls.trans hsent⟩
  rw [batchPut, hvalue, hentries]
  rfl

/-- The batches sent are cut from the accepted entries in their order. Each of them has entries,
at most twenty-five and with different keys, and all but the last are full. A key can recur: after
full batches any entry that was sent is sent again. -/
theorem batchPut_batches_wellFormed :
    ∃ (batches : List (List Entry)) (refused : List (Entry × ValidationError)),
      callsOf (table.batchPut.run server state).trace = batches.map (batchCall table.fullName) ∧
      Screens table.schema [] table.spool batches.flatten refused ∧
      (∀ batch ∈ batches, batch ≠ [] ∧ batch.length ≤ 25 ∧
        (batch.map fun entry => table.schema.keyOf entry.item).Nodup) ∧
      (∀ batch ∈ batches.dropLast, batch.length = 25) ∧
      ∀ entry ∈ batches.flatten, 25 ∣ batches.flatten.length →
        callsOf ((table.addEntry entry).batchPut.run server state).trace =
          (batches ++ [[entry]]).map (batchCall table.fullName) := by
  have hscreens := Screening.screens_screen table.schema table.spool
  refine ⟨table.batches, (Screening.screen table.schema 0 [] table.spool).refused,
    (table.run_batchPut server state).2, ?_, ?_, ?_, ?_⟩
  · rw [flatten_batches]
    exact hscreens
  · intro batch hm
    exact ⟨ne_nil_of_mem_chunksWithin (by decide) hm, length_le_of_mem_chunks hm,
      Screening.keys_nodup hm⟩
  · intro batch hm
    exact length_of_mem_dropLast_chunks (by decide) hm
  · intro entry hm hfull
    obtain ⟨hplain, hkeyed⟩ := table.of_mem_batches hm
    have hfull : batchSize ∣ table.batches.flatten.length := hfull
    rw [flatten_batches] at hfull
    have hjoins := Screening.joins_again hfull hplain hkeyed
    have hagain := Screening.screens_screen table.schema (table.spool ++ [entry])
    obtain ⟨haccepted, -⟩ := hagain.unique (hscreens.snoc hjoins)
    have hbatches : (table.addEntry entry).batches = table.batches ++ [[entry]] := by
      change chunks batchSize (Screening.screen table.schema 0 []
        (table.spool ++ [entry])).accepted = _
      rw [haccepted, chunks_append (by decide) hfull]
      rfl
    rw [((table.addEntry entry).run_batchPut server state).2, hbatches]
    rfl

def numbered (first count : Nat) : List Entry :=
  (List.range' first count).map fun n => ⟨personItem (toString n), ∅⟩

def fullBatch : Table :=
  { peopleTable with spool := numbered 0 25 }

theorem batchPut_batches_fullBatch :
    ∃ batches refused,
      callsOf (fullBatch.batchPut.run Store.backend peopleState).trace =
        batches.map (batchCall "dev_people") ∧
      Screens fullBatch.schema [] fullBatch.spool batches.flatten refused ∧
      batches.flatten = numbered 0 25 ∧
      callsOf
          ((fullBatch.addEntry ⟨personItem "0", ∅⟩).batchPut.run Store.backend peopleState).trace =
        (batches ++ [[⟨personItem "0", ∅⟩]]).map (batchCall "dev_people") := by
  obtain ⟨batches, refused, hcalls, hscreens, -, -, hagain⟩ :=
    batchPut_batches_wellFormed Store.backend fullBatch peopleState
  have hall : batches.flatten = numbered 0 25 := by
    obtain ⟨haccepted, -⟩ :=
      hscreens.unique (Screening.screens_screen fullBatch.schema fullBatch.spool)
    rw [haccepted]
    decide +kernel
  refine ⟨batches, refused, hcalls, hscreens, hall, ?_⟩
  refine hagain ⟨personItem "0", ∅⟩ ?_ ?_
  · rw [hall]
    decide +kernel
  · rw [hall]
    decide +kernel

/-- Every staged entry is accounted for, whatever the store answers: it was refused before anything
was sent, it is kept because its batch was refused or because it came back, or its batch was
taken and it did not come back. Every failure has its error, in the same order. -/
theorem batchPut_accounts_for_each {server : Backend σ} {table : Table}
    (h : GivesBack server table.fullName) (state : σ) :
    let run := table.batchPut.run server state
    ∃ (batches : List (List Entry)) (refused : List (Entry × ValidationError)),
      let sent := deliveries server table.fullName batches state
      Screens table.schema [] table.spool batches.flatten refused ∧
      callsOf run.trace = batches.map (batchCall table.fullName) ∧
      run.value.2 = { table with
        spool := [], errorItems := refused.map Prod.fst ++ sent.flatMap Delivery.kept } ∧
      (∀ delivery ∈ sent, delivery.kept.Sublist delivery.batch) ∧
      Settled table.spool (sent.flatMap Delivery.written) run.value.2.errorItems ∧
      run.value.1 = Aggregate.toResult ⟨serviceName,
        refused.map (fun (_, cause) => .validation cause) ++
          sent.flatMap (Delivery.errors table.fullName)⟩ ∧
      (run.value.1 = .ok () ↔ run.value.2.errorItems = []) := by
  intro run
  refine ⟨table.batches, (Screening.screen table.schema 0 [] table.spool).refused, ?_⟩
  intro sent
  obtain ⟨hvalue, hcalls⟩ := table.run_batchPut server state
  have hplain : ∀ entry ∈ table.batches.flatten, entry.expected.isEmpty = true :=
    fun entry hm => (table.of_mem_batches hm).1
  have hsettled := settled_deliveries h (fun _ hm => table.nodup_of_mem_batches hm) hplain state
  have htable : run.value.2 = _ := congrArg Prod.snd hvalue
  have hresult : run.value.1 = _ := congrArg Prod.fst hvalue
  refine ⟨?_, hcalls, htable, ?_, ?_, hresult, ?_⟩
  · rw [flatten_batches]
    exact Screening.screens_screen table.schema table.spool
  · intro delivery hm
    obtain ⟨batch, hbatch, before, rfl⟩ := exists_of_mem_deliveries hm
    exact h.kept_sublist (fun e he => hplain e (List.mem_flatten_of_mem hbatch he)) before
  · rw [htable]
    rw [flatten_batches] at hsettled
    exact hsettled.screened
  · rw [hresult, htable, toResult_eq_ok_iff]
    have hpairs : ∀ delivery ∈ sent,
        delivery.errors table.fullName = [] ↔ delivery.kept = [] := by
      intro delivery hm
      obtain ⟨batch, hbatch, before, rfl⟩ := exists_of_mem_deliveries hm
      exact Delivery.errors_eq_nil_iff (ne_nil_of_mem_chunksWithin (by decide) hbatch) _
    simp only [List.append_eq_nil_iff, Screening.flush, List.map_eq_nil_iff,
      List.flatMap_eq_nil_iff]
    exact and_congr_right fun _ => forall₂_congr hpairs

/-- The handle with three people more, somebody without an id and somebody who is expected to be
new. -/
def mixedPeople : Table :=
  { peopleTable with
    spool := numbered 0 25 ++ [⟨∅, ∅⟩] ++ numbered 25 3 ++
      [⟨personItem "ada", Roster.ofList [("id", .absent)]⟩] }

/-- A store that refuses the first batch and leaves the last two writes of the others undone. -/
def busyState : Store.State :=
  { peopleState with failingBatches := [0], unprocessedPerBatch := 2 }

theorem batchPut_accounts_mixedPeople :
    GivesBack Store.backend mixedPeople.fullName ∧
    (mixedPeople.batchPut.run Store.backend busyState).value.2.errorItems =
      [⟨∅, ∅⟩, ⟨personItem "ada", Roster.ofList [("id", .absent)]⟩] ++ numbered 0 25 ++
        numbered 26 2 ∧
    (mixedPeople.batchPut.run Store.backend busyState).value.1 ≠ .ok () := by
  have hback := givesBack_backend mixedPeople.fullName
  obtain ⟨batches, refused, -, -, -, -, -, -, hok⟩ := batchPut_accounts_for_each hback busyState
  have hkept : (mixedPeople.batchPut.run Store.backend busyState).value.2.errorItems =
      [⟨∅, ∅⟩, ⟨personItem "ada", Roster.ofList [("id", .absent)]⟩] ++ numbered 0 25 ++
        numbered 26 2 := by
    decide +kernel
  refine ⟨hback, hkept, fun h => ?_⟩
  rw [hok.1 h] at hkept
  cases hkept

end Table

end AttributeStore
