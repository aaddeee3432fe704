import AttributeStore.Proofs.Screening
import AttributeStore.Proofs.Table.Flush

/-!
# Batches sent to any store

What a flush in batches sends, and what it makes of the answers, whatever store is behind it. A
`Delivery` is a batch with the answer to it. `run_putBatches_deliver` says that every batch is sent,
also after a failed one, and that what the flush tells and keeps is read off the deliveries one by
one; `settled_deliveries` accounts for all entries when the store gives back nothing but writes of
the batch.
-/

namespace AttributeStore

/-- A batch with what the store answered to it: why it refused the batch, or the entries that it
left undone. -/
structure Delivery where
  batch : List Entry
  answer : Except BackendError (List Entry)

namespace Delivery

/-- The entries that are kept: all of a refused batch, and what was left undone of another. -/
def kept (delivery : Delivery) : List Entry :=
  match delivery.answer with
  | .error _ => delivery.batch
  | .ok undone => undone

def written (delivery : Delivery) : List Entry :=
  match delivery.answer with
  | .error _ => []
  | .ok undone => delivery.batch.filter (· ∉ undone)

def errors (name : String) (delivery : Delivery) : List Error :=
  match delivery.answer with
  | .error cause => [.wire Wire.Operation.batchWriteItem.name name cause]
  | .ok undone => if undone.isEmpty then [] else [.unprocessed name undone.length]

theorem errors_eq_nil_iff {delivery : Delivery} (hne : delivery.batch ≠ []) (name : String) :
    delivery.errors name = [] ↔ delivery.kept = [] := by
  unfold errors kept
  cases delivery.answer with
  | error cause => simp [hne]
  | ok undone => cases undone <;> simp

theorem settled {delivery : Delivery} (hd : delivery.batch.Nodup)
    (hs : delivery.kept.Sublist delivery.batch) :
    Settled delivery.batch delivery.written delivery.kept := by
  unfold written kept at *
  cases hanswer : delivery.answer with
  | error cause => exact ⟨List.nil_sublist _, List.Perm.refl _⟩
  | ok undone =>
    rw [hanswer] at hs
    refine ⟨List.filter_sublist, ?_⟩
    have hundone : undone.Perm (delivery.batch.filter (· ∈ undone)) := by
      rw [List.perm_ext_iff_of_nodup (hs.nodup hd) (hd.sublist List.filter_sublist)]
      intro entry
      rw [List.mem_filter, decide_eq_true_iff]
      exact ⟨fun hm => ⟨hs.subset hm, hm⟩, And.right⟩
    have hsplit := List.filter_append_perm (fun entry => decide (entry ∈ undone)) delivery.batch
    simp only [← decide_not] at hsplit
    exact ((hundone.append_left _).trans List.perm_append_comm).trans hsplit

end Delivery

variable {σ : Type} (server : Backend σ) (name : String)

def batchCall (batch : List Entry) : Call :=
  ⟨.batchWriteItem, batchRequest name (Table.batchWrites batch)⟩

/-- What a store in some state answers to a batch, and the state after it. -/
def answerBatch (batch : List Entry) (state : σ) : Except BackendError Wire.BatchReply × σ :=
  server.answer .batchWriteItem (batchRequest name (Table.batchWrites batch)) state

def deliver (batch : List Entry) (state : σ) : Delivery where
  batch := batch
  answer := (answerBatch server name batch state).1.map fun reply =>
    entriesOf (unprocessedWrites name reply)

/-- Batches sent one after the other, each to the store as the one before left it. -/
def deliveries : List (List Entry) → σ → List Delivery
  | [], _ => []
  | batch :: rest, state =>
    deliver server name batch state :: deliveries rest (answerBatch server name batch state).2

/-- A store gives back nothing but writes of the batch, in their order. -/
def GivesBack : Prop :=
  ∀ (batch : List Entry) (state : σ) (reply : Wire.BatchReply),
    (answerBatch server name batch state).1 = .ok reply →
      ((reply.unprocessed.bind (·.get? name)).getD []).Sublist
        ((Table.batchWrites batch).map Write.toWire)

variable {server name}

theorem exists_of_mem_deliveries {batches : List (List Entry)} {state : σ} {delivery : Delivery}
    (h : delivery ∈ deliveries server name batches state) :
    ∃ batch ∈ batches, ∃ before, delivery = deliver server name batch before := by
  induction batches generalizing state with
  | nil => cases h
  | cons batch rest ih =>
    rcases List.mem_cons.1 h with rfl | h
    · exact ⟨batch, List.mem_cons_self, state, rfl⟩
    · obtain ⟨other, hm, before, hbefore⟩ := ih h
      exact ⟨other, List.mem_cons_of_mem _ hm, before, hbefore⟩

theorem GivesBack.kept_sublist (h : GivesBack server name) {batch : List Entry}
    (hp : ∀ entry ∈ batch, entry.expected.isEmpty = true) (state : σ) :
    (deliver server name batch state).kept.Sublist batch := by
  have hback := h batch state
  unfold Delivery.kept deliver
  dsimp only
  cases hanswer : (answerBatch server name batch state).1 with
  | error cause => exact List.Sublist.refl _
  | ok reply =>
    have hwrites : (unprocessedWrites name reply).Sublist (Table.batchWrites batch) := by
      have hsub := (hback reply hanswer).map Write.ofWire
      rwa [Write.map_ofWire_toWire] at hsub
    have hentries := hwrites.map fun write => ({ item := write.item } : Entry)
    have hbatch := Table.entriesOf_batchWrites hp
    unfold entriesOf at hbatch
    rwa [hbatch] at hentries

/-- Of batches of different entries without expectations, what the store took and what is kept are
all their entries. -/
theorem settled_deliveries (h : GivesBack server name) {batches : List (List Entry)}
    (hd : ∀ batch ∈ batches, batch.Nodup)
    (hp : ∀ entry ∈ batches.flatten, entry.expected.isEmpty = true) (state : σ) :
    Settled batches.flatten ((deliveries server name batches state).flatMap Delivery.written)
      ((deliveries server name batches state).flatMap Delivery.kept) := by
  induction batches generalizing state with
  | nil => exact .nil
  | cons batch rest ih =>
    rw [List.flatten_cons] at hp ⊢
    have hfirst := h.kept_sublist (fun e he => hp e (List.mem_append_left _ he)) state
    have hsettled : Settled batch _ _ :=
      Delivery.settled (hd batch List.mem_cons_self) hfirst
    have hrest := ih (fun b hb => hd b (List.mem_cons_of_mem _ hb))
      (fun e he => hp e (List.mem_append_right _ he)) (answerBatch server name batch state).2
    exact hsettled.append hrest

/-- The store in memory gives back the end of a batch. -/
theorem givesBack_backend (name : String) : GivesBack Store.backend name := by
  intro batch state reply h
  change (state.batchWriteItem (batchRequest name (Table.batchWrites batch))).1 = .ok reply at h
  have hentries : (Named.singleton name ((Table.batchWrites batch).map Write.toWire)).entries =
      [(name, (Table.batchWrites batch).map Write.toWire)] := rfl
  unfold Store.State.batchWriteItem batchRequest at h
  simp only [Option.getD_some, hentries, Store.State.applyWrites] at h
  split at h
  · cases h
  split at h
  · cases h
  split at h
  · cases h
  · obtain rfl := Except.ok.inj h
    rw [getD_unprocessed]
    exact List.drop_sublist _ _

namespace Table

variable (server) (table : Table)

theorem run_callBatch (batch : List Entry) (state : σ) :
    (callTable .batchWriteItem name (batchRequest name (batchWrites batch))).run server state =
      callOutcome .batchWriteItem name (batchRequest name (batchWrites batch))
        (answerBatch server name batch state) :=
  run_callTable server .batchWriteItem name (batchRequest name (batchWrites batch)) state

theorem run_putBatch_deliver {batch : List Entry}
    (hp : ∀ entry ∈ batch, entry.expected.isEmpty = true) (state : σ) :
    let run := (table.putBatch (batchWrites batch)).run server state
    let delivery := deliver server table.fullName batch state
    run.value = ⟨delivery.errors table.fullName, delivery.kept⟩ ∧
      run.state = (answerBatch server table.fullName batch state).2 ∧
      callsOf run.trace = [batchCall table.fullName batch] := by
  unfold putBatch sendBatch deliver Delivery.errors Delivery.kept
  simp only [Program.run_bind, Program.run_pure, run_callBatch, callOutcome]
  generalize answerBatch server table.fullName batch state = outcome
  obtain ⟨answer, after⟩ := outcome
  cases answer with
  | error cause =>
    refine ⟨?_, rfl, rfl⟩
    change Flush.mk _ (entriesOf (batchWrites batch)) = _
    rw [entriesOf_batchWrites hp]
    rfl
  | ok reply =>
    simp only [Except.mapError, Except.map]
    cases unprocessedWrites table.fullName reply with
    | nil => exact ⟨rfl, rfl, rfl⟩
    | cons write rest =>
      refine ⟨?_, rfl, rfl⟩
      simp [entriesOf, Program.run_bind]

/-- Every batch is sent, and what they come to is read off their deliveries in order. -/
theorem run_putBatches_deliver {batches : List (List Entry)}
    (hp : ∀ entry ∈ batches.flatten, entry.expected.isEmpty = true) (state : σ) :
    let run := (table.putBatches (batches.map batchWrites)).run server state
    let sent := deliveries server table.fullName batches state
    run.value =
        ⟨sent.flatMap (Delivery.errors table.fullName), sent.flatMap Delivery.kept⟩ ∧
      callsOf run.trace = batches.map (batchCall table.fullName) := by
  induction batches generalizing state with
  | nil => exact ⟨rfl, rfl⟩
  | cons batch rest ih =>
    rw [List.flatten_cons] at hp
    obtain ⟨hvalue, hstate, hcalls⟩ := table.run_putBatch_deliver server
      (fun e he => hp e (List.mem_append_left _ he)) state
    obtain ⟨hvalue', hcalls'⟩ := ih (fun e he => hp e (List.mem_append_right _ he))
      (answerBatch server table.fullName batch state).2
    rw [List.map_cons, putBatches]
    simp only [Program.run_bind, Program.run_pure, hvalue, hstate, hvalue', callsOf_append, hcalls,
      hcalls']
    refine ⟨rfl, ?_⟩
    rw [show callsOf [] = [] from rfl, List.append_nil, List.singleton_append, List.map_cons]

end Table

end AttributeStore
