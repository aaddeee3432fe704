import AttributeStore.Proofs.Completion
import AttributeStore.Proofs.Table.Delivery
import Mathlib.Data.List.Forall2

/-!
# What a flush accounts for

A flush that is completed, whoever answered its calls, sent only entries that it took, each at most
once. The entries that it keeps are entries that it took as long as no answer gives back a write
that was not in its batch, and its errors speak of entries that it took and of answers to its own
calls.
-/

namespace AttributeStore

open Table (batchWrites)

inductive Carries (name : String) : Call → List Entry → Prop
  | put {entry : Entry} {request : Wire.PutItem} (h : entry.putRequest name = .ok request) :
    Carries name ⟨.putItem, request⟩ [entry]
  | batch {entries : List Entry} (plain : ∀ entry ∈ entries, entry.expected.isEmpty = true) :
    Carries name (batchCall name entries) entries

/-- The answer to a batch gives back nothing but writes of that batch. -/
def Exchange.GivesBack (name : String) (exchange : Exchange) : Prop :=
  ∀ (request : Wire.BatchWrite) (reply : Wire.BatchReply),
    exchange = ⟨.batchWriteItem, request, .ok reply⟩ →
    ∀ write ∈ (reply.unprocessed.bind (·.get? name)).getD [],
      write ∈ (request.requestItems.bind (·.get? name)).getD []

/-- What an error of a flush can speak of: entries that were taken, which were refused, could not be
written, or were sent in a call that failed or left something undone. -/
inductive Speaks (table : Table) (taken : List Entry) (exchanges : List Exchange) : Error → Prop
  | invalid {entry : Entry} {cause : ValidationError} (own : entry ∈ taken)
    (h : entry.validate table.schema = .error cause) :
    Speaks table taken exchanges (.validation cause)
  | refused {entry : Entry} {batch : List Entry} {cause : ValidationError} (own : entry ∈ taken)
    (within : batch ⊆ taken) (h : Screening.Refused table.schema batch entry cause) :
    Speaks table taken exchanges (.validation cause)
  | unwritable {entry : Entry} {cause : CodecError} (own : entry ∈ taken)
    (h : entry.putRequest table.fullName = .error cause) :
    Speaks table taken exchanges (.codec cause)
  | failed {exchange : Exchange} {entries : List Entry} {cause : BackendError}
    (own : entries ⊆ taken) (carries : Carries table.fullName exchange.call entries)
    (made : exchange ∈ exchanges) (h : exchange.answer = .error cause) :
    Speaks table taken exchanges (.wire exchange.operation.name table.fullName cause)
  | undone {request : Wire.BatchWrite} {entries : List Entry} {reply : Wire.BatchReply}
    (own : entries ⊆ taken) (carries : Carries table.fullName ⟨.batchWriteItem, request⟩ entries)
    (made : ⟨.batchWriteItem, request, .ok reply⟩ ∈ exchanges) :
    Speaks table taken exchanges
      (.unprocessed table.fullName (unprocessedWrites table.fullName reply).length)

theorem Speaks.mono {table : Table} {taken taken' : List Entry}
    {exchanges exchanges' : List Exchange} {error : Error}
    (h : Speaks table taken exchanges error) (ht : taken ⊆ taken')
    (he : exchanges ⊆ exchanges') : Speaks table taken' exchanges' error := by
  cases h with
  | invalid own h => exact .invalid (ht own) h
  | refused own within h => exact .refused (ht own) (List.Subset.trans within ht) h
  | unwritable own h => exact .unwritable (ht own) h
  | failed own carries made h => exact .failed (List.Subset.trans own ht) carries (he made) h
  | undone own carries made => exact .undone (List.Subset.trans own ht) carries (he made)

/-- What was sent of the entries taken, and what is kept and told of them. -/
structure Accounts (table : Table) (taken : List Entry) (exchanges : List Exchange)
    (flush : Flush) : Prop where
  carried : ∃ groups, List.Forall₂ (Carries table.fullName) (exchanges.map Exchange.call) groups ∧
    groups.flatten.Sublist taken
  kept : (∀ exchange ∈ exchanges, exchange.GivesBack table.fullName) →
    ∀ entry ∈ flush.items, entry ∈ taken
  told : ∀ error ∈ flush.errors, Speaks table taken exchanges error

namespace Accounts

variable {table : Table} {taken taken' : List Entry} {exchanges exchanges' : List Exchange}
  {flush flush' : Flush}

theorem nil : Accounts table [] [] {} where
  carried := ⟨[], .nil, List.Sublist.refl _⟩
  kept _ _ hm := nomatch hm
  told _ hm := nomatch hm

theorem append (h : Accounts table taken exchanges flush)
    (h' : Accounts table taken' exchanges' flush') :
    Accounts table (taken ++ taken') (exchanges ++ exchanges') (flush.append flush') where
  carried := by
    obtain ⟨groups, hcarry, hsub⟩ := h.carried
    obtain ⟨groups', hcarry', hsub'⟩ := h'.carried
    refine ⟨groups ++ groups', ?_, ?_⟩
    · rw [List.map_append]
      exact List.rel_append hcarry hcarry'
    · rw [List.flatten_append]
      exact hsub.append hsub'
  kept back entry hm := by
    rw [List.forall_mem_append] at back
    rcases List.mem_append.1 hm with hm | hm
    · exact List.mem_append_left _ (h.kept back.1 entry hm)
    · exact List.mem_append_right _ (h'.kept back.2 entry hm)
  told error hm := by
    rcases List.mem_append.1 hm with hm | hm
    · exact (h.told error hm).mono (List.subset_append_left _ _) (List.subset_append_left _ _)
    · exact (h'.told error hm).mono (List.subset_append_right _ _) (List.subset_append_right _ _)

theorem widen (h : Accounts table taken exchanges flush) (hs : taken.Sublist taken') :
    Accounts table taken' exchanges flush where
  carried := by
    obtain ⟨groups, hcarry, hsub⟩ := h.carried
    exact ⟨groups, hcarry, hsub.trans hs⟩
  kept back entry hm := hs.subset (h.kept back entry hm)
  told error hm := (h.told error hm).mono hs.subset (List.Subset.refl _)

end Accounts

namespace Table

variable {table : Table} {exchanges : List Exchange}

/-! ## Entries sent by themselves -/

def failedEntry (entry : Entry) : Option Error → Flush
  | none => {}
  | some cause => ⟨[cause], [entry]⟩

theorem accounts_putEntry {entry : Entry} {failure : Option Error}
    (h : (table.putEntry entry).Completes exchanges failure) :
    Accounts table [entry] exchanges (failedEntry entry failure) := by
  have hunsent : ∀ {cause : Error}, Speaks table [entry] [] cause →
      Accounts table [entry] [] (failedEntry entry (some cause)) := by
    intro cause hspeaks
    exact {
      carried := ⟨[], .nil, List.nil_sublist _⟩
      kept := fun _ _ hm => hm
      told := by
        rintro _ hm
        obtain rfl := List.mem_singleton.1 hm
        exact hspeaks }
  unfold putEntry at h
  cases hvalid : entry.validate table.schema with
  | error cause =>
    rw [hvalid] at h
    obtain ⟨rfl, rfl⟩ := Program.completes_pure_iff.1 h
    exact hunsent (.invalid (List.mem_singleton_self _) hvalid)
  | ok _ =>
    rw [hvalid] at h
    dsimp only at h
    cases hrequest : entry.putRequest table.fullName with
    | error cause =>
      rw [hrequest] at h
      obtain ⟨rfl, rfl⟩ := Program.completes_pure_iff.1 h
      exact hunsent (.unwritable (List.mem_singleton_self _) hrequest)
    | ok request =>
      rw [hrequest] at h
      obtain ⟨_, result, _, hcall, hrest, rfl⟩ := Program.completes_bind_iff.1 h
      obtain ⟨answer, rfl, rfl⟩ := completes_callTable_iff.1 hcall
      have hcarries : Carries table.fullName ⟨.putItem, request⟩ [entry] := .put hrequest
      have hcarried : ∃ groups, List.Forall₂ (Carries table.fullName)
          [⟨.putItem, request⟩] groups ∧ groups.flatten.Sublist [entry] :=
        ⟨[[entry]], .cons hcarries .nil, List.Sublist.refl _⟩
      cases answer with
      | ok reply =>
        obtain ⟨rfl, rfl⟩ := Program.completes_pure_iff.1 hrest
        exact ⟨hcarried, fun _ _ hm => (nomatch hm), fun _ hm => (nomatch hm)⟩
      | error cause =>
        obtain ⟨rfl, rfl⟩ := Program.completes_pure_iff.1 hrest
        refine ⟨hcarried, fun _ _ hm => hm, ?_⟩
        intro error hm
        obtain rfl := List.mem_singleton.1 hm
        exact .failed (List.Subset.refl _) hcarries
          (List.mem_singleton_self (⟨.putItem, request, .error cause⟩ : Exchange)) rfl

theorem accounts_putEntries {entries : List Entry} {flush : Flush}
    (h : (table.putEntries entries).Completes exchanges flush) :
    Accounts table entries exchanges flush := by
  induction entries generalizing exchanges flush with
  | nil =>
    obtain ⟨rfl, rfl⟩ := Program.completes_pure_iff.1 h
    exact .nil
  | cons entry rest ih =>
    obtain ⟨_, failure, _, hfirst, hrest, rfl⟩ := Program.completes_bind_iff.1 h
    obtain ⟨_, later, _, hlater, hpure, rfl⟩ := Program.completes_bind_iff.1 hrest
    have haccounts := (accounts_putEntry hfirst).append (ih hlater)
    cases failure with
    | none =>
      obtain ⟨rfl, rfl⟩ := Program.completes_pure_iff.1 hpure
      rw [List.append_nil]
      exact haccounts
    | some cause =>
      obtain ⟨rfl, rfl⟩ := Program.completes_pure_iff.1 hpure
      rw [List.append_nil]
      exact haccounts

/-! ## Entries sent in batches -/

/-- What comes back of a batch are entries of it, if its answer gives back nothing else. -/
theorem mem_of_givesBack {batch : List Entry} {reply : Wire.BatchReply}
    (plain : ∀ entry ∈ batch, entry.expected.isEmpty = true)
    (back : Exchange.GivesBack table.fullName
      ⟨.batchWriteItem, batchRequest table.fullName (batchWrites batch), .ok reply⟩)
    {entry : Entry} (hm : entry ∈ entriesOf (unprocessedWrites table.fullName reply)) :
    entry ∈ batch := by
  obtain ⟨write, hwrite, rfl⟩ := List.mem_map.1 hm
  obtain ⟨request, hrequest, rfl⟩ := List.mem_map.1 hwrite
  have hsent := back _ reply rfl request hrequest
  have hget : (batchRequest table.fullName (batchWrites batch)).requestItems.bind
      (·.get? table.fullName) = some ((batchWrites batch).map Write.toWire) := by
    unfold batchRequest
    rw [Option.bind_some, Named.get?_singleton, if_pos rfl]
  rw [hget, Option.getD_some] at hsent
  obtain ⟨sent, hwithin, rfl⟩ := List.mem_map.1 hsent
  rw [Write.ofWire_toWire, ← entriesOf_batchWrites plain]
  exact List.mem_map_of_mem hwithin

theorem accounts_putBatch {batch : List Entry} {flush : Flush}
    (plain : ∀ entry ∈ batch, entry.expected.isEmpty = true)
    (h : (table.putBatch (batchWrites batch)).Completes exchanges flush) :
    Accounts table batch exchanges flush := by
  obtain ⟨_, result, _, hsend, hrest, rfl⟩ := Program.completes_bind_iff.1 h
  obtain ⟨_, reply, _, hcall, hpure, rfl⟩ := Program.completes_bind_iff.1 hsend
  obtain ⟨answer, rfl, rfl⟩ := completes_callTable_iff.1 hcall
  obtain ⟨rfl, rfl⟩ := Program.completes_pure_iff.1 hpure
  have hcarries : Carries table.fullName (batchCall table.fullName batch) batch := .batch plain
  have hcarried : ∃ groups, List.Forall₂ (Carries table.fullName)
      [batchCall table.fullName batch] groups ∧ groups.flatten.Sublist batch :=
    ⟨[batch], .cons hcarries .nil, by rw [List.flatten_singleton]⟩
  cases answer with
  | error cause =>
    obtain ⟨rfl, rfl⟩ := Program.completes_pure_iff.1 hrest
    refine ⟨hcarried, ?_, ?_⟩
    · intro _ entry hm
      rwa [entriesOf_batchWrites plain] at hm
    · intro error hm
      obtain rfl := List.mem_singleton.1 hm
      exact .failed (List.Subset.refl _) hcarries (List.mem_singleton_self
        (⟨.batchWriteItem, batchRequest table.fullName (batchWrites batch), .error cause⟩ :
          Exchange)) rfl
  | ok reply =>
    dsimp only [Except.mapError, Except.map] at hrest
    cases hundone : unprocessedWrites table.fullName reply with
    | nil =>
      rw [hundone] at hrest
      obtain ⟨rfl, rfl⟩ := Program.completes_pure_iff.1 hrest
      exact ⟨hcarried, fun _ _ hm => (nomatch hm), fun _ hm => (nomatch hm)⟩
    | cons write rest =>
      rw [hundone] at hrest
      obtain ⟨_, _, _, hemit, hpure, rfl⟩ := Program.completes_bind_iff.1 hrest
      obtain rfl := Program.completes_emit_iff.1 hemit
      obtain ⟨rfl, rfl⟩ := Program.completes_pure_iff.1 hpure
      rw [← hundone]
      refine ⟨hcarried, ?_, ?_⟩
      · intro back entry hm
        exact mem_of_givesBack plain (back _ (List.mem_singleton_self _)) hm
      · intro error hm
        obtain rfl := List.mem_singleton.1 hm
        exact .undone (List.Subset.refl _) hcarries (List.mem_singleton_self _)

theorem accounts_putBatches {batches : List (List Entry)} {flush : Flush}
    (plain : ∀ entry ∈ batches.flatten, entry.expected.isEmpty = true)
    (h : (table.putBatches (batches.map batchWrites)).Completes exchanges flush) :
    Accounts table batches.flatten exchanges flush := by
  induction batches generalizing exchanges flush with
  | nil =>
    obtain ⟨rfl, rfl⟩ := Program.completes_pure_iff.1 h
    exact .nil
  | cons batch rest ih =>
    rw [List.flatten_cons] at plain ⊢
    rw [List.forall_mem_append] at plain
    obtain ⟨_, first, _, hfirst, hrest, rfl⟩ := Program.completes_bind_iff.1 h
    obtain ⟨_, later, _, hlater, hpure, rfl⟩ := Program.completes_bind_iff.1 hrest
    obtain ⟨rfl, rfl⟩ := Program.completes_pure_iff.1 hpure
    rw [List.append_nil]
    exact (accounts_putBatch plain.1 hfirst).append (ih plain.2 hlater)

theorem of_mem_refused {schema : TableSchema} {before entries accepted : List Entry}
    {refused : List (Entry × ValidationError)}
    (h : Screening.Screens schema before entries accepted refused) {entry : Entry}
    {cause : ValidationError} (hm : (entry, cause) ∈ refused) :
    entry ∈ entries ∧
      ∃ batch, batch ⊆ before ++ entries ∧ Screening.Refused schema batch entry cause := by
  induction h with
  | nil => cases hm
  | accept _ _ ih =>
    obtain ⟨hentry, batch, hbatch, hrefused⟩ := ih hm
    rw [List.append_assoc, List.singleton_append] at hbatch
    exact ⟨List.mem_cons_of_mem _ hentry, batch, hbatch, hrefused⟩
  | @refuse before rest accepted first firstCause refused hfirst _ ih =>
    rcases List.mem_cons.1 hm with heq | hm
    · obtain ⟨rfl, rfl⟩ := Prod.mk.inj heq
      exact ⟨List.mem_cons_self, _,
        List.Subset.trans (List.drop_subset _ _) (List.subset_append_left _ _), hfirst⟩
    · obtain ⟨hentry, batch, hbatch, hrefused⟩ := ih hm
      refine ⟨List.mem_cons_of_mem _ hentry, batch, List.Subset.trans hbatch ?_, hrefused⟩
      exact List.append_subset.2 ⟨List.subset_append_left _ _,
        List.Subset.trans (List.subset_cons_self _ _) (List.subset_append_right _ _)⟩

theorem accounts_batchEntries {entries : List Entry} {flush : Flush}
    (h : (table.batchEntries entries).Completes exchanges flush) :
    Accounts table entries exchanges flush := by
  obtain ⟨_, sent, _, hsent, hpure, rfl⟩ := Program.completes_bind_iff.1 h
  obtain ⟨rfl, rfl⟩ := Program.completes_pure_iff.1 hpure
  rw [List.append_nil]
  have hscreens := Screening.screens_screen table.schema entries
  have hsub := @Screening.accepted_sublist table.schema 0 [] entries
  have hplain : ∀ entry ∈ (Screening.screen table.schema 0 [] entries).accepted,
      entry.expected.isEmpty = true := fun _ hm => (Screening.of_mem_accepted hm).1
  generalize Screening.screen table.schema 0 [] entries = screening at *
  have hwrites : chunks batchSize (screening.accepted.map fun entry => Write.put entry.item) =
      (chunks batchSize screening.accepted).map batchWrites :=
    (map_chunks (fun entry : Entry => Write.put entry.item) screening.accepted).symm
  have hflat : (chunks batchSize screening.accepted).flatten = screening.accepted :=
    flatten_chunks (by decide) screening.accepted
  rw [hwrites] at hsent
  have haccounts := accounts_putBatches (by rwa [hflat]) hsent
  rw [hflat] at haccounts
  have hwide := haccounts.widen hsub
  refine ⟨hwide.carried, ?_, ?_⟩
  · intro back entry hm
    rcases List.mem_append.1 hm with hm | hm
    · obtain ⟨⟨_, cause⟩, hrefused, rfl⟩ := List.mem_map.1 hm
      exact (of_mem_refused hscreens hrefused).1
    · exact hwide.kept back entry hm
  · intro error hm
    rcases List.mem_append.1 hm with hm | hm
    · obtain ⟨⟨entry, cause⟩, hrefused, rfl⟩ := List.mem_map.1 hm
      obtain ⟨hentry, batch, hbatch, hcause⟩ := of_mem_refused hscreens hrefused
      exact .refused hentry hbatch hcause
    · exact hwide.told error hm

/-! ## Flushes of the spool -/

theorem accounts_flushWith {name : String} {send : List Entry → Program Flush}
    (hsend : ∀ {exchanges flush}, (send table.spool).Completes exchanges flush →
      Accounts table table.spool exchanges flush)
    {value : Except Error Unit × Table}
    (h : (table.flushWith name send).Completes exchanges value) :
    ∃ flush, Accounts table table.spool exchanges flush ∧
      value = (flush.result, { table with spool := [], errorItems := flush.items }) := by
  obtain ⟨_, _, _, hemit, hrest, rfl⟩ := Program.completes_bind_iff.1 h
  obtain rfl := Program.completes_emit_iff.1 hemit
  obtain ⟨_, flush, _, hflush, hpure, rfl⟩ := Program.completes_bind_iff.1 hrest
  obtain ⟨rfl, rfl⟩ := Program.completes_pure_iff.1 hpure
  rw [List.nil_append, List.append_nil]
  exact ⟨flush, hsend hflush, rfl⟩

end Table

end AttributeStore
