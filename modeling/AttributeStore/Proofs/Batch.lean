import AttributeStore.Proofs.Keys
import AttributeStore.Table.Flush

/-!
# Batches of entries

How a flush in batches divides the staged entries. Screening splits them into accepted and refused
ones without losing any; the accepted ones are cut into batches; and the keys of a batch differ,
because screening forgets the keys it has seen exactly where the cuts are made.
-/

namespace AttributeStore

section Chunks

variable {α β : Type} {size : Nat}

theorem flatten_chunksWithin (hs : 0 < size) {bound : Nat} {list : List α}
    (h : list.length ≤ bound) : (chunksWithin size bound list).flatten = list := by
  induction bound generalizing list with
  | zero =>
    rw [List.length_eq_zero_iff.1 (Nat.le_zero.1 h)]
    rfl
  | succ bound ih =>
    unfold chunksWithin
    cases list with
    | nil => rfl
    | cons head rest =>
      have hlen : ((head :: rest).drop size).length ≤ bound := by
        rw [List.length_drop]
        rw [List.length_cons] at h ⊢
        omega
      simp only [List.isEmpty_cons, Bool.false_eq_true, ↓reduceIte, List.flatten_cons]
      rw [ih hlen, List.take_append_drop]

theorem flatten_chunks (hs : 0 < size) (list : List α) : (chunks size list).flatten = list :=
  flatten_chunksWithin hs (Nat.le_refl _)

theorem chunksWithin_congr (hs : 0 < size) {bound bound' : Nat} {list : List α}
    (h : list.length ≤ bound) (h' : list.length ≤ bound') :
    chunksWithin size bound list = chunksWithin size bound' list := by
  induction bound generalizing list bound' with
  | zero =>
    rw [List.length_eq_zero_iff.1 (Nat.le_zero.1 h)]
    cases bound' <;> rfl
  | succ bound ih =>
    cases list with
    | nil => cases bound' <;> rfl
    | cons head rest =>
      cases bound' with
      | zero => cases h'
      | succ bound' =>
        rw [List.length_cons] at h h'
        have hdrop : ((head :: rest).drop size).length ≤ bound := by
          rw [List.length_drop, List.length_cons]
          omega
        have hdrop' : ((head :: rest).drop size).length ≤ bound' := by
          rw [List.length_drop, List.length_cons]
          omega
        unfold chunksWithin
        rw [ih hdrop hdrop']

theorem chunks_eq_cons (hs : 0 < size) {list : List α} (hne : list ≠ []) :
    chunks size list = list.take size :: chunks size (list.drop size) := by
  cases list with
  | nil => exact (hne rfl).elim
  | cons head rest =>
    rw [chunks, chunks, List.length_cons, chunksWithin]
    simp only [List.isEmpty_cons, Bool.false_eq_true, ↓reduceIte, List.cons.injEq, true_and]
    refine chunksWithin_congr hs ?_ (Nat.le_refl _)
    rw [List.length_drop, List.length_cons]
    omega

theorem map_chunksWithin (f : α → β) (bound : Nat) (list : List α) :
    (chunksWithin size bound list).map (List.map f) = chunksWithin size bound (list.map f) := by
  induction bound generalizing list with
  | zero => rfl
  | succ bound ih =>
    unfold chunksWithin
    cases list with
    | nil => rfl
    | cons head rest =>
      rw [List.map_cons]
      simp only [List.isEmpty_cons, Bool.false_eq_true, ↓reduceIte, List.map_cons]
      rw [ih, List.map_take, List.map_drop, List.map_cons]

theorem map_chunks (f : α → β) (list : List α) :
    (chunks size list).map (List.map f) = chunks size (list.map f) := by
  rw [chunks, chunks, map_chunksWithin, List.length_map]

theorem chunks_append (hs : 0 < size) {list : List α} (h : size ∣ list.length)
    (more : List α) : chunks size (list ++ more) = chunks size list ++ chunks size more := by
  obtain ⟨count, hcount⟩ := h
  induction count generalizing list with
  | zero =>
    obtain rfl : list = [] := List.length_eq_zero_iff.1 hcount
    rfl
  | succ count ih =>
    have hle : size ≤ list.length := by
      rw [hcount, Nat.mul_succ]
      omega
    have hne : list ≠ [] := by
      rintro rfl
      exact Nat.not_lt.2 hle hs
    have hdrop : (list.drop size).length = size * count := by
      rw [List.length_drop, hcount, Nat.mul_succ, Nat.add_sub_cancel]
    have htake : (list ++ more).take size = list.take size := List.take_append_of_le_length hle
    have hrest : (list ++ more).drop size = list.drop size ++ more :=
      List.drop_append_of_le_length hle
    rw [chunks_eq_cons hs (List.append_ne_nil_of_left_ne_nil hne more), chunks_eq_cons hs hne,
      htake, hrest, ih hdrop, List.cons_append]

theorem length_of_mem_dropLast_chunks (hs : 0 < size) {list chunk : List α}
    (h : chunk ∈ (chunks size list).dropLast) : chunk.length = size := by
  induction hn : list.length using Nat.strongRecOn generalizing list with
  | ind n ih =>
    by_cases hempty : list = []
    · subst hempty
      cases h
    by_cases hlast : list.drop size = []
    · rw [chunks_eq_cons hs hempty, hlast] at h
      cases h
    have hlt : size < list.length := by
      have := mt List.drop_eq_nil_iff.2 hlast
      omega
    have hmore : chunks size (list.drop size) ≠ [] := by
      rw [chunks_eq_cons hs hlast]
      exact List.cons_ne_nil _ _
    rw [chunks_eq_cons hs hempty, List.dropLast_cons_of_ne_nil hmore] at h
    rcases List.mem_cons.1 h with rfl | h
    · rw [List.length_take]
      omega
    · have hshorter : (list.drop size).length < n := by
        rw [List.length_drop]
        omega
      exact ih _ hshorter h rfl

theorem ne_nil_of_mem_chunksWithin (hs : 0 < size) {bound : Nat} {list chunk : List α}
    (h : chunk ∈ chunksWithin size bound list) : chunk ≠ [] := by
  induction bound generalizing list with
  | zero => cases h
  | succ bound ih =>
    unfold chunksWithin at h
    split at h
    · cases h
    · rename_i hne
      rcases List.mem_cons.1 h with rfl | h
      · have hsome : list ≠ [] := mt List.isEmpty_iff.2 hne
        have hpos := List.length_pos_iff.2 hsome
        rw [← List.length_pos_iff, List.length_take]
        omega
      · exact ih h

/-- A chunk is what stands in the list from a multiple of the size on. -/
theorem exists_of_mem_chunksWithin {bound : Nat} {list chunk : List α}
    (h : chunk ∈ chunksWithin size bound list) :
    ∃ k, chunk = (list.drop (size * k)).take size := by
  induction bound generalizing list with
  | zero => cases h
  | succ bound ih =>
    unfold chunksWithin at h
    split at h
    · cases h
    · rcases List.mem_cons.1 h with rfl | h
      · exact ⟨0, rfl⟩
      · obtain ⟨k, rfl⟩ := ih h
        exact ⟨k + 1, by rw [List.drop_drop, Nat.mul_succ, Nat.add_comm]⟩

theorem length_le_of_mem_chunks {list chunk : List α} (h : chunk ∈ chunks size list) :
    chunk.length ≤ size := by
  obtain ⟨k, rfl⟩ := exists_of_mem_chunksWithin h
  rw [List.length_take]
  exact Nat.min_le_left _ _

end Chunks

namespace Screening

variable {schema : TableSchema}

/-- The identity of the key of an entry that has one. -/
def entryIdentity (schema : TableSchema) (entry : Entry) : KeyIdentity :=
  keyIdentity (keyPart schema.keyDefinitions entry.item)

/-- An entry joins a batch when it expects nothing, has a key, and no other of the batch has its
identity. -/
theorem joinBatch_eq_ok_iff (held : List KeyIdentity) (entry : Entry) (identity : KeyIdentity) :
    joinBatch schema held entry = .ok identity ↔
      entry.expected.isEmpty = true ∧ HasKey schema.keyDefinitions entry.item ∧
        identity = entryIdentity schema entry ∧ identity ∉ held := by
  unfold joinBatch
  cases he : entry.expected.isEmpty with
  | false => simp [bind, Except.bind, throw, throwThe, MonadExceptOf.throw]
  | true =>
    simp only [Bool.not_true, Bool.false_eq_true, ↓reduceIte, bind, Except.bind, pure,
      Except.pure, true_and]
    cases hk : schema.keyOf entry.item with
    | error cause =>
      simp only [reduceCtorEq, false_iff, not_and]
      intro hkey
      rw [TableSchema.keyOf_of_hasKey hkey] at hk
      cases hk
    | ok key =>
      obtain ⟨hkey, rfl⟩ := (schema.keyOf_eq_ok_iff _ _).1 hk
      simp only [hkey, true_and]
      change (if entryIdentity schema entry ∈ held then _ else _) = _ ↔ _
      split
      · rename_i hm
        simp only [throw, throwThe, MonadExceptOf.throw, reduceCtorEq, false_iff, not_and]
        rintro rfl hfresh
        exact hfresh hm
      · rename_i hm
        simp only [Except.ok.injEq]
        constructor
        · rintro rfl
          exact ⟨rfl, hm⟩
        · rintro ⟨rfl, -⟩
          rfl

/-- The keys held for the batch that the next entry would join. -/
def heldAt (count : Nat) (held : List KeyIdentity) : List KeyIdentity :=
  if count % batchSize = 0 then [] else held

theorem screen_cons (count : Nat) (held : List KeyIdentity) (entry : Entry) (rest : List Entry) :
    screen schema count held (entry :: rest) =
      match joinBatch schema (heldAt count held) entry with
      | .ok identity =>
        let later := screen schema (count + 1) (identity :: heldAt count held) rest
        { later with accepted := entry :: later.accepted }
      | .error cause =>
        let later := screen schema count (heldAt count held) rest
        { later with refused := (entry, cause) :: later.refused } := rfl

theorem accepted_sublist (count : Nat) (held : List KeyIdentity) (entries : List Entry) :
    (screen schema count held entries).accepted.Sublist entries := by
  induction entries generalizing count held with
  | nil => exact List.Sublist.refl _
  | cons entry rest ih =>
    rw [screen_cons]
    split
    · exact (ih _ _).cons_cons entry
    · exact (ih _ _).cons entry

/-- Screening loses no entry and repeats none. -/
theorem accepted_append_refused_perm (count : Nat) (held : List KeyIdentity)
    (entries : List Entry) :
    ((screen schema count held entries).accepted ++
      (screen schema count held entries).refused.map Prod.fst).Perm entries := by
  induction entries generalizing count held with
  | nil => exact List.Perm.refl _
  | cons entry rest ih =>
    rw [screen_cons]
    split
    · exact (ih _ _).cons entry
    · rw [List.map_cons]
      exact List.perm_middle.trans ((ih _ _).cons entry)

theorem of_mem_accepted {count : Nat} {held : List KeyIdentity} {entries : List Entry}
    {entry : Entry} (h : entry ∈ (screen schema count held entries).accepted) :
    entry.expected.isEmpty = true ∧ HasKey schema.keyDefinitions entry.item := by
  induction entries generalizing count held with
  | nil => cases h
  | cons first rest ih =>
    rw [screen_cons] at h
    split at h
    · rename_i identity hj
      rcases List.mem_cons.1 h with rfl | h
      · obtain ⟨he, hk, -⟩ := (joinBatch_eq_ok_iff _ _ _).1 hj
        exact ⟨he, hk⟩
      · exact ih h
    · exact ih h

/-- Two entries of one batch have different identities, and those that still fit into the batch
that is being filled have none of the identities held. -/
structure Separate (schema : TableSchema) (count : Nat) (held : List KeyIdentity)
    (accepted : List Entry) : Prop where
  pair : ∀ i j (hi : i < accepted.length) (hj : j < accepted.length), i < j →
    (count + i) / batchSize = (count + j) / batchSize →
    entryIdentity schema accepted[i] ≠ entryIdentity schema accepted[j]
  fresh : ∀ i (hi : i < accepted.length), (count + i) / batchSize = count / batchSize →
    entryIdentity schema accepted[i] ∉ heldAt count held

/-- What follows in the same batch is screened against the identities held and one more. -/
theorem heldAt_succ {count i : Nat} (h : (count + (i + 1)) / batchSize = count / batchSize)
    (identities : List KeyIdentity) :
    heldAt (count + 1) identities = identities ∧
      (count + 1 + i) / batchSize = (count + 1) / batchSize := by
  unfold batchSize at h ⊢
  refine ⟨if_neg ?_, ?_⟩
  · unfold batchSize
    omega
  · omega

theorem Separate.cons {count : Nat} {held : List KeyIdentity} {entry : Entry}
    {accepted : List Entry} (hfresh : entryIdentity schema entry ∉ heldAt count held)
    (h : Separate schema (count + 1) (entryIdentity schema entry :: heldAt count held) accepted) :
    Separate schema count held (entry :: accepted) := by
  have hlater {i : Nat} (hi : i < accepted.length)
      (hbatch : (count + (i + 1)) / batchSize = count / batchSize) :
      entryIdentity schema accepted[i] ≠ entryIdentity schema entry ∧
        entryIdentity schema accepted[i] ∉ heldAt count held := by
    obtain ⟨hheld, hroom⟩ := heldAt_succ hbatch (entryIdentity schema entry :: heldAt count held)
    have hout := h.fresh i hi hroom
    rwa [hheld, List.mem_cons, not_or] at hout
  constructor
  · intro i j hi hj hlt hbatch
    obtain ⟨j, rfl⟩ : ∃ k, j = k + 1 := ⟨j - 1, by omega⟩
    cases i with
    | zero => exact (hlater (Nat.lt_of_succ_lt_succ hj) hbatch.symm).1.symm
    | succ i =>
      refine h.pair i j (Nat.lt_of_succ_lt_succ hi) (Nat.lt_of_succ_lt_succ hj)
        (Nat.lt_of_succ_lt_succ hlt) ?_
      rw [Nat.add_right_comm count 1 i, Nat.add_right_comm count 1 j]
      exact hbatch
  · intro i hi hbatch
    cases i with
    | zero => exact hfresh
    | succ i => exact (hlater (Nat.lt_of_succ_lt_succ hi) hbatch).2

theorem separate_screen (schema : TableSchema) (count : Nat) (held : List KeyIdentity)
    (entries : List Entry) :
    Separate schema count held (screen schema count held entries).accepted := by
  induction entries generalizing count held with
  | nil =>
    exact ⟨fun i _ hi => absurd hi (Nat.not_lt_zero i), fun i hi => absurd hi (Nat.not_lt_zero i)⟩
  | cons entry rest ih =>
    rw [screen_cons]
    split
    · rename_i identity hjoin
      obtain ⟨-, -, rfl, hfresh⟩ := (joinBatch_eq_ok_iff _ _ _).1 hjoin
      exact (ih (count + 1) (entryIdentity schema entry :: heldAt count held)).cons hfresh
    · obtain ⟨hpair, hfresh⟩ := ih count (heldAt count held)
      refine ⟨hpair, ?_⟩
      intro i hi hbatch
      have hout := hfresh i hi hbatch
      unfold heldAt at hout ⊢
      split
      · exact List.not_mem_nil
      · rename_i h
        simpa only [h, ↓reduceIte] using hout

/-- The entries of one batch have different identities. -/
theorem identities_nodup {entries batch : List Entry}
    (h : batch ∈ chunks batchSize (screen schema 0 [] entries).accepted) :
    (batch.map (entryIdentity schema)).Nodup := by
  obtain ⟨k, rfl⟩ := exists_of_mem_chunksWithin h
  have hseparate := separate_screen schema 0 [] entries
  generalize (screen schema 0 [] entries).accepted = accepted at hseparate ⊢
  rw [List.Nodup, List.pairwise_map, List.pairwise_iff_getElem]
  intro i j hi hj hlt
  rw [List.length_take, List.length_drop] at hi hj
  simp only [List.getElem_take, List.getElem_drop]
  apply hseparate.pair (batchSize * k + i) (batchSize * k + j) (by omega) (by omega) (by omega)
  unfold batchSize at hi hj ⊢
  omega

end Screening

end AttributeStore
