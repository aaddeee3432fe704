import AttributeStore.Proofs.Batch

/-!
# What screening accepts

The rules by which entries are told apart before any batch is sent. An entry joins the batch that
is being filled when it expects nothing, has a key, and no entry of that batch has its identity;
otherwise one of three causes refuses it. `Screens` applies the rules entry by entry and knows
only the entries accepted so far. `screens_screen` says that screening, which keeps a count and
the identities of one batch, follows them.
-/

namespace AttributeStore

namespace Screening

variable {schema : TableSchema}

/-- The entries of the batch that is being filled when some have been accepted. -/
def filling (accepted : List Entry) : List Entry :=
  accepted.drop (accepted.length / batchSize * batchSize)

/-- An entry whose item has the identity of a key. -/
def Shares (schema : TableSchema) (key : WireItem) (other : Entry) : Prop :=
  ∃ held, schema.keyOf other.item = .ok held ∧ keyIdentity held = keyIdentity key

structure Joins (schema : TableSchema) (batch : List Entry) (entry : Entry) : Prop where
  plain : entry.expected.isEmpty = true
  keyed : ∃ key, schema.keyOf entry.item = .ok key ∧ ∀ other ∈ batch, ¬Shares schema key other

inductive Refused (schema : TableSchema) (batch : List Entry) (entry : Entry) :
    ValidationError → Prop
  | precondition (h : entry.expected.isEmpty = false) :
    Refused schema batch entry (.preconditionInBatch schema.name)
  | key {cause : ValidationError} (plain : entry.expected.isEmpty = true)
    (h : schema.keyOf entry.item = .error cause) : Refused schema batch entry cause
  | duplicate {key : WireItem} (plain : entry.expected.isEmpty = true)
    (keyed : schema.keyOf entry.item = .ok key) {other : Entry} (hm : other ∈ batch)
    (h : Shares schema key other) : Refused schema batch entry (.duplicateKey schema.name)

/-- Entries told apart one after the other, when some have been accepted before them. -/
inductive Screens (schema : TableSchema) :
    List Entry → List Entry → List Entry → List (Entry × ValidationError) → Prop
  | nil (before : List Entry) : Screens schema before [] [] []
  | accept {before rest accepted : List Entry} {entry : Entry}
    {refused : List (Entry × ValidationError)} (h : Joins schema (filling before) entry)
    (later : Screens schema (before ++ [entry]) rest accepted refused) :
    Screens schema before (entry :: rest) (entry :: accepted) refused
  | refuse {before rest accepted : List Entry} {entry : Entry} {cause : ValidationError}
    {refused : List (Entry × ValidationError)} (h : Refused schema (filling before) entry cause)
    (later : Screens schema before rest accepted refused) :
    Screens schema before (entry :: rest) accepted ((entry, cause) :: refused)

/-! ## The rules decide -/

theorem Refused.not_joins {batch : List Entry} {entry : Entry} {cause : ValidationError}
    (h : Refused schema batch entry cause) : ¬Joins schema batch entry := by
  rintro ⟨hplain, key, hkey, hfresh⟩
  cases h with
  | precondition h =>
    rw [hplain] at h
    cases h
  | key _ h =>
    rw [hkey] at h
    cases h
  | duplicate _ hkeyed hm h =>
    obtain rfl := Except.ok.inj (hkey.symm.trans hkeyed)
    exact hfresh _ hm h

theorem Refused.unique {batch : List Entry} {entry : Entry} {cause cause' : ValidationError}
    (h : Refused schema batch entry cause) (h' : Refused schema batch entry cause') :
    cause = cause' := by
  cases h with
  | precondition h =>
    cases h' with
    | precondition _ => rfl
    | key hp _ => exact absurd hp (by simp [h])
    | duplicate hp _ _ _ => exact absurd hp (by simp [h])
  | key hp h =>
    cases h' with
    | precondition hn => exact absurd hp (by simp [hn])
    | key _ hk => exact Except.error.inj (h.symm.trans hk)
    | duplicate _ hk _ _ => cases h.symm.trans hk
  | duplicate hp hk _ _ =>
    cases h' with
    | precondition hn => exact absurd hp (by simp [hn])
    | key _ h => cases hk.symm.trans h
    | duplicate _ _ _ _ => rfl

/-- What screening makes of entries is determined by the rules. -/
theorem Screens.unique {before entries accepted accepted' : List Entry}
    {refused refused' : List (Entry × ValidationError)}
    (h : Screens schema before entries accepted refused)
    (h' : Screens schema before entries accepted' refused') :
    accepted = accepted' ∧ refused = refused' := by
  induction h generalizing accepted' refused' with
  | nil =>
    cases h'
    exact ⟨rfl, rfl⟩
  | accept hjoins _ ih =>
    cases h' with
    | accept _ later =>
      obtain ⟨rfl, rfl⟩ := ih later
      exact ⟨rfl, rfl⟩
    | refuse hrefused _ => exact absurd hjoins hrefused.not_joins
  | refuse hrefused _ ih =>
    cases h' with
    | accept hjoins _ => exact absurd hjoins hrefused.not_joins
    | refuse hrefused' later =>
      obtain ⟨rfl, rfl⟩ := ih later
      obtain rfl := hrefused.unique hrefused'
      exact ⟨rfl, rfl⟩

theorem Screens.snoc {before entries accepted : List Entry}
    {refused : List (Entry × ValidationError)}
    (h : Screens schema before entries accepted refused) {entry : Entry}
    (hj : Joins schema (filling (before ++ accepted)) entry) :
    Screens schema before (entries ++ [entry]) (accepted ++ [entry]) refused := by
  induction h with
  | nil before =>
    rw [List.append_nil] at hj
    exact .accept hj (.nil _)
  | accept hjoins _ ih =>
    rw [List.append_cons] at hj
    exact .accept hjoins (ih hj)
  | refuse hrefused _ ih => exact .refuse hrefused (ih hj)

/-! ## Screening follows the rules -/

/-- The identities of the batch that is being filled, the last one first. -/
def identities (schema : TableSchema) (accepted : List Entry) : List KeyIdentity :=
  ((filling accepted).map (entryIdentity schema)).reverse

theorem shares_iff {key : WireItem} {other : Entry}
    (hk : HasKey schema.keyDefinitions other.item) :
    Shares schema key other ↔ entryIdentity schema other = keyIdentity key := by
  unfold Shares entryIdentity
  rw [TableSchema.keyOf_of_hasKey hk]
  constructor
  · rintro ⟨held, hheld, hsame⟩
    rwa [Except.ok.inj hheld]
  · intro hsame
    exact ⟨_, rfl, hsame⟩

theorem mem_identities {accepted : List Entry}
    (hk : ∀ entry ∈ accepted, HasKey schema.keyDefinitions entry.item) (key : WireItem) :
    keyIdentity key ∈ identities schema accepted ↔
      ∃ other ∈ filling accepted, Shares schema key other := by
  unfold identities
  rw [List.mem_reverse, List.mem_map]
  refine exists_congr fun other => and_congr_right fun hm => ?_
  exact (shares_iff (hk other (List.mem_of_mem_drop hm))).symm

theorem joins_of_joinBatch {accepted : List Entry} {entry : Entry} {identity : KeyIdentity}
    (hk : ∀ entry ∈ accepted, HasKey schema.keyDefinitions entry.item)
    (h : joinBatch schema (identities schema accepted) entry = .ok identity) :
    Joins schema (filling accepted) entry := by
  obtain ⟨hplain, hkey, rfl, hfresh⟩ := (joinBatch_eq_ok_iff _ _ _).1 h
  refine ⟨hplain, _, TableSchema.keyOf_of_hasKey hkey, ?_⟩
  intro other hm hshares
  exact hfresh ((mem_identities hk _).2 ⟨other, hm, hshares⟩)

theorem refused_of_joinBatch {accepted : List Entry} {entry : Entry} {cause : ValidationError}
    (hk : ∀ entry ∈ accepted, HasKey schema.keyDefinitions entry.item)
    (h : joinBatch schema (identities schema accepted) entry = .error cause) :
    Refused schema (filling accepted) entry cause := by
  unfold joinBatch at h
  cases hplain : entry.expected.isEmpty with
  | false =>
    rw [hplain] at h
    obtain rfl : ValidationError.preconditionInBatch schema.name = cause := Except.error.inj h
    exact .precondition hplain
  | true =>
    rw [hplain] at h
    cases hkey : schema.keyOf entry.item with
    | error cause' =>
      rw [hkey] at h
      obtain rfl : cause' = cause := Except.error.inj h
      exact .key hplain hkey
    | ok key =>
      rw [hkey] at h
      by_cases hm : keyIdentity key ∈ identities schema accepted
      · obtain ⟨other, hother, hshares⟩ := (mem_identities hk key).1 hm
        simp only [Bool.not_true, Bool.false_eq_true, ↓reduceIte, bind, Except.bind, pure,
          Except.pure, hm] at h
        obtain rfl : ValidationError.duplicateKey schema.name = cause := Except.error.inj h
        exact .duplicate hplain hkey hother hshares
      · simp only [Bool.not_true, Bool.false_eq_true, ↓reduceIte, bind, Except.bind, pure,
          Except.pure, hm] at h
        cases h

theorem filling_of_dvd {accepted : List Entry} (h : batchSize ∣ accepted.length) :
    filling accepted = [] := by
  unfold filling
  rw [Nat.div_mul_cancel h, List.drop_length]

theorem filling_snoc (accepted : List Entry) (entry : Entry) :
    filling (accepted ++ [entry]) =
      if (accepted.length + 1) % batchSize = 0 then [] else filling accepted ++ [entry] := by
  have hdiv := Nat.div_add_mod (accepted.length + 1) batchSize
  have hbefore := Nat.div_mul_le_self accepted.length batchSize
  unfold filling
  rw [List.length_append, List.length_singleton]
  unfold batchSize at hdiv hbefore ⊢
  split
  · rename_i hfull
    rw [List.drop_eq_nil_iff, List.length_append, List.length_singleton]
    omega
  · rename_i hroom
    have hsame : (accepted.length + 1) / 25 = accepted.length / 25 := by
      omega
    rw [hsame, List.drop_append_of_le_length hbefore]

theorem heldAt_identities (accepted : List Entry) :
    heldAt accepted.length (identities schema accepted) = identities schema accepted := by
  unfold heldAt identities
  split
  · rename_i hfull
    rw [filling_of_dvd (Nat.dvd_of_mod_eq_zero hfull)]
    rfl
  · rfl

theorem heldAt_snoc (accepted : List Entry) (entry : Entry) :
    heldAt (accepted ++ [entry]).length (entryIdentity schema entry :: identities schema accepted) =
      identities schema (accepted ++ [entry]) := by
  unfold heldAt identities
  rw [filling_snoc, List.length_append, List.length_singleton]
  split
  · rfl
  · rw [List.map_append, List.reverse_append]
    rfl

/-- Screening after some accepted entries, with what it holds of them. -/
theorem screens_screen_from {before : List Entry} {held : List KeyIdentity}
    (hk : ∀ entry ∈ before, HasKey schema.keyDefinitions entry.item)
    (hheld : heldAt before.length held = identities schema before) (entries : List Entry) :
    Screens schema before entries (screen schema before.length held entries).accepted
      (screen schema before.length held entries).refused := by
  induction entries generalizing before held with
  | nil => exact .nil before
  | cons entry rest ih =>
    rw [screen_cons, hheld]
    cases hjoin : joinBatch schema (identities schema before) entry with
    | ok identity =>
      obtain ⟨-, hkey, rfl, -⟩ := (joinBatch_eq_ok_iff _ _ _).1 hjoin
      have hlength : before.length + 1 = (before ++ [entry]).length := by
        rw [List.length_append, List.length_singleton]
      have hk' : ∀ other ∈ before ++ [entry], HasKey schema.keyDefinitions other.item := by
        intro other hm
        rcases List.mem_append.1 hm with hm | hm
        · exact hk other hm
        · rw [List.mem_singleton.1 hm]
          exact hkey
      refine .accept (joins_of_joinBatch hk hjoin) ?_
      rw [hlength]
      exact ih hk' (heldAt_snoc before entry)
    | error cause =>
      exact .refuse (refused_of_joinBatch hk hjoin) (ih hk (heldAt_identities before))

/-- Screening accepts and refuses by the rules. -/
theorem screens_screen (schema : TableSchema) (entries : List Entry) :
    Screens schema [] entries (screen schema 0 [] entries).accepted
      (screen schema 0 [] entries).refused :=
  screens_screen_from (fun _ hm => (List.not_mem_nil hm).elim) rfl entries

/-- The entries of one batch have different keys. -/
theorem keys_nodup {entries batch : List Entry}
    (h : batch ∈ chunks batchSize (screen schema 0 [] entries).accepted) :
    (batch.map fun entry => schema.keyOf entry.item).Nodup := by
  have hidentities := identities_nodup h
  have hkeyed : ∀ entry ∈ batch, HasKey schema.keyDefinitions entry.item := by
    intro entry hm
    have haccepted := List.mem_flatten_of_mem h hm
    rw [flatten_chunks (by decide)] at haccepted
    exact (of_mem_accepted haccepted).2
  rw [List.Nodup, List.pairwise_map] at hidentities ⊢
  refine hidentities.imp_of_mem fun hleft hright hne hsame => hne ?_
  rw [TableSchema.keyOf_of_hasKey (hkeyed _ hleft),
    TableSchema.keyOf_of_hasKey (hkeyed _ hright)] at hsame
  rw [entryIdentity, entryIdentity, Except.ok.inj hsame]

/-- An accepted entry can be staged again when it falls into another batch. -/
theorem joins_again {accepted : List Entry} {entry : Entry} (h : batchSize ∣ accepted.length)
    (hp : entry.expected.isEmpty = true) (hk : HasKey schema.keyDefinitions entry.item) :
    Joins schema (filling accepted) entry := by
  refine ⟨hp, _, TableSchema.keyOf_of_hasKey hk, ?_⟩
  rw [filling_of_dvd h]
  exact fun _ hm => (List.not_mem_nil hm).elim

end Screening

end AttributeStore
