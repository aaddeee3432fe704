import AttributeStore.Proofs.Batch

/-!
# Pages of a list

How a list is read page by page when each page takes as many items as a page size allows, and
which pages are read when some of the scans are refused: those before the first refused one.
-/

namespace AttributeStore

variable {α : Type}

/-- How many of the items that are there a page takes. -/
def pageShare (pageSize : Option Nat) (available : Nat) : Nat :=
  match pageSize with
  | none => available
  | some size => min available size

/-- Items in pages; without items there is one empty page. -/
def pagesOf (pageSize : Option Nat) (items : List α) : List (List α) :=
  match pageSize with
  | none => [items]
  | some size => if items.isEmpty then [[]] else chunks size items

variable {pageSize : Option Nat} {items : List α}

theorem pageShare_pos (hp : ∀ size, pageSize = some size → 1 ≤ size) {available : Nat}
    (ha : 0 < available) : 0 < pageShare pageSize available := by
  cases pageSize with
  | none => exact ha
  | some size => exact Nat.lt_min.2 ⟨ha, hp size rfl⟩

theorem pagesOf_last (hp : ∀ size, pageSize = some size → 1 ≤ size)
    (h : ¬pageShare pageSize items.length < items.length) : pagesOf pageSize items = [items] := by
  cases pageSize with
  | none => rfl
  | some size =>
    have hsize := hp size rfl
    cases items with
    | nil => rfl
    | cons first rest =>
      have hle : (first :: rest).length ≤ size := by
        unfold pageShare at h
        dsimp only at h
        omega
      unfold pagesOf
      dsimp only
      rw [List.isEmpty_cons, if_neg Bool.false_ne_true,
        chunks_eq_cons hsize (List.cons_ne_nil first rest), List.take_of_length_le hle,
        List.drop_of_length_le hle]
      rfl

theorem pagesOf_cons (hp : ∀ size, pageSize = some size → 1 ≤ size)
    (h : pageShare pageSize items.length < items.length) :
    pagesOf pageSize items = items.take (pageShare pageSize items.length) ::
      pagesOf pageSize (items.drop (pageShare pageSize items.length)) := by
  cases pageSize with
  | none => exact (Nat.lt_irrefl _ h).elim
  | some size =>
    have hsize := hp size rfl
    have hshare : pageShare (some size) items.length = size := by
      unfold pageShare at h ⊢
      dsimp only at h ⊢
      omega
    rw [hshare] at h ⊢
    have hne : items ≠ [] := by
      rintro rfl
      exact Nat.not_lt_zero _ h
    have hdrop : items.drop size ≠ [] := by
      rw [Ne, List.drop_eq_nil_iff]
      omega
    unfold pagesOf
    dsimp only
    rw [List.isEmpty_eq_false_iff.2 hne, List.isEmpty_eq_false_iff.2 hdrop,
      if_neg Bool.false_ne_true, if_neg Bool.false_ne_true, chunks_eq_cons hsize hne]

theorem flatten_pagesOf (hp : ∀ size, pageSize = some size → 1 ≤ size) :
    (pagesOf pageSize items).flatten = items := by
  cases pageSize with
  | none => simp [pagesOf]
  | some size =>
    unfold pagesOf
    dsimp only
    split
    · rename_i hempty
      rw [List.isEmpty_iff.1 hempty]
      rfl
    · exact flatten_chunks (hp size rfl) items

theorem pagesOf_ne_nil : pagesOf pageSize items ≠ [] := by
  cases pageSize with
  | none => exact List.cons_ne_nil _ _
  | some size =>
    cases items with
    | nil => exact List.cons_ne_nil _ _
    | cons first rest =>
      unfold pagesOf chunks
      exact List.cons_ne_nil _ _

/-- The pages before the first one whose scan is refused, when scans are counted from a number. -/
def pagesRead (failing : List Nat) (call : Nat) (pages : List (List α)) : List (List α) :=
  ((pages.zipIdx call).takeWhile fun page => page.2 ∉ failing).map Prod.fst

variable {failing : List Nat} {call : Nat} {pages : List (List α)}

theorem pagesRead_served (h : call ∉ failing) (page : List α) :
    pagesRead failing call (page :: pages) = page :: pagesRead failing (call + 1) pages := by
  unfold pagesRead
  rw [List.zipIdx_cons, List.takeWhile_cons_of_pos (by simpa using h), List.map_cons]

theorem pagesRead_refused (h : call ∈ failing) : pagesRead failing call pages = [] := by
  unfold pagesRead
  cases pages with
  | nil => rfl
  | cons page rest =>
    rw [List.zipIdx_cons, List.takeWhile_cons_of_neg (by simpa using h), List.map_nil]

theorem pagesRead_prefix (failing : List Nat) (call : Nat) (pages : List (List α)) :
    pagesRead failing call pages <+: pages := by
  have h := (List.takeWhile_prefix (l := pages.zipIdx call) fun page => page.2 ∉ failing).map
    Prod.fst
  rwa [List.zipIdx_map_fst] at h

theorem pagesRead_eq_self (h : ∀ place < pages.length, call + place ∉ failing) :
    pagesRead failing call pages = pages := by
  induction pages generalizing call with
  | nil => rfl
  | cons page rest ih =>
    have hfirst : call ∉ failing := h 0 (Nat.zero_lt_succ _)
    rw [pagesRead_served hfirst, ih]
    intro place hplace
    have hnext := h (place + 1) (Nat.succ_lt_succ hplace)
    rwa [Nat.add_assoc, Nat.add_comm 1 place]

end AttributeStore
