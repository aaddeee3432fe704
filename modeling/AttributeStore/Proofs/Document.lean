import AttributeStore.Document
import AttributeStore.Proofs.Named
import AttributeStore.Proofs.Success

/-!
# Leaves of documents

What a function on leaves does to a document is decided leaf by leaf, however deep the leaves are
nested: a conversion that may fail does so exactly when some leaf makes it fail, and it is undone
by whatever undoes it on leaves.
-/

namespace AttributeStore

namespace Document

variable {α β ε : Type}

/-- Induction over a document, through the lists and maps inside it. -/
@[elab_as_elim]
theorem induction {motive : Document α → Prop} (leaf : ∀ x, motive (.leaf x))
    (list : ∀ members, (∀ document ∈ members, motive document) → motive (.list members))
    (map : ∀ entries, (∀ entry ∈ entries, motive entry.2) → motive (.map entries))
    (document : Document α) : motive document := by
  -- The lists and the entries inside a document need motives of their own.
  refine @Document.rec α motive (fun members => ∀ document ∈ members, motive document)
    (fun entries => ∀ entry ∈ entries, motive entry.2) (fun entry => motive entry.2)
    leaf list map ?_ ?_ ?_ ?_ ?_ document
  · exact fun _ h => (List.not_mem_nil h).elim
  · exact fun _ _ hfirst hrest => List.forall_mem_cons.2 ⟨hfirst, hrest⟩
  · exact fun _ h => (List.not_mem_nil h).elim
  · exact fun _ _ hfirst hrest => List.forall_mem_cons.2 ⟨hfirst, hrest⟩
  · exact fun _ _ h => h

/-- A leaf stands somewhere in a document. -/
inductive Holds (x : α) : Document α → Prop
  | leaf : Holds x (.leaf x)
  | list {members : List (Document α)} {document : Document α} (member : document ∈ members)
      (holds : Holds x document) : Holds x (.list members)
  | map {entries : List (String × Document α)} {name : String} {document : Document α}
      (member : (name, document) ∈ entries) (holds : Holds x document) : Holds x (.map entries)

theorem holds_leaf_iff {x y : α} : (Document.leaf y).Holds x ↔ y = x := by
  constructor
  · rintro ⟨⟩
    rfl
  · rintro rfl
    exact .leaf

theorem holds_list_iff {x : α} {members : List (Document α)} :
    (Document.list members).Holds x ↔ ∃ document ∈ members, document.Holds x := by
  constructor
  · rintro ⟨⟩
    exact ⟨_, ‹_›, ‹_›⟩
  · rintro ⟨document, member, holds⟩
    exact .list member holds

theorem holds_map_iff {x : α} {entries : List (String × Document α)} :
    (Document.map entries).Holds x ↔ ∃ entry ∈ entries, entry.2.Holds x := by
  constructor
  · rintro ⟨⟩
    exact ⟨_, ‹_›, ‹_›⟩
  · rintro ⟨entry, member, holds⟩
    exact .map member holds

/-! ## Members and entries by the operations on lists -/

theorem mapMembers_eq (f : α → β) (members : List (Document α)) :
    mapMembers f members = members.map (mapLeaves f) := by
  induction members with
  | nil => rfl
  | cons document rest ih => rw [mapMembers, ih, List.map_cons]

theorem mapEntries_eq (f : α → β) (entries : List (String × Document α)) :
    mapEntries f entries = entries.map fun entry => (entry.1, mapLeaves f entry.2) := by
  induction entries with
  | nil => rfl
  | cons entry rest ih => rw [mapEntries, ih, List.map_cons]

theorem traverseMembers_eq (f : α → Except ε β) (members : List (Document α)) :
    traverseMembers f members = members.mapM (traverse f) := by
  induction members with
  | nil => rfl
  | cons document rest ih => rw [traverseMembers, ih, List.mapM_cons]

def traverseEntry (f : α → Except ε β) (entry : String × Document α) :
    Except ε (String × Document β) := do
  return (entry.1, ← traverse f entry.2)

theorem traverseEntry_eq_ok_iff {f : α → Except ε β} {entry : String × Document α}
    {result : String × Document β} :
    traverseEntry f entry = .ok result ↔
      result.1 = entry.1 ∧ traverse f entry.2 = .ok result.2 := by
  simp only [traverseEntry, bind_eq_ok, pure_eq_ok]
  constructor
  · rintro ⟨document, h, rfl⟩
    exact ⟨rfl, h⟩
  · rintro ⟨hname, h⟩
    exact ⟨result.2, h, by rw [← hname]⟩

theorem exists_traverseEntry_eq_ok_iff {f : α → Except ε β} {entry : String × Document α} :
    (∃ result, traverseEntry f entry = .ok result) ↔
      ∃ result, traverse f entry.2 = .ok result := by
  constructor
  · rintro ⟨result, h⟩
    exact ⟨result.2, (traverseEntry_eq_ok_iff.1 h).2⟩
  · rintro ⟨result, h⟩
    exact ⟨(entry.1, result), traverseEntry_eq_ok_iff.2 ⟨rfl, h⟩⟩

theorem traverseEntries_eq (f : α → Except ε β) (entries : List (String × Document α)) :
    traverseEntries f entries = entries.mapM (traverseEntry f) := by
  induction entries with
  | nil => rfl
  | cons entry rest ih =>
    rw [traverseEntries, ih, List.mapM_cons, traverseEntry, bind_assoc]
    rfl

/-! ## Leaf by leaf -/

variable {f : α → Except ε β} {g : β → α}

/-- A conversion succeeds when it does on every leaf. -/
theorem exists_traverse_eq_ok_iff (document : Document α) :
    (∃ result, traverse f document = .ok result) ↔
      ∀ x, document.Holds x → ∃ y, f x = .ok y := by
  induction document using induction with
  | leaf x =>
    simp only [traverse, bind_eq_ok, pure_eq_ok]
    constructor
    · rintro ⟨_, y, hy, rfl⟩ _ ⟨⟩
      exact ⟨y, hy⟩
    · intro h
      obtain ⟨y, hy⟩ := h x .leaf
      exact ⟨_, y, hy, rfl⟩
  | list members ih =>
    simp only [traverse, traverseMembers_eq, bind_eq_ok, pure_eq_ok]
    constructor
    · rintro ⟨_, results, hr, rfl⟩ x hx
      cases hx with
      | list member holds =>
        exact (ih _ member).1 (exists_mapM_eq_ok.1 ⟨results, hr⟩ _ member) x holds
    · intro h
      obtain ⟨results, hr⟩ := exists_mapM_eq_ok.2 fun document member =>
        (ih document member).2 fun x holds => h x (.list member holds)
      exact ⟨_, results, hr, rfl⟩
  | map entries ih =>
    simp only [traverse, traverseEntries_eq, bind_eq_ok, pure_eq_ok]
    constructor
    · rintro ⟨_, results, hr, rfl⟩ x hx
      cases hx with
      | map member holds =>
        have hentry := exists_mapM_eq_ok.1 ⟨results, hr⟩ _ member
        exact (ih _ member).1 (exists_traverseEntry_eq_ok_iff.1 hentry) x holds
    · intro h
      obtain ⟨results, hr⟩ := exists_mapM_eq_ok.2 fun entry member =>
        exists_traverseEntry_eq_ok_iff.2 <|
          (ih entry member).2 fun x holds => h x (.map member holds)
      exact ⟨_, results, hr, rfl⟩

/-- What is told of each converted leaf by the leaf is told of the document. -/
theorem mapLeaves_eq_mapLeaves_of_traverse {γ : Type} {g : β → γ} {k : α → γ}
    (hg : ∀ x y, f x = .ok y → g y = k x) {document : Document α} {result : Document β}
    (h : traverse f document = .ok result) : mapLeaves g result = mapLeaves k document := by
  induction document using induction generalizing result with
  | leaf x =>
    simp only [traverse, bind_eq_ok, pure_eq_ok] at h
    obtain ⟨y, hy, rfl⟩ := h
    rw [mapLeaves, mapLeaves, hg x y hy]
  | list members ih =>
    simp only [traverse, traverseMembers_eq, bind_eq_ok, pure_eq_ok] at h
    obtain ⟨results, hr, rfl⟩ := h
    rw [mapLeaves, mapLeaves, mapMembers_eq, mapMembers_eq,
      map_eq_map_of_mapM hr fun d hd _ => ih d hd]
  | map entries ih =>
    simp only [traverse, traverseEntries_eq, bind_eq_ok, pure_eq_ok] at h
    obtain ⟨results, hr, rfl⟩ := h
    rw [mapLeaves, mapLeaves, mapEntries_eq, mapEntries_eq, map_eq_map_of_mapM hr]
    intro entry hentry result hresult
    obtain ⟨hname, hdocument⟩ := traverseEntry_eq_ok_iff.1 hresult
    rw [hname, ih entry hentry hdocument]

theorem holds_mapLeaves_iff {g : α → β} {y : β} (document : Document α) :
    (mapLeaves g document).Holds y ↔ ∃ x, document.Holds x ∧ g x = y := by
  induction document using induction with
  | leaf x => simp only [mapLeaves, holds_leaf_iff, exists_eq_left']
  | list members ih =>
    rw [mapLeaves, mapMembers_eq, holds_list_iff]
    simp only [List.mem_map, holds_list_iff]
    constructor
    · rintro ⟨_, ⟨document, member, rfl⟩, holds⟩
      obtain ⟨x, hx, hy⟩ := (ih document member).1 holds
      exact ⟨x, ⟨document, member, hx⟩, hy⟩
    · rintro ⟨x, ⟨document, member, hx⟩, hy⟩
      exact ⟨_, ⟨document, member, rfl⟩, (ih document member).2 ⟨x, hx, hy⟩⟩
  | map entries ih =>
    rw [mapLeaves, mapEntries_eq, holds_map_iff]
    simp only [List.mem_map, holds_map_iff]
    constructor
    · rintro ⟨_, ⟨entry, member, rfl⟩, holds⟩
      obtain ⟨x, hx, hy⟩ := (ih entry member).1 holds
      exact ⟨x, ⟨entry, member, hx⟩, hy⟩
    · rintro ⟨x, ⟨entry, member, hx⟩, hy⟩
      exact ⟨_, ⟨entry, member, rfl⟩, (ih entry member).2 ⟨x, hx, hy⟩⟩

theorem mapLeaves_eq_self {g : α → α} {document : Document α}
    (h : ∀ x, document.Holds x → g x = x) : mapLeaves g document = document := by
  induction document using induction with
  | leaf x => rw [mapLeaves, h x .leaf]
  | list members ih =>
    have hmembers : ∀ member ∈ members, mapLeaves g member = member :=
      fun member hmember => ih member hmember fun x hx => h x (.list hmember hx)
    rw [mapLeaves, mapMembers_eq, List.map_congr_left hmembers, List.map_id']
  | map entries ih =>
    have hentries : ∀ entry ∈ entries, (entry.1, mapLeaves g entry.2) = entry :=
      fun entry hentry => by rw [ih entry hentry fun x hx => h x (.map hentry hx)]
    rw [mapLeaves, mapEntries_eq, List.map_congr_left hentries, List.map_id']

theorem mapLeaves_id (document : Document α) : mapLeaves id document = document :=
  mapLeaves_eq_self fun _ _ => rfl

/-- What undoes a conversion on leaves undoes it on documents. -/
theorem mapLeaves_of_traverse (hg : ∀ x y, f x = .ok y → g y = x) {document : Document α}
    {result : Document β} (h : traverse f document = .ok result) :
    mapLeaves g result = document := by
  rw [mapLeaves_eq_mapLeaves_of_traverse (k := id) hg h, mapLeaves_id]

theorem eq_mapLeaves_of_traverse {g : α → β} (hg : ∀ x y, f x = .ok y → y = g x)
    {document : Document α} {result : Document β} (h : traverse f document = .ok result) :
    result = mapLeaves g document := by
  rw [← mapLeaves_eq_mapLeaves_of_traverse (g := id) hg h, mapLeaves_id]

theorem traverse_mapLeaves {γ : Type} (f : γ → Except ε β) (g : α → γ) (document : Document α) :
    traverse f (mapLeaves g document) = traverse (fun x => f (g x)) document := by
  induction document using induction with
  | leaf x => rfl
  | list members ih =>
    simp only [mapLeaves, mapMembers_eq, traverse, traverseMembers_eq, List.mapM_map]
    rw [mapM_congr (f := traverse f ∘ mapLeaves g) ih]
  | map entries ih =>
    have hentries : ∀ entry ∈ entries,
        traverseEntry f (entry.1, mapLeaves g entry.2) =
          traverseEntry (fun x => f (g x)) entry := by
      intro entry hentry
      simp only [traverseEntry, ih entry hentry]
    simp only [mapLeaves, mapEntries_eq, traverse, traverseEntries_eq, List.mapM_map]
    rw [← mapM_congr hentries]
    rfl

end Document

namespace Named

variable {α β ε : Type} {f : α → Except ε β}

def Holds (documents : Named (Document α)) (x : α) : Prop :=
  ∃ name document, documents.get? name = some document ∧ document.Holds x

theorem holds_map_entries_iff {x : α} (documents : Named (Document α)) :
    (Document.map documents.entries).Holds x ↔ documents.Holds x := by
  rw [Document.holds_map_iff]
  simp only [Prod.exists, mem_entries_iff, Holds]

theorem holds_mapLeaves_iff {g : α → β} {y : β} (documents : Named (Document α)) :
    (documents.mapLeaves g).Holds y ↔ ∃ x, documents.Holds x ∧ g x = y := by
  rw [← holds_map_entries_iff]
  simp only [← holds_map_entries_iff]
  rw [← Document.holds_mapLeaves_iff, Document.mapLeaves, Document.mapEntries_eq]
  rfl

theorem mapLeaves_eq_self {g : α → α} {documents : Named (Document α)}
    (h : ∀ x, documents.Holds x → g x = x) : documents.mapLeaves g = documents := by
  ext name : 1
  rw [mapLeaves, get?_map]
  cases hname : documents.get? name with
  | none => rfl
  | some document =>
    rw [Option.map_some, Document.mapLeaves_eq_self fun x hx => h x ⟨name, document, hname, hx⟩]

theorem traverse_eq_ok_iff {documents : Named (Document α)} {result : Named (Document β)} :
    documents.traverse f = .ok result ↔
      Document.traverseEntries f documents.entries = .ok result.entries := by
  unfold traverse
  split
  · rename_i cause hcause
    simp [hcause]
  · rename_i converted hentries
    obtain ⟨held, hsorted⟩ := result
    simp only [hentries, Except.ok.injEq]
    constructor
    · exact congrArg entries
    · rintro rfl
      rfl

theorem exists_traverse_eq_ok_iff (documents : Named (Document α)) :
    (∃ result, documents.traverse f = .ok result) ↔
      ∀ name document, documents.get? name = some document →
        ∃ result, Document.traverse f document = .ok result := by
  have hentries : (∃ result, documents.traverse f = .ok result) ↔
      ∃ results, Document.traverseEntries f documents.entries = .ok results := by
    constructor
    · rintro ⟨result, h⟩
      exact ⟨result.entries, traverse_eq_ok_iff.1 h⟩
    · rintro ⟨results, h⟩
      unfold traverse
      split
      · rename_i cause hcause
        rw [hcause] at h
        cases h
      · exact ⟨_, rfl⟩
  rw [hentries, Document.traverseEntries_eq, exists_mapM_eq_ok]
  simp only [Document.exists_traverseEntry_eq_ok_iff, Prod.forall, mem_entries_iff]

theorem get?_of_traverse {documents : Named (Document α)} {result : Named (Document β)}
    (h : documents.traverse f = .ok result) (name : String) :
    (documents.get? name).map (Document.traverse f) = (result.get? name).map .ok := by
  rw [traverse_eq_ok_iff, Document.traverseEntries_eq, mapM_eq_ok] at h
  -- The order of the names plays no part: the two lists have equal names place by place.
  unfold get?
  revert h
  generalize documents.entries = entries
  generalize result.entries = results
  intro h
  induction entries generalizing results with
  | nil =>
    obtain rfl := List.map_eq_nil_iff.1 h.symm
    rfl
  | cons entry rest ih =>
    cases results with
    | nil => cases h
    | cons first others =>
      rw [List.map_cons, List.map_cons, List.cons.injEq] at h
      obtain ⟨hname, hfirst⟩ := Document.traverseEntry_eq_ok_iff.1 h.1
      rw [Entries.get?, Entries.get?, hname]
      split
      · rw [Option.map_some, Option.map_some, hfirst]
      · exact ih others h.2

end Named

end AttributeStore
