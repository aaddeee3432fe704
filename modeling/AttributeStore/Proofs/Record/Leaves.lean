import AttributeStore.Proofs.Document
import AttributeStore.Record.Item

/-!
# The leaves of a record

A record becomes an attribute whose leaves are the single values that stand in the record. Two
members of a map may give one name, and then only the later one is written: `Places` leaves the
others out, and with it the leaves of the attribute are those of the record, none more and none
less.
-/

namespace AttributeStore

namespace Record

/-- Induction over a record, through the lists and maps inside it. Keys are no parts of it. -/
@[elab_as_elim]
theorem induction {motive : Record → Prop} (integer : ∀ value, motive (.integer value))
    (wideInteger : ∀ value, motive (.wideInteger value))
    (double : ∀ value, motive (.double value)) (single : ∀ value, motive (.single value))
    (text : ∀ chars, motive (.text chars)) (bool : ∀ flag, motive (.bool flag))
    (nothing : motive .nothing) (bytes : ∀ content, motive (.bytes content))
    (present : ∀ content, motive content → motive (.present content))
    (wrapper : ∀ content, motive content → motive (.wrapper content))
    (sequence : ∀ elements, (∀ element ∈ elements, motive element) → motive (.sequence elements))
    (map : ∀ entries, (∀ entry ∈ entries, motive entry.2) → motive (.map entries))
    (fields : ∀ members, (∀ member ∈ members, motive member.2) → motive (.fields members))
    (variant : ∀ name content, motive content → motive (.variant name content))
    (record : Record) : motive record := by
  refine @Record.rec motive (fun elements => ∀ element ∈ elements, motive element)
    (fun entries => ∀ entry ∈ entries, motive entry.2)
    (fun members => ∀ member ∈ members, motive member.2) (fun entry => motive entry.2)
    (fun member => motive member.2) integer wideInteger double single text bool nothing bytes
    present wrapper sequence map fields variant ?_ ?_ ?_ ?_ ?_ ?_ ?_ ?_ record
  · exact fun _ h => (List.not_mem_nil h).elim
  · exact fun _ _ hfirst hrest => List.forall_mem_cons.2 ⟨hfirst, hrest⟩
  · exact fun _ h => (List.not_mem_nil h).elim
  · exact fun _ _ hfirst hrest => List.forall_mem_cons.2 ⟨hfirst, hrest⟩
  · exact fun _ h => (List.not_mem_nil h).elim
  · exact fun _ _ hfirst hrest => List.forall_mem_cons.2 ⟨hfirst, hrest⟩
  · exact fun _ _ _ hvalue => hvalue
  · exact fun _ _ hvalue => hvalue

/-- A record writes a part of it: the part stands in it, and no later member of a map has the name
of one in which it stands. -/
inductive Places : Record → Record → Prop
  | self {part : Record} : Places part part
  | present {content part : Record} (inside : Places content part) : Places (.present content) part
  | wrapper {content part : Record} (inside : Places content part) : Places (.wrapper content) part
  | sequence {elements : List Record} {element part : Record} (member : element ∈ elements)
    (inside : Places element part) : Places (.sequence elements) part
  | map {before after : List (Record × Record)} {key value part : Record}
    (last : ∀ later ∈ after, later.1.keyText ≠ key.keyText) (inside : Places value part) :
    Places (.map (before ++ (key, value) :: after)) part
  | fields {before after : List (String × Record)} {name : String} {value part : Record}
    (last : ∀ later ∈ after, later.1 ≠ name) (inside : Places value part) :
    Places (.fields (before ++ (name, value) :: after)) part
  | variant {name : String} {content part : Record} (inside : Places content part) :
    Places (.variant name content) part

/-- What a record without parts is written as. -/
def atom? : Record → Option WireAtom
  | integer value => some (.number (Decimal.integerText value))
  | double value => some (.number (value.text .double))
  | single value => some (.number (value.text .single))
  | text chars => some (.string chars)
  | bool flag => some (.bool flag)
  | nothing => some (.null true)
  | bytes content => some (.binary content)
  | _ => none

/-- A single value that a record writes. -/
def Writes (record : Record) (atom : WireAtom) : Prop :=
  ∃ part, record.Places part ∧ part.atom? = some atom

end Record

/-! ## Maps made of members -/

namespace Named

variable {ε α β : Type} {f : α → Except ε (String × β)} {name : α → Except ε String}
  {content : α → Except ε β} {list : List α} {bindings : List (String × β)}

/-- Members become bindings, each by its name and its content. -/
def MakesBindings (f : α → Except ε (String × β)) (name : α → Except ε String)
    (content : α → Except ε β) : Prop :=
  ∀ a key value, f a = .ok (key, value) ↔ name a = .ok key ∧ content a = .ok value

theorem names_of_mapM (hf : MakesBindings f name content) (h : list.mapM f = .ok bindings)
    (key : String) :
    (∀ a ∈ list, name a ≠ .ok key) ↔ ∀ binding ∈ bindings, binding.1 ≠ key := by
  have hnames : bindings.map (fun binding => .ok binding.1) = list.map name :=
    map_eq_map_of_mapM h fun a _ binding hbinding => ((hf a _ _).1 hbinding).1.symm
  have hkeys : (∀ given ∈ list.map name, given ≠ .ok key) ↔
      ∀ given ∈ bindings.map (fun binding => (.ok binding.1 : Except ε String)),
        given ≠ .ok key := by rw [hnames]
  simpa only [List.forall_mem_map, ne_eq, Except.ok.injEq] using hkeys

theorem get?_ofList_of_mapM (hf : MakesBindings f name content)
    (h : list.mapM f = .ok bindings) (key : String) (value : β) :
    (ofList bindings).get? key = some value ↔
      ∃ before source after, list = before ++ source :: after ∧
        (∀ later ∈ after, name later ≠ name source) ∧
        name source = .ok key ∧ content source = .ok value := by
  rw [mapM_eq_ok] at h
  rw [get?_ofList_eq_some_iff]
  constructor
  · rintro ⟨before, after, rfl, hlast⟩
    rw [List.map_append, List.map_cons, List.map_eq_append_iff] at h
    obtain ⟨before, rest, rfl, -, hrest⟩ := h
    obtain ⟨source, after, rfl, hsource, hafter⟩ := List.map_eq_cons_iff.1 hrest
    obtain ⟨hname, hcontent⟩ := (hf ..).1 hsource
    refine ⟨before, source, after, rfl, ?_, hname, hcontent⟩
    rw [hname]
    exact (names_of_mapM hf (mapM_eq_ok.2 hafter) key).2 hlast
  · rintro ⟨before, source, after, rfl, hlast, hname, hcontent⟩
    rw [List.map_append, List.map_cons, eq_comm, List.map_eq_append_iff] at h
    obtain ⟨before, rest, rfl, -, hrest⟩ := h
    obtain ⟨made, after, rfl, hmade, hafter⟩ := List.map_eq_cons_iff.1 hrest
    rw [(hf ..).2 ⟨hname, hcontent⟩] at hmade
    obtain rfl := Except.ok.inj hmade
    rw [hname] at hlast
    exact ⟨before, after, rfl, (names_of_mapM hf (mapM_eq_ok.2 hafter.symm) key).1 hlast⟩

/-- The leaves of a map that members become are those of the members that no later one of the same
name replaces. -/
theorem holds_ofList_of_mapM {γ : Type} {f : α → Except ε (String × Document γ)}
    {content : α → Except ε (Document γ)} {bindings : List (String × Document γ)}
    (hf : MakesBindings f name content) (h : list.mapM f = .ok bindings) {x : γ}
    {writes : α → Prop}
    (hwrites : ∀ a ∈ list, ∀ document, content a = .ok document → (document.Holds x ↔ writes a)) :
    (ofList bindings).Holds x ↔ ∃ before source after, list = before ++ source :: after ∧
      (∀ later ∈ after, name later ≠ name source) ∧ writes source := by
  constructor
  · rintro ⟨key, document, hget, holds⟩
    obtain ⟨before, source, after, rfl, hlast, -, hcontent⟩ :=
      (get?_ofList_of_mapM hf h key document).1 hget
    have hsource := List.mem_append_right before (List.mem_cons_self (a := source) (l := after))
    exact ⟨before, source, after, rfl, hlast, (hwrites source hsource document hcontent).1 holds⟩
  · rintro ⟨before, source, after, rfl, hlast, writes⟩
    have hsource := List.mem_append_right before (List.mem_cons_self (a := source) (l := after))
    obtain ⟨⟨key, document⟩, hmade⟩ := exists_mapM_eq_ok.1 ⟨bindings, h⟩ source hsource
    obtain ⟨hname, hcontent⟩ := (hf ..).1 hmade
    have hget := (get?_ofList_of_mapM hf h key document).2
      ⟨before, source, after, rfl, hlast, hname, hcontent⟩
    exact ⟨key, document, hget, (hwrites source hsource document hcontent).2 writes⟩

end Named

namespace Record

/-! ## Members and entries by the operations on lists -/

theorem toAttributes_eq (elements : List Record) :
    toAttributes elements = elements.mapM toAttribute := by
  induction elements with
  | nil => rfl
  | cons element rest ih => rw [toAttributes, ih, List.mapM_cons]

def toEntry (entry : Record × Record) : Except ConversionError (String × Attribute) := do
  let name ← entry.1.keyText
  return (name, ← entry.2.toAttribute)

theorem makesBindings_toEntry :
    Named.MakesBindings toEntry (fun entry => entry.1.keyText) fun entry =>
      entry.2.toAttribute := by
  intro entry name written
  simp only [toEntry, bind_eq_ok, pure_eq_ok, Prod.mk.injEq]
  constructor
  · rintro ⟨_, hname, _, hwritten, rfl, rfl⟩
    exact ⟨hname, hwritten⟩
  · rintro ⟨hname, hwritten⟩
    exact ⟨name, hname, written, hwritten, rfl, rfl⟩

theorem toEntries_eq (entries : List (Record × Record)) :
    toEntries entries = entries.mapM toEntry := by
  induction entries with
  | nil => rfl
  | cons entry rest ih =>
    rw [toEntries, ih, List.mapM_cons, toEntry, bind_assoc]
    congr 1
    funext name
    rw [bind_assoc]
    rfl

def toField (member : String × Record) : Except ConversionError (String × Attribute) := do
  return (member.1, ← member.2.toAttribute)

theorem makesBindings_toField :
    Named.MakesBindings toField (fun member => .ok member.1) fun member =>
      member.2.toAttribute := by
  intro member name written
  simp only [toField, bind_eq_ok, pure_eq_ok, Prod.mk.injEq, Except.ok.injEq]
  constructor
  · rintro ⟨_, hwritten, rfl, rfl⟩
    exact ⟨rfl, hwritten⟩
  · rintro ⟨rfl, hwritten⟩
    exact ⟨written, hwritten, rfl, rfl⟩

theorem toFields_eq (members : List (String × Record)) :
    toFields members = members.mapM toField := by
  induction members with
  | nil => rfl
  | cons member rest ih =>
    rw [toFields, ih, List.mapM_cons, toField, bind_assoc]
    rfl

/-! ## What a record writes -/

section

variable {atom : WireAtom}

theorem writes_of_atom? {record : Record} {held : WireAtom} (h : record.atom? = some held) :
    record.Writes atom ↔ held = atom := by
  constructor
  · rintro ⟨part, places, hpart⟩
    -- A record that is written as one atom has no part but itself.
    cases places with
    | self => exact Option.some.inj (h.symm.trans hpart)
    | _ => cases h
  · rintro rfl
    exact ⟨record, .self, h⟩

theorem writes_present_iff {content : Record} :
    (present content).Writes atom ↔ content.Writes atom := by
  constructor
  · rintro ⟨part, places, hpart⟩
    cases places with
    | self => cases hpart
    | present inside => exact ⟨part, inside, hpart⟩
  · rintro ⟨part, inside, hpart⟩
    exact ⟨part, .present inside, hpart⟩

theorem writes_wrapper_iff {content : Record} :
    (wrapper content).Writes atom ↔ content.Writes atom := by
  constructor
  · rintro ⟨part, places, hpart⟩
    cases places with
    | self => cases hpart
    | wrapper inside => exact ⟨part, inside, hpart⟩
  · rintro ⟨part, inside, hpart⟩
    exact ⟨part, .wrapper inside, hpart⟩

theorem writes_sequence_iff {elements : List Record} :
    (sequence elements).Writes atom ↔ ∃ element ∈ elements, element.Writes atom := by
  constructor
  · rintro ⟨part, places, hpart⟩
    cases places with
    | self => cases hpart
    | sequence member inside => exact ⟨_, member, part, inside, hpart⟩
  · rintro ⟨element, member, part, inside, hpart⟩
    exact ⟨part, .sequence member inside, hpart⟩

theorem writes_map_iff {entries : List (Record × Record)} :
    (map entries).Writes atom ↔ ∃ before entry after, entries = before ++ entry :: after ∧
      (∀ later ∈ after, later.1.keyText ≠ entry.1.keyText) ∧ entry.2.Writes atom := by
  constructor
  · rintro ⟨part, places, hpart⟩
    cases places with
    | self => cases hpart
    | map last inside => exact ⟨_, _, _, rfl, last, part, inside, hpart⟩
  · rintro ⟨before, entry, after, rfl, last, part, inside, hpart⟩
    exact ⟨part, .map last inside, hpart⟩

theorem writes_fields_iff {members : List (String × Record)} :
    (fields members).Writes atom ↔ ∃ before member after, members = before ++ member :: after ∧
      (∀ later ∈ after, later.1 ≠ member.1) ∧ member.2.Writes atom := by
  constructor
  · rintro ⟨part, places, hpart⟩
    cases places with
    | self => cases hpart
    | fields last inside => exact ⟨_, _, _, rfl, last, part, inside, hpart⟩
  · rintro ⟨before, member, after, rfl, last, part, inside, hpart⟩
    exact ⟨part, .fields last inside, hpart⟩

theorem writes_variant_iff {name : String} {content : Record} :
    (variant name content).Writes atom ↔ content.Writes atom := by
  constructor
  · rintro ⟨part, places, hpart⟩
    cases places with
    | self => cases hpart
    | variant inside => exact ⟨part, inside, hpart⟩
  · rintro ⟨part, inside, hpart⟩
    exact ⟨part, .variant inside, hpart⟩

end

theorem exists_entries_of_toAttribute {record : Record} {entries : List (String × Attribute)}
    (h : record.toAttribute = .ok (.map entries)) : ∃ item : WireItem, item.entries = entries := by
  induction record using induction generalizing entries with
  | present content ih => exact ih (by rwa [toAttribute] at h)
  | wrapper content ih => exact ih (by rwa [toAttribute] at h)
  | map _ _ =>
    simp only [toAttribute, bind_eq_ok, pure_eq_ok] at h
    obtain ⟨bindings, -, hmap⟩ := h
    exact ⟨Named.ofList bindings, Document.map.inj hmap⟩
  | fields _ _ =>
    simp only [toAttribute, bind_eq_ok, pure_eq_ok] at h
    obtain ⟨bindings, -, hmap⟩ := h
    exact ⟨Named.ofList bindings, Document.map.inj hmap⟩
  | variant name _ _ =>
    simp only [toAttribute, bind_eq_ok, pure_eq_ok] at h
    obtain ⟨written, -, hmap⟩ := h
    exact ⟨Named.singleton name written, Document.map.inj hmap⟩
  | sequence _ _ =>
    simp only [toAttribute, bind_eq_ok, pure_eq_ok] at h
    obtain ⟨_, -, hlist⟩ := h
    cases hlist
  | _ =>
    rw [toAttribute] at h
    cases h

/-- The leaves of the attribute that a record becomes are what the record writes. -/
theorem holds_iff_writes {record : Record} {written : Attribute}
    (h : record.toAttribute = .ok written) (atom : WireAtom) :
    written.Holds atom ↔ record.Writes atom := by
  induction record using induction generalizing written with
  | present content ih =>
    rw [toAttribute] at h
    rw [writes_present_iff, ih h]
  | wrapper content ih =>
    rw [toAttribute] at h
    rw [writes_wrapper_iff, ih h]
  | sequence elements ih =>
    simp only [toAttribute, toAttributes_eq, bind_eq_ok, pure_eq_ok] at h
    obtain ⟨members, hmembers, rfl⟩ := h
    rw [mapM_eq_ok] at hmembers
    rw [writes_sequence_iff, Document.holds_list_iff]
    constructor
    · rintro ⟨member, hmember, holds⟩
      have hmade : Except.ok member ∈ elements.map toAttribute :=
        hmembers ▸ List.mem_map_of_mem hmember
      obtain ⟨element, helement, hbecomes⟩ := List.mem_map.1 hmade
      exact ⟨element, helement, (ih element helement hbecomes).1 holds⟩
    · rintro ⟨element, helement, writes⟩
      have hmade : element.toAttribute ∈ members.map .ok :=
        hmembers ▸ List.mem_map_of_mem helement
      obtain ⟨member, hmember, hbecomes⟩ := List.mem_map.1 hmade
      exact ⟨member, hmember, (ih element helement hbecomes.symm).2 writes⟩
  | map entries ih =>
    simp only [toAttribute, toEntries_eq, bind_eq_ok, pure_eq_ok] at h
    obtain ⟨bindings, hbindings, rfl⟩ := h
    rw [writes_map_iff, Named.holds_map_entries_iff]
    exact Named.holds_ofList_of_mapM makesBindings_toEntry hbindings
      fun entry hentry _ hvalue => ih entry hentry hvalue
  | fields members ih =>
    simp only [toAttribute, toFields_eq, bind_eq_ok, pure_eq_ok] at h
    obtain ⟨bindings, hbindings, rfl⟩ := h
    rw [writes_fields_iff, Named.holds_map_entries_iff,
      Named.holds_ofList_of_mapM makesBindings_toField hbindings
        fun member hmember _ hvalue => ih member hmember hvalue]
    simp only [ne_eq, Except.ok.injEq]
  | variant name content ih =>
    simp only [toAttribute, bind_eq_ok, pure_eq_ok] at h
    obtain ⟨inner, hinner, rfl⟩ := h
    rw [writes_variant_iff, ← ih hinner, Document.holds_map_iff]
    simp
  | wideInteger _ =>
    rw [toAttribute] at h
    cases h
  | _ =>
    rw [toAttribute] at h
    obtain rfl := Except.ok.inj h
    rw [Document.holds_leaf_iff, writes_of_atom? rfl]

/-- An integer and a text that give one name. -/
example :
    (map [(.integer 1, .bool false), (.text "1", .bool true)]).toAttribute =
      .ok (.map [("1", .leaf (.bool true))]) :=
  rfl

theorem toWireItem_eq_ok_iff {record : Record} {item : WireItem} :
    record.toWireItem = .ok item ↔ record.toAttribute = .ok (.map item.entries) := by
  unfold toWireItem
  cases hwritten : record.toAttribute with
  | error cause =>
    constructor
    · nofun
    · nofun
  | ok written =>
    cases written with
    | map entries =>
      obtain ⟨made, rfl⟩ := exists_entries_of_toAttribute hwritten
      change Except.ok (Named.ofList made.entries) = .ok item ↔ _
      rw [Named.ofList_entries]
      constructor
      · rintro ⟨⟩
        rfl
      · intro h
        have hentries : made.entries = item.entries := Document.map.inj (Except.ok.inj h)
        obtain ⟨entries, sorted⟩ := item
        obtain rfl : made.entries = entries := hentries
        rfl
    | _ =>
      constructor
      · nofun
      · nofun

theorem item_holds_iff_writes {record : Record} {item : WireItem}
    (h : record.toWireItem = .ok item) (atom : WireAtom) :
    item.Holds atom ↔ record.Writes atom := by
  rw [← Named.holds_map_entries_iff, holds_iff_writes (toWireItem_eq_ok_iff.1 h)]

end Record

end AttributeStore
