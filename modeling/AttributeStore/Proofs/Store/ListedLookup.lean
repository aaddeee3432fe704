import AttributeStore.Proofs.Store.Projection
import AttributeStore.Proofs.Store.Reachable
import AttributeStore.Read

/-!
# Lookups that list attributes

A lookup writes the names that it lists into a list with commas without a look at them, and the
store takes the list apart at its commas again. A name without a comma that ends in no blank comes
out as it went in. A name with a comma comes out in pieces, and what stands behind the comma is an
attribute of its own to the store, listed or not.
-/

namespace AttributeStore.Store

open Wire (hashPart)

variable {names : List String} {name : String}

/-- What the list that a lookup writes lists to the store: the names of the placeholders that are
words of it, and the words of it that are no placeholders. -/
def Lists (names : List String) (name : String) : Prop :=
  ∃ word ∈ names.flatMap projectedWords,
    Projected names word name ∨ word = name ∧ word.toList.head? ≠ some '#'

/-- A word of a written list stands for a listed name or for itself. -/
theorem Placeholders.name_projection_eq_ok_iff {word : String}
    (values : Option (Named Attribute)) :
    Placeholders.name ⟨(Fragment.projection names).names.present, values⟩ word = .ok name ↔
      Projected names word name ∨ word = name ∧ word.toList.head? ≠ some '#' := by
  unfold Placeholders.name
  rw [Named.get?_present]
  split
  · rename_i hmark
    have hself : ¬(word = name ∧ word.toList.head? ≠ some '#') := fun h => h.2 hmark
    rw [or_iff_left hself, ← get?_projection_eq_some_iff]
    cases (Fragment.projection names).names.get? word <;> simp
  · rename_i hmark
    have hprojected : ¬Projected names word name := by
      rintro ⟨rfl, -⟩
      exact hmark (head?_append rfl name)
    rw [or_iff_right hprojected, and_iff_left hmark, Except.ok.injEq]

theorem get?_project_projection (values : Option (Named Attribute)) (item : WireItem)
    (held : Attribute) :
    (project (Fragment.projection names).text?
        ⟨(Fragment.projection names).names.present, values⟩ item).get? name = some held ↔
      item.get? name = some held ∧ (names = [] ∨ Lists names name) := by
  obtain ⟨hwords, hnone⟩ := listedWords_projection names
  cases htext : (Fragment.projection names).text? with
  | none =>
    rw [and_iff_left (.inl (hnone.1 htext))]
    rfl
  | some text =>
    rw [htext, Option.elim_some] at hwords
    have hne : names ≠ [] := fun hnil => by rw [hnone.2 hnil] at htext; cases htext
    have hlists : name ∈ listedNames ⟨(Fragment.projection names).names.present, values⟩ text ↔
        Lists names name := by
      rw [listedNames_eq, hwords, List.mem_filterMap]
      refine exists_congr fun word => and_congr_right fun _ => ?_
      rw [← Placeholders.name_projection_eq_ok_iff values]
      cases Placeholders.name ⟨(Fragment.projection names).names.present, values⟩ word <;>
        simp [Except.toOption]
    rw [project_some, Named.get?_filterNames, or_iff_right hne, ← hlists]
    split
    · rename_i hm
      rw [and_iff_left (of_decide_eq_true hm)]
    · rename_i hm
      rw [decide_eq_true_eq] at hm
      exact iff_of_false (Option.some_ne_none _).symm fun h => hm h.2

theorem lists_of_isListable (hm : name ∈ names) (h : IsListable name) : Lists names name := by
  refine ⟨"#p_" ++ name, List.mem_flatMap.2 ⟨name, hm, ?_⟩, .inl ⟨rfl, hm⟩⟩
  rw [projectedWords_of_isListable h]
  exact List.mem_singleton_self _

/-- Only a comma brings names into a list that are not listed. -/
theorem mem_of_lists (hc : ∀ listed ∈ names, ',' ∉ listed.toList) (h : Lists names name) :
    name ∈ names := by
  obtain ⟨word, hword, ⟨-, hm⟩ | ⟨rfl, hmark⟩⟩ := h
  · exact hm
  · -- A name without a comma leaves one word, which begins as its placeholder does.
    obtain ⟨listed, hlisted, hword⟩ := List.mem_flatMap.1 hword
    rw [projectedWords, listedWords_of_not_comma (not_comma_placeholder (hc listed hlisted)),
      List.mem_singleton] at hword
    refine (hmark ?_).elim
    rw [hword, String.toList_ofList, String.toList_append]
    exact Text.head?_trim_cons (by decide) _

/-- A lookup finds its item with the attributes that the written list lists to the store, or with
all of them when no name is given. The list lists each given name that has no comma and ends in no
blank, and no other name if no given name has a comma. -/
theorem getItem_listed {state : State} {table : String} {stored : StoredTable}
    {key : PrimaryKey} {wireKey item : WireItem} (hk : key.encode = .ok wireKey)
    (h : state.tables.get? table = some stored) (hi : stored.find? wireKey = some item)
    (names : List String) (consistentRead : Option Bool) :
    ∃ request found, getItemRequest key table consistentRead names = .ok request ∧
      state.getItem request = (.ok { item := some found }, state) ∧
      (∀ name held, found.get? name = some held ↔
        item.get? name = some held ∧ (names = [] ∨ Lists names name)) ∧
      (∀ name ∈ names, IsListable name → found.get? name = item.get? name) ∧
      ((∀ listed ∈ names, ',' ∉ listed.toList) → ∀ name held, found.get? name = some held →
        names = [] ∨ name ∈ names) := by
  have hfound : ∀ name held, (project (Fragment.projection names).text?
      ⟨(Fragment.projection names).names.present, none⟩ item).get? name = some held ↔
        item.get? name = some held ∧ (names = [] ∨ Lists names name) :=
    fun name held => get?_project_projection none item held
  refine ⟨_, _, by rw [getItemRequest, hk]; rfl, ?_, hfound, ?_, ?_⟩
  · unfold State.getItem
    simp only [Option.getD_some, State.table_eq_ok h, Except.map, hi, Option.map_some]
  · intro name hm hlistable
    ext held
    rw [hfound, and_iff_left (.inr (lists_of_isListable hm hlistable))]
  · intro hc name held hheld
    exact ((hfound name held).1 hheld).2.imp_right (mem_of_lists hc)

def adaKey : PrimaryKey :=
  ⟨⟨⟨"id", .string⟩, .leaf (.string "ada")⟩, none⟩

/-- An item with an attribute whose name has a comma, and one named as what stands behind it. -/
def twoNotes : WireItem :=
  Named.ofList [("id", .leaf (.string "ada")), ("a,b", .leaf (.string "listed")),
    ("b", .leaf (.string "other")), ("c", .leaf (.string "third"))]

def notesState : State :=
  State.afterCalls {} [
    ⟨.createTable, { tableName := some "notes", keySchema := some [⟨"id", hashPart⟩] }⟩,
    ⟨.putItem, { tableName := some "notes", item := some twoNotes }⟩]

theorem getItem_listed_notes :
    adaKey.encode = .ok (Named.singleton "id" (.leaf (.string "ada"))) ∧
    ∃ stored, notesState.tables.get? "notes" = some stored ∧
      stored.find? (Named.singleton "id" (.leaf (.string "ada"))) = some twoNotes ∧
      ∃ request found, getItemRequest adaKey "notes" none ["c", "id"] = .ok request ∧
        notesState.getItem request = (.ok { item := some found }, notesState) ∧
        found.get? "c" = some (.leaf (.string "third")) ∧ found.get? "b" = none := by
  have hkey : adaKey.encode = .ok (Named.singleton "id" (.leaf (.string "ada"))) := rfl
  have hstored : notesState.tables.get? "notes" = some _ := rfl
  have hlistable : ∀ name ∈ ["c", "id"], IsListable name := by
    intro name hm
    apply isListable_of_checked
    rcases List.mem_pair.1 hm with rfl | rfl <;> rfl
  refine ⟨hkey, _, hstored, rfl, ?_⟩
  obtain ⟨request, found, hrequest, hanswer, -, hkept, honly⟩ :=
    getItem_listed hkey hstored rfl ["c", "id"] none
  refine ⟨request, found, hrequest, hanswer, ?_, ?_⟩
  · exact hkept "c" List.mem_cons_self (hlistable _ List.mem_cons_self)
  · rw [Option.eq_none_iff_forall_ne_some]
    intro held hheld
    have := honly (fun name hm => (hlistable name hm).1) "b" held hheld
    revert this
    decide

/-- A lookup that gives one name, with a comma, finds the attribute of another name and not that of
this one. -/
theorem getItem_finds_other_name : notesState.items "notes" = [twoNotes] ∧
    ∃ request, getItemRequest adaKey "notes" none ["a,b"] = .ok request ∧
      notesState.getItem request =
        (.ok { item := some (Named.singleton "b" (.leaf (.string "other"))) }, notesState) :=
  ⟨rfl, _, rfl, rfl⟩

end AttributeStore.Store
