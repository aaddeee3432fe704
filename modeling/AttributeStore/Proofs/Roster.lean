import AttributeStore.Roster
import Mathlib.Data.List.Induction
import Mathlib.Data.List.Nodup

/-!
# Lookups in rosters

A roster is read by `get?`: what it finds, that adding a member never takes the place of another,
and that a roster is made again of its own members.
-/

namespace AttributeStore

theorem find?_eq_some_iff_of_nodup {α β : Type} [DecidableEq β] (keyOf : α → β) {members : List α}
    (hd : (members.map keyOf).Nodup) {key : β} {member : α} :
    members.find? (fun other => keyOf other = key) = some member ↔
      member ∈ members ∧ keyOf member = key := by
  constructor
  · intro h
    exact ⟨List.mem_of_find?_eq_some h, by simpa using List.find?_some h⟩
  · rintro ⟨hm, rfl⟩
    cases hf : members.find? fun other => keyOf other = keyOf member with
    | none =>
      have := List.find?_eq_none.1 hf member hm
      simp at this
    | some other =>
      have hkey : keyOf other = keyOf member := by simpa using List.find?_some hf
      rw [List.inj_on_of_nodup_map hd (List.mem_of_find?_eq_some hf) hm hkey]

namespace Roster

variable {α : Type} {name : α → String} {roster : Roster name}

theorem mem_members_add {member other : α} (h : other ∈ (roster.add member).members) :
    other ∈ roster.members ∨ other = member := by
  unfold add at h
  split at h
  · simpa [append] using h
  · exact Or.inl h

theorem eq_of_name_eq {left right : α} (hl : left ∈ roster.members) (hr : right ∈ roster.members)
    (h : name left = name right) : left = right :=
  List.inj_on_of_nodup_map roster.distinct hl hr h

theorem get?_eq_some_iff {key : String} {member : α} :
    roster.get? key = some member ↔ member ∈ roster.members ∧ name member = key :=
  find?_eq_some_iff_of_nodup name roster.distinct

theorem exists_get?_iff {key : String} :
    (∃ member, roster.get? key = some member) ↔ key ∈ roster.names := by
  simp only [get?_eq_some_iff, names, List.mem_map]

theorem members_add (roster : Roster name) (member : α) :
    (roster.add member).members =
      if roster.contains (name member) = false then roster.members ++ [member]
      else roster.members := by
  unfold add
  split <;> rfl

theorem mem_members_of_add {member other : α} (h : other ∈ roster.members) :
    other ∈ (roster.add member).members := by
  rw [members_add]
  split
  · exact List.mem_append_left _ h
  · exact h

theorem get?_add_of_get? {key : String} {held : α} (h : roster.get? key = some held)
    (member : α) : (roster.add member).get? key = some held := by
  rw [get?_eq_some_iff] at h ⊢
  exact ⟨mem_members_of_add h.1, h.2⟩

theorem mem_names_add {key : String} {member : α} :
    key ∈ (roster.add member).names ↔ key ∈ roster.names ∨ key = name member := by
  rw [names, members_add]
  split
  · rw [List.map_append, List.mem_append, List.map_singleton, List.mem_singleton, names]
  · rename_i h
    have hmem : name member ∈ roster.names := (contains_iff _ _).1 (by simpa using h)
    refine ⟨.inl, ?_⟩
    rintro (hkey | rfl)
    · exact hkey
    · exact hmem

/-- What is there stays; otherwise the new member is found under its name. -/
theorem get?_add (roster : Roster name) (member : α) (key : String) :
    (roster.add member).get? key =
      (roster.get? key).or (if name member = key then some member else none) := by
  cases hheld : roster.get? key with
  | some held => rw [get?_add_of_get? hheld, Option.some_or]
  | none =>
    have hfresh : key ∉ roster.names := by
      rw [← exists_get?_iff]
      simp [hheld]
    rw [Option.none_or]
    split
    · rename_i h
      subst h
      obtain ⟨held, hheld⟩ := exists_get?_iff.2 (mem_names_add.2 (.inr rfl))
      obtain ⟨hm, hname⟩ := get?_eq_some_iff.1 hheld
      rcases mem_members_add hm with hm | rfl
      · exact (hfresh (List.mem_map.2 ⟨held, hm, hname⟩)).elim
      · exact hheld
    · rename_i h
      cases hother : (roster.add member).get? key with
      | none => rfl
      | some other =>
        rcases mem_names_add.1 (exists_get?_iff.1 ⟨other, hother⟩) with hkey | rfl
        · exact (hfresh hkey).elim
        · exact (h rfl).elim

theorem prefix_members_add (roster : Roster name) (member : α) :
    roster.members <+: (roster.add member).members := by
  rw [members_add]
  split
  · exact List.prefix_append _ _
  · exact List.prefix_refl _

/-! ## Several members -/

theorem mem_names_foldl_add {key : String} {members : List α} :
    key ∈ (members.foldl add roster).names ↔ key ∈ roster.names ∨ key ∈ members.map name := by
  induction members generalizing roster with
  | nil => simp
  | cons member rest ih =>
    rw [List.foldl_cons, ih, mem_names_add, List.map_cons, List.mem_cons, or_assoc]

/-- Of several members of a name the first one stays. -/
theorem get?_foldl_add (roster : Roster name) (members : List α) (key : String) :
    (members.foldl add roster).get? key =
      (roster.get? key).or (members.find? fun member => name member = key) := by
  induction members generalizing roster with
  | nil => simp
  | cons member rest ih =>
    rw [List.foldl_cons, ih, get?_add, Option.or_assoc, List.find?_cons]
    by_cases h : name member = key <;> simp [h]

theorem prefix_members_foldl_add (roster : Roster name) (members : List α) :
    roster.members <+: (members.foldl add roster).members := by
  induction members generalizing roster with
  | nil => exact List.prefix_refl _
  | cons member rest ih => exact (prefix_members_add roster member).trans (ih _)

theorem members_put_of_fresh {member : α} (h : name member ∉ roster.names) :
    (roster.put member).members = roster.members ++ [member] := by
  have hfresh : roster.contains (name member) = false := by
    rw [Bool.eq_false_iff]
    exact fun hc => h ((contains_iff _ _).1 hc)
  rw [put, dif_pos hfresh]
  rfl

theorem members_foldl_put {members : List α} (start : Roster name)
    (h : ((start.members ++ members).map name).Nodup) :
    (members.foldl put start).members = start.members ++ members := by
  induction members generalizing start with
  | nil => rw [List.foldl_nil, List.append_nil]
  | cons member rest ih =>
    have hfresh : name member ∉ start.names := by
      rw [List.map_append, List.nodup_append] at h
      intro hm
      exact h.2.2 _ hm _ (List.mem_map_of_mem List.mem_cons_self) rfl
    have hmembers := members_put_of_fresh hfresh
    rw [List.foldl_cons, ih, hmembers, List.append_assoc, List.singleton_append]
    rw [hmembers, List.append_assoc, List.singleton_append]
    exact h

theorem mem_members_put {member other : α} :
    other ∈ (roster.put member).members ↔
      other = member ∨ (other ∈ roster.members ∧ name other ≠ name member) := by
  unfold put
  split
  · rename_i fresh
    have hne : ∀ old ∈ roster.members, name old ≠ name member := by
      simpa [contains] using fresh
    simp only [append, List.mem_append, List.mem_singleton]
    constructor
    · rintro (h | h)
      · exact .inr ⟨h, hne other h⟩
      · exact .inl h
    · rintro (h | h)
      · exact .inr h
      · exact .inl h.1
  · rename_i taken
    obtain ⟨held, hheld, hname⟩ : ∃ held ∈ roster.members, name held = name member := by
      simpa [contains] using taken
    rw [List.mem_map]
    constructor
    · rintro ⟨old, hold, rfl⟩
      split
      · exact .inl rfl
      · rename_i hne
        exact .inr ⟨hold, hne⟩
    · rintro (rfl | ⟨h, hne⟩)
      · exact ⟨held, hheld, if_pos hname⟩
      · exact ⟨other, h, if_neg hne⟩

theorem get?_put (roster : Roster name) (member : α) (key : String) :
    (roster.put member).get? key = if name member = key then some member else roster.get? key := by
  ext held
  rw [get?_eq_some_iff, mem_members_put]
  split
  · rename_i h
    subst h
    grind
  · rw [get?_eq_some_iff]
    grind

theorem names_put (roster : Roster name) (member : α) :
    (roster.put member).names =
      if name member ∈ roster.names then roster.names else roster.names ++ [name member] := by
  split
  · rename_i h
    have hcontains : roster.contains (name member) = true := (contains_iff _ _).2 h
    rw [put, dif_neg (by simp [hcontains]), names, names, List.map_map]
    refine List.map_congr_left fun old _ => ?_
    rw [Function.comp_apply]
    split
    · rename_i hname
      exact hname.symm
    · rfl
  · rename_i h
    rw [names, members_put_of_fresh h, List.map_append, names]
    rfl

theorem ofList_concat (members : List α) (member : α) :
    (ofList (members ++ [member]) : Roster name) = (ofList members).put member := by
  rw [ofList, List.foldl_append]
  rfl

theorem names_ofList (members : List α) :
    (ofList members : Roster name).names = (members.map name).eraseDups := by
  induction members using List.reverseRecOn with
  | nil => rfl
  | append_singleton members member ih =>
    rw [ofList_concat, names_put, ih, List.map_append, List.eraseDups_append, List.map_singleton,
      List.removeAll]
    simp only [List.mem_eraseDups]
    split
    · rename_i h
      rw [List.filter_cons_of_neg (by simpa using List.mem_map.1 h), List.filter_nil,
        List.eraseDups_nil, List.append_nil]
    · rename_i h
      rw [List.filter_cons_of_pos (by simpa using h), List.filter_nil, List.eraseDups_cons,
        List.filter_nil, List.eraseDups_nil]

theorem get?_ofList (members : List α) (key : String) :
    (ofList members : Roster name).get? key =
      members.reverse.find? fun member => name member = key := by
  induction members using List.reverseRecOn with
  | nil => rfl
  | append_singleton members member ih =>
    rw [ofList_concat, get?_put, List.reverse_concat, List.find?_cons, ih]
    by_cases h : name member = key <;> simp [h]

/-- Under a name stands the last member of the list that has it. -/
theorem get?_ofList_eq_some_iff {members : List α} {member : α} :
    (ofList members : Roster name).get? (name member) = some member ↔
      ∃ before after, members = before ++ member :: after ∧
        ∀ other ∈ after, name other ≠ name member := by
  rw [get?_ofList, List.find?_eq_some_iff_append]
  constructor
  · rintro ⟨-, after, before, heq, hafter⟩
    refine ⟨before.reverse, after.reverse, ?_, fun other hm => ?_⟩
    · rw [← List.reverse_reverse members, heq]
      simp
    · simpa using hafter other (List.mem_reverse.1 hm)
  · rintro ⟨before, after, rfl, hafter⟩
    refine ⟨decide_eq_true rfl, after.reverse, before.reverse, by simp, fun other hm => ?_⟩
    simpa using hafter other (List.mem_reverse.1 hm)

theorem ofList_members (roster : Roster name) : ofList roster.members = roster := by
  have hmembers : (ofList roster.members).members = roster.members :=
    members_foldl_put empty roster.distinct
  generalize ofList roster.members = made at hmembers
  obtain ⟨members, hd⟩ := made
  obtain rfl : members = roster.members := hmembers
  rfl

end Roster

end AttributeStore
