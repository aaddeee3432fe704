import AttributeStore.Proofs.Expectations
import AttributeStore.Proofs.Store.Projection

/-!
# The placeholders of a request

The maps of a request bind the placeholders that its expressions use, each one once, and no other.
An expression uses those of its words that begin with a mark, the words being those that the store
reads in it. The letters behind the mark keep the placeholders of key conditions, filters, upper
bounds, projections and preconditions apart, whatever the attributes are called.
-/

namespace AttributeStore

open Store (expressionWords expressionWords_parentheses flatMap_projectedWords
  isListable_of_checked listedWords listedWords_projection)

/-! ## Marked words -/

def marked (mark : Char) (words : List String) : List String :=
  words.filter fun word => word.toList.head? = some mark

variable {mark : Char}

@[simp] theorem marked_nil : marked mark [] = [] := rfl

theorem marked_cons (word : String) (rest : List String) :
    marked mark (word :: rest) =
      if word.toList.head? = some mark then word :: marked mark rest else marked mark rest := by
  simp [marked, List.filter_cons]

@[simp] theorem marked_append (first second : List String) :
    marked mark (first ++ second) = marked mark first ++ marked mark second :=
  List.filter_append _ _

/-- Placeholders of attributes begin with one mark, those of operands with the other. -/
def IsMark (mark : Char) : Prop :=
  mark = '#' ∨ mark = ':'

theorem IsMark.marked_connective (h : IsMark mark) (connective : Connective)
    (rest : List String) : marked mark (connective.word :: rest) = marked mark rest := by
  rw [marked_cons, if_neg]
  rcases h with rfl | rfl <;> cases connective <;> decide

theorem IsMark.marked_parenthesis (h : IsMark mark) {word : String} (hw : word = "(" ∨ word = ")")
    (rest : List String) : marked mark (word :: rest) = marked mark rest := by
  rw [marked_cons, if_neg]
  rcases h with rfl | rfl <;> rcases hw with rfl | rfl <;> decide

theorem IsMark.marked_joinText (h : IsMark mark) (connective : Connective) (left right : String) :
    marked mark (expressionWords (joinText connective.text left right)) =
      marked mark (expressionWords left) ++ marked mark (expressionWords right) := by
  have hempty {text : String} (ht : text.isEmpty = true) : expressionWords text = [] := by
    rw [String.isEmpty_iff.1 ht]
    rfl
  unfold joinText
  split
  · rename_i hleft
    rw [hempty hleft, marked_nil, List.nil_append]
  · split
    · rename_i hright
      rw [hempty hright, marked_nil, List.append_nil]
    · rw [expressionWords_connective, marked_append, h.marked_connective]

theorem IsMark.marked_parentheses (h : IsMark mark) (expression : String) :
    marked mark (expressionWords ("(" ++ expression ++ ")")) =
      marked mark (expressionWords expression) := by
  rw [expressionWords_parentheses, List.cons_append, h.marked_parenthesis (Or.inl rfl),
    marked_append, h.marked_parenthesis (Or.inr rfl), marked_nil, List.append_nil]

theorem Fragment.elim_text? (fragment : Fragment) :
    fragment.text?.elim [] expressionWords = expressionWords fragment.text := by
  unfold Fragment.text? Fragment.isEmpty
  split
  · rename_i hempty
    rw [String.isEmpty_iff.1 hempty]
    rfl
  · rfl

/-! ## Bound placeholders -/

/-- Optional maps bind the placeholders that words use, each one once, and no other. `aliases` are
the placeholders of attributes with what they stand for, `operands` those of operands with what
these encode to. -/
structure Binds (words : List String) (aliases : List (String × String))
    (operands : List (String × Except CodecError Attribute)) (names : Option (Named String))
    (values : Option (Named Attribute)) : Prop where
  names_iff : ∀ word, (∃ name, names.bind (·.get? word) = some name) ↔ word ∈ marked '#' words
  values_iff : ∀ word, (∃ encoded, values.bind (·.get? word) = some encoded) ↔
    word ∈ marked ':' words
  names_eq_none_iff : names = none ↔ marked '#' words = []
  values_eq_none_iff : values = none ↔ marked ':' words = []
  aliased : ∀ pair ∈ aliases, names.bind (·.get? pair.1) = some pair.2
  /-- There is one binding for each operand, of its placeholder to its own encoding. -/
  operands_perm : (values.elim [] fun values =>
    values.entries.map fun entry => (entry.1, Except.ok entry.2)).Perm operands

namespace Named

variable {α : Type}

theorem present_eq_none_iff (named : Named α) :
    named.present = none ↔ ∀ key, named.get? key = none := by
  rw [← isEmpty_iff, present]
  split
  · rename_i h
    exact iff_of_true rfl h
  · rename_i h
    exact iff_of_false (Option.some_ne_none _) h

theorem elim_present {β : Type} (named : Named α) (f : String × α → β) :
    (named.present.elim [] fun named => named.entries.map f) = named.entries.map f := by
  unfold present
  split
  · rename_i h
    rw [List.isEmpty_iff.1 h]
    rfl
  · rfl

theorem Spans.exists_iff {named : Named α} {pairs : String → α → Prop} (h : named.Spans pairs)
    (key : String) : (∃ value, named.get? key = some value) ↔ ∃ value, pairs key value :=
  ⟨fun ⟨value, hv⟩ => ⟨value, h.sound key value hv⟩, fun ⟨value, hv⟩ => h.bound key value hv⟩

theorem Spans.perm {named : Named α} {ε : Type} {pairs : List (String × Except ε α)}
    (h : named.Spans fun key value => (key, .ok value) ∈ pairs) (hd : (pairs.map Prod.fst).Nodup)
    (hok : ∀ pair ∈ pairs, ∃ value, pair.2 = .ok value) :
    (named.entries.map fun entry => (entry.1, Except.ok entry.2)).Perm pairs := by
  have hkeys : ((named.entries.map fun entry => (entry.1, Except.ok (ε := ε) entry.2)).map
      Prod.fst).Nodup := by
    rw [List.map_map]
    exact named.sorted.imp fun hlt => Std.ne_of_lt hlt
  refine (List.perm_ext_iff_of_nodup (.of_map _ hkeys) (.of_map _ hd)).2 ?_
  rintro ⟨key, outcome⟩
  simp only [List.mem_map, Prod.mk.injEq, Prod.exists]
  constructor
  · rintro ⟨key, value, hm, rfl, rfl⟩
    exact h.sound key value ((named.mem_entries_iff key value).1 hm)
  · intro hm
    obtain ⟨value, rfl⟩ := hok _ hm
    refine ⟨key, value, (named.mem_entries_iff key value).2 (h.get? ?_ hm), rfl, rfl⟩
    intro key left right hl hr
    have hsame := List.inj_on_of_nodup_map hd hl hr rfl
    exact Except.ok.inj (congrArg Prod.snd hsame)

end Named

/-- Maps that span the aliases and operands of words bind the placeholders of the words. -/
theorem binds_present {words : List String} {aliases : List (String × String)}
    {operands : List (String × Except CodecError Attribute)} {names : Named String}
    {values : Named Attribute}
    (hnames : names.Spans fun key name => (key, name) ∈ aliases)
    (hvalues : values.Spans fun key encoded => (key, .ok encoded) ∈ operands)
    (haliases : marked '#' words = aliases.map Prod.fst)
    (hoperands : marked ':' words = operands.map Prod.fst)
    (hone : ∀ {key left right}, (key, left) ∈ aliases → (key, right) ∈ aliases → left = right)
    (hd : (operands.map Prod.fst).Nodup)
    (hok : ∀ operand ∈ operands, ∃ encoded, operand.2 = .ok encoded) :
    Binds words aliases operands names.present values.present := by
  have hname (word : String) : (∃ name, names.get? word = some name) ↔ word ∈ marked '#' words := by
    rw [hnames.exists_iff, haliases]
    simp
  have hvalue (word : String) :
      (∃ encoded, values.get? word = some encoded) ↔ word ∈ marked ':' words := by
    rw [hvalues.exists_iff, hoperands, List.mem_map]
    constructor
    · rintro ⟨encoded, hm⟩
      exact ⟨_, hm, rfl⟩
    · rintro ⟨operand, hm, rfl⟩
      obtain ⟨encoded, hencoded⟩ := hok _ hm
      exact ⟨encoded, hencoded ▸ hm⟩
  constructor
  case names_iff => simpa only [Named.get?_present] using hname
  case values_iff => simpa only [Named.get?_present] using hvalue
  case names_eq_none_iff =>
    rw [Named.present_eq_none_iff, List.eq_nil_iff_forall_not_mem]
    simp only [← hname, Option.eq_none_iff_forall_ne_some, not_exists, ne_eq]
  case values_eq_none_iff =>
    rw [Named.present_eq_none_iff, List.eq_nil_iff_forall_not_mem]
    simp only [← hvalue, Option.eq_none_iff_forall_ne_some, not_exists, ne_eq]
  case aliased =>
    intro pair hm
    rw [Named.get?_present]
    exact hnames.get? hone hm
  case operands_perm =>
    rw [Named.elim_present]
    exact hvalues.perm hd hok

/-! ## Selections -/

namespace Condition

/-- The placeholders of the operands with what these encode to. -/
def encodings (attributes : Catalog) (condition : Condition) :
    List (String × Except CodecError Attribute) :=
  condition.places.map fun place =>
    (place.1, place.2.encodeWith (attributes.declared condition.name))

theorem map_fst_encodings (attributes : Catalog) (condition : Condition) :
    (condition.encodings attributes).map Prod.fst = condition.places.map Prod.fst := by
  rw [encodings, List.map_map]
  rfl

theorem valuePlaceholder_head (condition : Condition) :
    condition.valuePlaceholder.toList.head? = some ':' := by
  unfold valuePlaceholder
  simp [String.toList_append]

theorem upperPlaceholder_head (condition : Condition) :
    condition.upperPlaceholder.toList.head? = some ':' := by
  unfold upperPlaceholder
  simp [String.toList_append]

theorem marked_words (condition : Condition) :
    marked '#' condition.words = [condition.namePlaceholder] ∧
      marked ':' condition.words = condition.places.map Prod.fst := by
  have hname := namePlaceholder_head condition
  have hvalue := condition.valuePlaceholder_head
  have hupper := condition.upperPlaceholder_head
  unfold words places
  cases condition.comparison with
  | compare comparator operand =>
    cases comparator <;> simp [marked_cons, hname, hvalue, Comparator.symbol]
  | between lower upper => simp [marked_cons, hname, hvalue, hupper]

theorem marked_allWords (h : IsMark mark) (conditions : List Condition) :
    marked mark (allWords conditions) =
      conditions.flatMap fun condition => marked mark condition.words := by
  have hjoined (rest : List Condition) : marked mark (joinedWords rest) =
      rest.flatMap fun condition => marked mark condition.words := by
    induction rest with
    | nil => rfl
    | cons condition rest ih =>
      rw [joinedWords, List.flatMap_cons, List.flatMap_cons, List.cons_append,
        h.marked_connective, marked_append, ← ih]
      rfl
  cases conditions with
  | nil => rfl
  | cons condition rest =>
    rw [allWords, marked_append, hjoined, List.flatMap_cons]

theorem nodup_places (condition : Condition) : (condition.places.map Prod.fst).Nodup := by
  have hne := valuePlaceholder_ne_upperPlaceholder condition condition
  unfold places
  cases condition.comparison with
  | compare comparator operand => exact List.nodup_singleton _
  | between lower upper => simp [hne]

end Condition

theorem marked_projected (names : List String) :
    marked '#' (names.map ("#p_" ++ ·)) = names.map ("#p_" ++ ·) ∧
      marked ':' (names.map ("#p_" ++ ·)) = [] := by
  induction names with
  | nil => exact ⟨rfl, rfl⟩
  | cons name rest ih =>
    rw [List.map_cons, marked_cons, marked_cons, ih.1, ih.2]
    simp [String.toList_append]

def Rendering.words (rendering : Rendering) : List String :=
  rendering.keyCondition.elim [] expressionWords ++ rendering.filter.elim [] expressionWords ++
    rendering.projection.elim [] listedWords

namespace Selection

variable {selection : Selection} {attributes : Catalog}

/-- The placeholders of the attributes that a selection compares and projects. -/
def aliases (selection : Selection) : List (String × String) :=
  (selection.members.map fun condition => (condition.namePlaceholder, condition.name)) ++
    selection.projection.map fun name => ("#p_" ++ name, name)

def encodings (attributes : Catalog) (selection : Selection) :
    List (String × Except CodecError Attribute) :=
  selection.members.flatMap (Condition.encodings attributes)

theorem mem_aliases_iff {key name : String} :
    (key, name) ∈ selection.aliases ↔
      (∃ condition ∈ selection.members, key = condition.namePlaceholder ∧ name = condition.name) ∨
        Projected selection.projection key name := by
  simp only [aliases, List.mem_append, List.mem_map, Prod.mk.injEq, Projected]
  refine or_congr (exists_congr fun condition => and_congr_right' ?_) ?_
  · exact and_congr eq_comm eq_comm
  · constructor
    · rintro ⟨_, hm, rfl, rfl⟩
      exact ⟨rfl, hm⟩
    · rintro ⟨rfl, hm⟩
      exact ⟨name, hm, rfl, rfl⟩

theorem mem_encodings_iff {key : String} {encoded : Attribute} :
    (key, .ok encoded) ∈ selection.encodings attributes ↔ ∃ condition ∈ selection.members,
      condition.Encodes (attributes.declared condition.name) key encoded := by
  simp only [encodings, Condition.encodings, Condition.Encodes, List.mem_flatMap, List.mem_map,
    Prod.mk.injEq]
  refine exists_congr fun condition => and_congr_right' ?_
  constructor
  · rintro ⟨place, hm, rfl, hencoded⟩
    exact ⟨place.2, hm, hencoded⟩
  · rintro ⟨value, hm, hencoded⟩
    exact ⟨(key, value), hm, rfl, hencoded⟩

/-- No two operands of a selection have one placeholder. -/
theorem ByRole.nodup_encodings (h : selection.ByRole) :
    ((selection.encodings attributes).map Prod.fst).Nodup := by
  have hapart : selection.members.Pairwise fun left right =>
      ¬ (left.role = right.role ∧ left.name = right.name) := by
    refine List.pairwise_append.2 ⟨?_, ?_, ?_⟩
    · exact (List.pairwise_map.1 selection.keyConditions.distinct).imp fun hne hsame => hne hsame.2
    · exact (List.pairwise_map.1 selection.filterConditions.distinct).imp
        fun hne hsame => hne hsame.2
    · rintro left hl right hr ⟨hrole, _⟩
      rw [h.key left hl, h.filter right hr] at hrole
      cases hrole
  rw [encodings, List.map_flatMap]
  simp only [Condition.map_fst_encodings]
  refine List.nodup_flatMap.2 ⟨fun condition _ => condition.nodup_places, hapart.imp ?_⟩
  intro left right hne key hl hr
  obtain ⟨⟨key, value⟩, hplace, rfl⟩ := List.mem_map.1 hl
  obtain ⟨⟨key', value'⟩, hplace', hkey⟩ := List.mem_map.1 hr
  obtain rfl : key' = key := hkey
  exact hne (Condition.same_of_mem_places hplace hplace')

theorem marked_scanFilter (h : IsMark mark) (selection : Selection) (key filter : Fragment) :
    marked mark (expressionWords (selection.scanFilter key filter).text) =
      marked mark (expressionWords key.text) ++ marked mark (expressionWords filter.text) := by
  unfold scanFilter
  rw [Fragment.join, h.marked_joinText]
  split
  · rw [Fragment.parenthesize, h.marked_parentheses]
  · rfl

theorem marked_words_assembleFor (h : IsMark mark) {key filter : Fragment}
    (hk : Writes attributes selection.keyConditions.members key)
    (hf : Writes attributes selection.filterConditions.members filter)
    (hp : ∀ name ∈ selection.projection, checkAttributeName name = .ok ()) (kind : ReadKind) :
    marked mark (selection.assembleFor key filter kind).words =
      (selection.members.flatMap fun condition => marked mark condition.words) ++
        marked mark (selection.projection.map ("#p_" ++ ·)) := by
  have hmembers : (selection.members.flatMap fun condition => marked mark condition.words) =
      marked mark (expressionWords key.text) ++ marked mark (expressionWords filter.text) := by
    rw [hk.words, hf.words, Condition.marked_allWords h, Condition.marked_allWords h, members,
      List.flatMap_append]
  rw [hmembers, ← flatMap_projectedWords fun name hm => isListable_of_checked (hp name hm),
    ← (listedWords_projection _).1]
  cases kind with
  | query =>
    simp only [Rendering.words, assembleFor, assemble, Fragment.elim_text?, marked_append]
  | scan =>
    simp only [Rendering.words, assembleFor, assemble, Fragment.elim_text?, marked_append,
      marked_scanFilter h]
    rfl

theorem spans_assembleFor {key filter : Fragment}
    (hk : Writes attributes selection.keyConditions.members key)
    (hf : Writes attributes selection.filterConditions.members filter) (kind : ReadKind) :
    ∃ names values, (selection.assembleFor key filter kind).names = Named.present names ∧
      (selection.assembleFor key filter kind).values = Named.present values ∧
      (names.Spans fun key name => (key, name) ∈ selection.aliases) ∧
      values.Spans fun key encoded => (key, .ok encoded) ∈ selection.encodings attributes := by
  obtain ⟨hprojected, hnone⟩ := spans_projection selection.projection
  refine ⟨(key.names.union filter.names).union (Fragment.projection selection.projection).names,
    (key.values.union filter.values).union (Fragment.projection selection.projection).values,
    ?_, ?_, ((hk.names.union hf.names).union hprojected).congr ?_,
    ((hk.values.union hf.values).union hnone).congr ?_⟩
  · cases kind with
    | query => rfl
    | scan =>
      rw [assembleFor, assemble, (selection.scanFilter_placeholders key filter).1]
      exact congrArg (fun names : Named String => (names.union _).present) (Named.empty_union _)
  · cases kind with
    | query => rfl
    | scan =>
      rw [assembleFor, assemble, (selection.scanFilter_placeholders key filter).2]
      exact congrArg (fun values : Named Attribute => (values.union _).present)
        (Named.empty_union _)
  · intro key name
    simp [mem_aliases_iff, members, or_and_right, exists_or]
  · intro key encoded
    simp [mem_encodings_iff, members, or_and_right, exists_or]

/-- The maps of a rendering bind the placeholders of its expressions. -/
theorem binds_of_render (h : selection.ByRole) {kind : ReadKind} {rendering : Rendering}
    (hr : selection.render kind attributes = .ok rendering) :
    Binds rendering.words selection.aliases (selection.encodings attributes) rendering.names
      rendering.values := by
  have hp := projection_of_render hr
  obtain ⟨hchecked, key, filter, hk, hf, -, rfl⟩ := render_spec hr
  obtain ⟨names, values, hnames, hvalues, hspans, hspans'⟩ := spans_assembleFor hk hf kind
  rw [hnames, hvalues]
  refine binds_present hspans hspans' ?_ ?_ ?_ h.nodup_encodings ?_
  · rw [marked_words_assembleFor (Or.inl rfl) hk hf hp, (marked_projected _).1, aliases,
      List.map_append, List.map_map, List.map_map, List.map_eq_flatMap (l := selection.members)]
    simp only [fun condition : Condition => condition.marked_words.1]
    rfl
  · rw [marked_words_assembleFor (Or.inr rfl) hk hf hp, (marked_projected _).2, List.append_nil,
      encodings, List.map_flatMap]
    simp only [fun condition : Condition => condition.marked_words.2, Condition.map_fst_encodings]
  · intro key left right hl hr
    exact String.toList_injective ((drop_of_named (mem_aliases_iff.1 hl)).symm.trans
      (drop_of_named (mem_aliases_iff.1 hr)))
  · simp only [encodings, Condition.encodings, List.mem_flatMap, List.mem_map]
    rintro _ ⟨condition, hc, place, hplace, rfl⟩
    rcases List.mem_append.1 hc with hc | hc
    · exact hk.encoded condition hc place hplace
    · exact hf.encoded condition hc place hplace

end Selection

/-! ## Preconditions -/

namespace Precondition

variable {name : String} {precondition : Precondition} {fragment : Fragment}

def encodings (name : String) : Precondition → List (String × Except CodecError Attribute)
  | present | absent => []
  | equals value => [(":e_" ++ name, value.encode)]

theorem marked_words (name : String) (precondition : Precondition) :
    marked '#' (precondition.words name) = ["#e_" ++ name] ∧
      marked ':' (precondition.words name) = (precondition.encodings name).map Prod.fst := by
  cases precondition with
  | present => simp [words, encodings, marked_cons, String.toList_append]
  | absent => simp [words, encodings, marked_cons, String.toList_append]
  | equals value => simp [words, encodings, marked_cons, String.toList_append]

theorem mem_encodings_iff (h : precondition.fragment name = .ok fragment) {key : String}
    {encoded : Attribute} :
    fragment.values.get? key = some encoded ↔ (key, .ok encoded) ∈ precondition.encodings name := by
  rw [values_fragment h]
  cases precondition <;> simp [encodings, eq_comm]

theorem key_of_mem_encodings {key : String}
    (h : key ∈ (precondition.encodings name).map Prod.fst) : key = ":e_" ++ name := by
  cases precondition with
  | present => cases h
  | absent => cases h
  | equals value => simpa [encodings] using h

theorem nodup_encodings (name : String) (precondition : Precondition) :
    ((precondition.encodings name).map Prod.fst).Nodup := by
  cases precondition with
  | present => exact List.nodup_nil
  | absent => exact List.nodup_nil
  | equals value => exact List.nodup_singleton _

theorem ok_of_mem_encodings (h : precondition.fragment name = .ok fragment) :
    ∀ operand ∈ precondition.encodings name, ∃ encoded, operand.2 = .ok encoded := by
  have hencodes := exists_fragment_iff.1 ⟨fragment, h⟩
  cases precondition with
  | present => exact fun _ hm => (List.not_mem_nil hm).elim
  | absent => exact fun _ hm => (List.not_mem_nil hm).elim
  | equals value =>
    intro operand hm
    rw [List.mem_singleton.1 hm]
    exact hencodes

end Precondition

namespace Entry

variable {entry : Entry} {fragments : List Fragment}

def aliases (entry : Entry) : List (String × String) :=
  entry.expected.names.map fun name => ("#e_" ++ name, name)

/-- The placeholders of the values that an entry expects, with what these encode to. -/
def encodings (entry : Entry) : List (String × Except CodecError Attribute) :=
  entry.expected.members.flatMap fun (name, precondition) => precondition.encodings name

theorem nodup_encodings (entry : Entry) : (entry.encodings.map Prod.fst).Nodup := by
  rw [encodings, List.map_flatMap]
  refine List.nodup_flatMap.2 ⟨fun expectation _ => Precondition.nodup_encodings _ _, ?_⟩
  refine (List.pairwise_map.1 entry.expected.distinct).imp ?_
  intro left right hne key hl hr
  have hkeys := (Precondition.key_of_mem_encodings hl).symm.trans
    (Precondition.key_of_mem_encodings hr)
  exact hne (by simpa [← String.toList_inj] using hkeys)

theorem marked_foldl_join (h : IsMark mark) (fragments : List Fragment) (before : Fragment) :
    marked mark (expressionWords
        (fragments.foldl (fun before fragment => before.join " AND " fragment) before).text) =
      marked mark (expressionWords before.text) ++
        fragments.flatMap fun fragment => marked mark (expressionWords fragment.text) := by
  induction fragments generalizing before with
  | nil => exact (List.append_nil _).symm
  | cons fragment rest ih =>
    rw [List.foldl_cons, ih, List.flatMap_cons, ← List.append_assoc]
    exact congrArg (· ++ _) (h.marked_joinText .and before.text fragment.text)

theorem spans_names (hf : entry.expected.members.map expectationFragment = fragments.map .ok) :
    (Fragment.joinAll " AND " fragments).names.Spans
      fun key name => (key, name) ∈ entry.aliases := by
  refine (Fragment.spans_joinAll " AND " fragments).1.congr ?_
  intro key name
  simp only [aliases, Roster.names, List.mem_map, Prod.mk.injEq]
  constructor
  · rintro ⟨fragment, hm, hkey⟩
    obtain ⟨expectation, he, hfragment⟩ := Expectations.exists_of_mem_fragments hf hm
    rw [Precondition.names_fragment hfragment, Named.get?_singleton] at hkey
    simp only [Option.ite_none_right_eq_some, Option.some.injEq] at hkey
    exact ⟨_, ⟨expectation, he, rfl⟩, hkey⟩
  · rintro ⟨_, ⟨expectation, he, rfl⟩, rfl, rfl⟩
    obtain ⟨fragment, hm, hfragment⟩ := Expectations.exists_mem_fragments hf he
    refine ⟨fragment, hm, ?_⟩
    rw [Precondition.names_fragment hfragment, Named.get?_singleton, if_pos rfl]

theorem spans_values (hf : entry.expected.members.map expectationFragment = fragments.map .ok) :
    (Fragment.joinAll " AND " fragments).values.Spans
      fun key encoded => (key, .ok encoded) ∈ entry.encodings := by
  refine (Fragment.spans_joinAll " AND " fragments).2.congr ?_
  intro key encoded
  simp only [encodings, List.mem_flatMap]
  constructor
  · rintro ⟨fragment, hm, hkey⟩
    obtain ⟨expectation, he, hfragment⟩ := Expectations.exists_of_mem_fragments hf hm
    exact ⟨expectation, he, (Precondition.mem_encodings_iff hfragment).1 hkey⟩
  · rintro ⟨expectation, he, hkey⟩
    obtain ⟨fragment, hm, hfragment⟩ := Expectations.exists_mem_fragments hf he
    exact ⟨fragment, hm, (Precondition.mem_encodings_iff hfragment).2 hkey⟩

theorem marked_joinAll (h : IsMark mark)
    (hn : ∀ name ∈ entry.expected.names, checkAttributeName name = .ok ())
    (hf : entry.expected.members.mapM expectationFragment = .ok fragments) :
    marked mark (expressionWords (Fragment.joinAll " AND " fragments).text) =
      entry.expected.members.flatMap fun expectation =>
        marked mark (expectation.2.words expectation.1) := by
  have hused := map_eq_map_of_mapM hf fun expectation hm fragment hfragment =>
    congrArg (marked mark) (Precondition.words_fragment hfragment
      (hn expectation.1 (List.mem_map_of_mem hm)))
  rw [Fragment.joinAll, marked_foldl_join h, List.flatMap_def, List.flatMap_def, hused]
  rfl

/-- The maps of a condition bind the placeholders of its expression. -/
theorem binds_of_condition (hn : ∀ name ∈ entry.expected.names, checkAttributeName name = .ok ())
    {fragment : Fragment} (h : entry.condition = .ok fragment) :
    Binds (expressionWords fragment.text) entry.aliases entry.encodings fragment.names.present
      fragment.values.present := by
  unfold condition at h
  simp only [bind_eq_ok, pure_eq_ok] at h
  obtain ⟨fragments, hwritten, rfl⟩ := h
  have hf := mapM_eq_ok.1 hwritten
  refine binds_present (spans_names hf) (spans_values hf) ?_ ?_ ?_ entry.nodup_encodings ?_
  · rw [marked_joinAll (Or.inl rfl) hn hwritten, aliases, List.map_map, Roster.names, List.map_map,
      List.map_eq_flatMap]
    simp only [fun expectation : String × Precondition =>
      (expectation.2.marked_words expectation.1).1]
    rfl
  · rw [marked_joinAll (Or.inr rfl) hn hwritten, encodings, List.map_flatMap]
    simp only [fun expectation : String × Precondition =>
      (expectation.2.marked_words expectation.1).2]
  · intro key left right hl hr
    simp only [aliases, List.mem_map, Prod.mk.injEq] at hl hr
    obtain ⟨_, _, hleft, rfl⟩ := hl
    obtain ⟨_, _, hright, rfl⟩ := hr
    simpa [← String.toList_inj] using hleft.trans hright.symm
  · intro operand hm
    obtain ⟨expectation, he, hoperand⟩ := List.mem_flatMap.1 hm
    obtain ⟨fragment, -, hfragment⟩ := Expectations.exists_mem_fragments hf he
    exact Precondition.ok_of_mem_encodings hfragment operand hoperand

end Entry

/-! ## Requests -/

/-- Whatever the attributes of a selection or of the expectations of an entry are called, the maps
of its request bind exactly the placeholders that the expressions use. Each placeholder stands for
its own attribute, and each operand has a binding of its own. -/
theorem requests_bind_placeholders :
    (∀ (selection : Selection) (kind : ReadKind) (attributes : Catalog) (rendering : Rendering),
      selection.Built → selection.render kind attributes = .ok rendering →
        Binds rendering.words selection.aliases (selection.encodings attributes) rendering.names
          rendering.values) ∧
    ∀ (entry : Entry) (table : String),
      (∀ name ∈ entry.expected.names, checkAttributeName name = .ok ()) →
      (∃ fragment, entry.condition = .ok fragment) →
        ∃ request, entry.putRequest table = .ok request ∧
          Binds (request.conditionExpression.elim [] expressionWords) entry.aliases
            entry.encodings request.names request.values := by
  constructor
  · intro selection kind attributes rendering hb hr
    exact Selection.binds_of_render hb.byRole hr
  · rintro entry table hn ⟨fragment, hf⟩
    refine ⟨_, by rw [Entry.putRequest, hf]; rfl, ?_⟩
    rw [Fragment.elim_text?]
    exact Entry.binds_of_condition hn hf

/-- Conditions and projections of attributes that are called like the letters of a placeholder. -/
def lookalikes : Selection :=
  { ({} : Selection)
      |>.compare .key "x" (.between (.leaf (.number ⟨"1"⟩)) (.leaf (.number ⟨"2"⟩)))
      |>.compare .key "s_x" (.compare .equal (.leaf (.number ⟨"3"⟩)))
      |>.compare .filter "x" (.compare .less (.leaf (.number ⟨"4"⟩)))
      |>.compare .filter "s_x" (.between (.leaf (.number ⟨"5"⟩)) (.leaf (.number ⟨"6"⟩))) with
    projection := ["x", "s_x", "x"] }

theorem built_lookalikes : lookalikes.Built :=
  ((((Selection.Built.new.add _).add _).add _).add _).setProjection _

def expectingLookalikes : Entry where
  item := Named.ofList [("x", .leaf (.number "1"))]
  expected := Roster.ofList [("x", .equals (.leaf (.number ⟨"1"⟩))), ("s_x", .absent)]

theorem requests_bind_placeholders_lookalikes :
    (∃ queried, lookalikes.render .query ∅ = .ok queried ∧
      Binds queried.words lookalikes.aliases (lookalikes.encodings ∅) queried.names
        queried.values) ∧
    (∃ scanned, lookalikes.render .scan ∅ = .ok scanned ∧
      Binds scanned.words lookalikes.aliases (lookalikes.encodings ∅) scanned.names
        scanned.values) ∧
    ∃ request, expectingLookalikes.putRequest "points" = .ok request ∧
      Binds (request.conditionExpression.elim [] expressionWords) expectingLookalikes.aliases
        expectingLookalikes.encodings request.names request.values := by
  obtain ⟨hselections, hentries⟩ := requests_bind_placeholders
  refine ⟨⟨_, rfl, ?_⟩, ⟨_, rfl, ?_⟩, ?_⟩
  · exact hselections lookalikes .query ∅ _ built_lookalikes rfl
  · exact hselections lookalikes .scan ∅ _ built_lookalikes rfl
  · exact hentries expectingLookalikes "points" (by decide) ⟨_, rfl⟩

end AttributeStore
