import AttributeStore.Proofs.Selection.Fragments

/-!
# Rendered selections mean what they say

The placeholders of a rendering resolve for every condition of the selection: letters tell the
roles and bounds apart, and within a role no two conditions have one name. So the store evaluates
the key condition of a query to the truth of all key conditions, the filter to the truth of some
alternative, and the filter of a scan to both.
-/

namespace AttributeStore

open Store (Placeholders Partial evaluate expressionWords)

namespace Selection

variable {selection : Selection} {attributes : Catalog}

/-- What a checked selection is free of. -/
structure Checked (selection : Selection) : Prop where
  joint : ∀ condition ∈ selection.keyConditions.members, condition.connective = .and
  key : ∀ condition ∈ selection.keyConditions.members, checkAttributeName condition.name = .ok ()
  filter : ∀ condition ∈ selection.filterConditions.members,
    checkAttributeName condition.name = .ok ()

theorem check_eq_ok_iff :
    selection.check = .ok () ↔ selection.rejected = [] ∧
      (∀ condition ∈ selection.keyConditions.members, condition.connective ≠ .or) ∧
      ∀ name ∈ selection.keyConditions.names ++ selection.filterConditions.names ++
        selection.projection, checkAttributeName name = .ok () := by
  unfold check
  cases hrejected : selection.rejected with
  | cons rejected rest => simp
  | nil =>
    cases hor : selection.keyConditions.members.find? (·.connective = .or) with
    | some condition =>
      have hjoined : condition.connective = .or := by simpa using List.find?_some hor
      simp only [throw, throwThe, MonadExceptOf.throw, bind, Except.bind, reduceCtorEq, true_and,
        false_iff, not_and]
      exact fun hne => (hne condition (List.mem_of_find?_eq_some hor) hjoined).elim
    | none =>
      have hne := List.find?_eq_none.1 hor
      simp only [decide_eq_true_eq] at hne
      simp only [List.forM_eq_forM, forM_eq_ok, true_and]
      exact (and_iff_right hne).symm

theorem checked_of_check (h : selection.check = .ok ()) : selection.Checked := by
  obtain ⟨-, hjoint, hnames⟩ := check_eq_ok_iff.1 h
  refine ⟨?_, ?_, ?_⟩
  · intro condition hc
    cases hconnective : condition.connective with
    | and => rfl
    | or => exact (hjoint condition hc hconnective).elim
  · intro condition hc
    exact hnames _ (List.mem_append_left _ (List.mem_append_left _ (List.mem_map_of_mem hc)))
  · intro condition hc
    exact hnames _ (List.mem_append_left _ (List.mem_append_right _ (List.mem_map_of_mem hc)))

theorem projection_of_render {kind : ReadKind} {rendering : Rendering}
    (h : selection.render kind attributes = .ok rendering) :
    ∀ name ∈ selection.projection, checkAttributeName name = .ok () := by
  unfold render at h
  simp only [bind_eq_ok, mapError_eq_ok] at h
  obtain ⟨_, hcheck, -⟩ := h
  intro name hm
  exact (check_eq_ok_iff.1 hcheck).2.2 name (List.mem_append_right _ hm)

end Selection

/-! ## Placeholders resolve -/

/-- A projected name with its placeholder. -/
def Projected (names : List String) (key name : String) : Prop :=
  key = "#p_" ++ name ∧ name ∈ names

def projectedFragment (name : String) : Fragment :=
  ⟨"#p_" ++ name, Named.singleton ("#p_" ++ name) name, ∅⟩

theorem spans_projection (names : List String) :
    (Fragment.projection names).names.Spans (Projected names) ∧
      (Fragment.projection names).values.Spans fun _ _ => False := by
  obtain ⟨h, h'⟩ := Fragment.spans_joinAll ", " (names.map projectedFragment)
  refine ⟨h.congr ?_, h'.congr ?_⟩
  · intro key name
    simp [Projected, projectedFragment, Named.get?_singleton, and_comm, eq_comm]
  · intro key value
    simp only [List.mem_map, exists_exists_and_eq_and, iff_false, not_exists, not_and]
    intro name _ hvalue
    cases hvalue

namespace Condition

theorem drop_namePlaceholder (condition : Condition) :
    condition.namePlaceholder.toList.drop 3 = condition.name.toList := by
  unfold namePlaceholder
  cases condition.role <;> simp [Role.letters, String.toList_append]

end Condition

theorem drop_of_projected {names : List String} {key name : String}
    (h : Projected names key name) : key.toList.drop 3 = name.toList := by
  rw [h.1]
  simp [String.toList_append]

theorem get?_projection_eq_some_iff {names : List String} {key name : String} :
    (Fragment.projection names).names.get? key = some name ↔ Projected names key name := by
  obtain ⟨hspans, _⟩ := spans_projection names
  refine ⟨hspans.sound key name, hspans.get? ?_⟩
  intro key left right hl hr
  exact String.toList_injective ((drop_of_projected hl).symm.trans (drop_of_projected hr))

theorem drop_of_named {conditions : List Condition} {names : List String} {key name : String}
    (h : (∃ condition ∈ conditions, key = condition.namePlaceholder ∧ name = condition.name) ∨
      Projected names key name) : key.toList.drop 3 = name.toList := by
  rcases h with ⟨condition, _, rfl, rfl⟩ | h
  · exact condition.drop_namePlaceholder
  · exact drop_of_projected h

namespace Condition

/-- A placeholder of an operand tells role and name, when the letters of the two roles differ and
are as long as each other. -/
theorem placeholder_inj {letters : Role → String} (hne : letters .key ≠ letters .filter)
    (hlength : (letters .key).toList.length = (letters .filter).toList.length)
    {left right : Condition}
    (h : ":" ++ letters left.role ++ "_" ++ left.name =
      ":" ++ letters right.role ++ "_" ++ right.name) :
    left.role = right.role ∧ left.name = right.name := by
  have hsame (role : Role) : (letters role).toList.length = (letters .filter).toList.length := by
    cases role with
    | key => exact hlength
    | filter => rfl
  rw [← String.toList_inj] at h
  simp only [String.toList_append, List.append_assoc, List.append_cancel_left_eq] at h
  obtain ⟨hletters, hrest⟩ := List.append_inj h ((hsame left.role).trans (hsame right.role).symm)
  refine ⟨?_, String.toList_injective (List.append_cancel_left hrest)⟩
  replace hletters := String.toList_injective hletters
  match hl : left.role, hr : right.role with
  | .key, .key => rfl
  | .key, .filter => exact (hne (hl ▸ hr ▸ hletters)).elim
  | .filter, .key => exact (hne (hl ▸ hr ▸ hletters.symm)).elim
  | .filter, .filter => rfl

theorem valuePlaceholder_inj {left right : Condition}
    (h : left.valuePlaceholder = right.valuePlaceholder) :
    left.role = right.role ∧ left.name = right.name :=
  @placeholder_inj Role.letters (by decide) rfl left right h

theorem upperPlaceholder_inj {left right : Condition}
    (h : left.upperPlaceholder = right.upperPlaceholder) :
    left.role = right.role ∧ left.name = right.name :=
  @placeholder_inj Role.upperLetters (by decide) rfl left right h

theorem valuePlaceholder_ne_upperPlaceholder (left right : Condition) :
    left.valuePlaceholder ≠ right.upperPlaceholder := by
  unfold valuePlaceholder upperPlaceholder
  cases left.role <;> cases right.role <;>
    simp [Role.letters, Role.upperLetters, ← String.toList_inj]

theorem placeholder_of_mem_places {condition : Condition} {key : String} {value : Value}
    (h : (key, value) ∈ condition.places) :
    key = condition.valuePlaceholder ∨ key = condition.upperPlaceholder := by
  unfold places at h
  cases hc : condition.comparison with
  | compare comparator operand =>
    rw [hc] at h
    simp only [List.mem_singleton, Prod.mk.injEq] at h
    exact Or.inl h.1
  | between lower upper =>
    rw [hc] at h
    simp only [List.mem_cons, Prod.mk.injEq, List.not_mem_nil, or_false] at h
    exact h.imp And.left And.left

/-- Operands of one placeholder belong to conditions of one role and name. -/
theorem same_of_mem_places {left right : Condition} {key : String} {value value' : Value}
    (h : (key, value) ∈ left.places) (h' : (key, value') ∈ right.places) :
    left.role = right.role ∧ left.name = right.name := by
  rcases placeholder_of_mem_places h with rfl | rfl
  · rcases placeholder_of_mem_places h' with h' | h'
    · exact valuePlaceholder_inj h'
    · exact (valuePlaceholder_ne_upperPlaceholder left right h').elim
  · rcases placeholder_of_mem_places h' with h' | h'
    · exact (valuePlaceholder_ne_upperPlaceholder right left h'.symm).elim
    · exact upperPlaceholder_inj h'

theorem operand_unique {condition : Condition} {key : String} {value value' : Value}
    (h : (key, value) ∈ condition.places) (h' : (key, value') ∈ condition.places) :
    value = value' := by
  have hne := valuePlaceholder_ne_upperPlaceholder condition condition
  unfold places at h h'
  cases hc : condition.comparison with
  | compare comparator operand =>
    rw [hc] at h h'
    simp only [List.mem_singleton, Prod.mk.injEq] at h h'
    rw [h.2, h'.2]
  | between lower upper =>
    rw [hc] at h h'
    simp only [List.mem_cons, Prod.mk.injEq, List.not_mem_nil, or_false] at h h'
    rcases h with ⟨rfl, rfl⟩ | ⟨rfl, rfl⟩
    · rcases h' with ⟨_, rfl⟩ | ⟨h', _⟩
      · rfl
      · exact (hne h').elim
    · rcases h' with ⟨h', _⟩ | ⟨_, rfl⟩
      · exact (hne h'.symm).elim
      · rfl

end Condition

namespace Selection

variable {selection : Selection} {attributes : Catalog} {key filter : Fragment}

def members (selection : Selection) : List Condition :=
  selection.keyConditions.members ++ selection.filterConditions.members

theorem ByRole.eq_of_same (h : selection.ByRole) {left right : Condition}
    (hl : left ∈ selection.members) (hr : right ∈ selection.members)
    (hrole : left.role = right.role) (hname : left.name = right.name) : left = right := by
  rcases List.mem_append.1 hl with hl | hl
  · rcases List.mem_append.1 hr with hr | hr
    · exact Roster.eq_of_name_eq hl hr hname
    · rw [h.key left hl, h.filter right hr] at hrole
      cases hrole
  · rcases List.mem_append.1 hr with hr | hr
    · rw [h.filter left hl, h.key right hr] at hrole
      cases hrole
    · exact Roster.eq_of_name_eq hl hr hname

/-- Maps that hold the names and operands of all conditions resolve each of them. -/
theorem ByRole.resolves (h : selection.ByRole) {names : Named String} {values : Named Attribute}
    (hnames : names.Spans fun key name =>
      (∃ condition ∈ selection.members, key = condition.namePlaceholder ∧ name = condition.name) ∨
        Projected selection.projection key name)
    (hvalues : values.Spans fun key encoded => ∃ condition ∈ selection.members,
      condition.Encodes (attributes.declared condition.name) key encoded)
    {condition : Condition} (hc : condition ∈ selection.members)
    (hencoded : ∀ place ∈ condition.places, ∃ encoded,
      place.2.encodeWith (attributes.declared condition.name) = .ok encoded) :
    condition.Resolves ⟨names.present, values.present⟩ attributes := by
  constructor
  · have hname : names.get? condition.namePlaceholder = some condition.name := by
      refine hnames.get? ?_ (Or.inl ⟨condition, hc, rfl, rfl⟩)
      intro key a b ha hb
      exact String.toList_injective ((drop_of_named ha).symm.trans (drop_of_named hb))
    exact Placeholders.name_of_get? (namePlaceholder_head condition) hname _
  · intro place hplace
    obtain ⟨encoded, hencode⟩ := hencoded place hplace
    have hvalue : values.get? place.1 = some encoded := by
      refine hvalues.get? ?_ ⟨condition, hc, place.2, hplace, hencode⟩
      rintro key a b ⟨left, hleft, v, hv, ha⟩ ⟨right, hright, w, hw, hb⟩
      obtain ⟨hrole, hname⟩ := Condition.same_of_mem_places hv hw
      obtain rfl := h.eq_of_same hleft hright hrole hname
      obtain rfl := Condition.operand_unique hv hw
      exact Except.ok.inj (ha.symm.trans hb)
    exact ⟨encoded, hencode, Placeholders.value_of_get? hvalue _⟩

end Selection

/-! ## Evaluating rendered expressions -/

section

variable {placeholders : Placeholders} {attributes : Catalog} {item : WireItem}
  {conditions : List Condition} {fragment : Fragment}

theorem Writes.evaluate_text? (h : Writes attributes conditions fragment)
    (hr : ∀ condition ∈ conditions, condition.Resolves placeholders attributes) :
    evaluate fragment.text? placeholders item =
      .ok (Condition.joinedHold attributes item conditions) := by
  unfold Fragment.text?
  rw [h.isEmpty]
  cases conditions with
  | nil => rfl
  | cons first rest =>
    change Store.operand placeholders item [] {} (expressionWords fragment.text) = _
    rw [h.words, ← List.append_nil (Condition.allWords _), operand_allWords hr, Store.operator,
      value_foldl_allWords]

theorem Writes.evaluate_parenthesized {first second : Condition} {others : List Condition}
    {before : Fragment} (h : Writes attributes (first :: conditions) before)
    (h' : Writes attributes (second :: others) fragment)
    (hand : ∀ condition ∈ conditions, condition.connective = .and)
    (hr : ∀ condition ∈ first :: conditions, condition.Resolves placeholders attributes)
    (hr' : ∀ condition ∈ second :: others, condition.Resolves placeholders attributes) :
    Store.operand placeholders item [] {}
        (expressionWords (before.text ++ Connective.and.text ++ ("(" ++ fragment.text ++ ")"))) =
      .ok ((first :: conditions).all (Condition.holds attributes item) &&
        Condition.joinedHold attributes item (second :: others)) := by
  rw [expressionWords_connective, Store.expressionWords_parentheses, h.words, h'.words,
    operand_allWords hr]
  rw [Connective.word, Store.operator, List.cons_append, Store.operand, operand_allWords hr',
    Store.operator_close, Store.operator, value_foldl_allWords, foldl_joinResult_of_and hand]
  simp [Partial.and, Partial.value]

theorem Writes.evaluate_joined {first second : Condition} {others : List Condition}
    {before : Fragment} (h : Writes attributes (first :: conditions) before)
    (h' : Writes attributes (second :: others) fragment)
    (hand : ∀ condition ∈ conditions, condition.connective = .and)
    (hand' : ∀ condition ∈ others, condition.connective = .and)
    (hr : ∀ condition ∈ first :: conditions, condition.Resolves placeholders attributes)
    (hr' : ∀ condition ∈ second :: others, condition.Resolves placeholders attributes) :
    Store.operand placeholders item [] {}
        (expressionWords (before.text ++ Connective.and.text ++ fragment.text)) =
      .ok ((first :: conditions).all (Condition.holds attributes item) &&
        Condition.joinedHold attributes item (second :: others)) := by
  rw [expressionWords_connective, h.words, h'.words, operand_allWords hr, Connective.word,
    Store.operator, ← List.append_nil (Condition.allWords (second :: others)),
    operand_allWords hr', Store.operator, foldl_joinResult_of_and hand,
    foldl_joinResult_of_and hand', joinedHold_of_and hand']
  simp [Partial.and, Partial.value, Bool.and_assoc]

theorem Fragment.text?_congr {left right : Fragment} (h : left.text = right.text) :
    left.text? = right.text? := by
  rw [Fragment.text?, Fragment.text?, Fragment.isEmpty, Fragment.isEmpty, h]

theorem evaluate_text?_of_text {text : String} (hf : fragment.text = text)
    (hne : text.isEmpty = false) :
    evaluate fragment.text? placeholders item =
      Store.operand placeholders item [] {} (expressionWords text) := by
  rw [Fragment.text?, Fragment.isEmpty, hf, hne]
  rfl

theorem Selection.connective_of_filterHasOr {selection : Selection}
    (h : ¬selection.filterHasOr = true) :
    ∀ condition ∈ selection.filterConditions.members.drop 1, condition.connective = .and := by
  intro condition hc
  cases hconnective : condition.connective with
  | and => rfl
  | or => exact (h (List.any_eq_true.2 ⟨condition, hc, decide_eq_true hconnective⟩)).elim

theorem Selection.evaluate_scanFilter {selection : Selection} {key filter : Fragment}
    (hk : Writes attributes selection.keyConditions.members key)
    (hf : Writes attributes selection.filterConditions.members filter)
    (hand : ∀ condition ∈ selection.keyConditions.members, condition.connective = .and)
    (hr : ∀ condition ∈ selection.members, condition.Resolves placeholders attributes) :
    evaluate (selection.scanFilter key filter).text? placeholders item =
      .ok (selection.keyHolds attributes item && selection.filterHolds attributes item) := by
  have hrk := fun c hc => hr c (List.mem_append_left _ hc)
  have hrf := fun c hc => hr c (List.mem_append_right _ hc)
  have hkey : key.text.isEmpty = selection.keyConditions.members.isEmpty := hk.isEmpty
  have hfilter : filter.text.isEmpty = selection.filterConditions.members.isEmpty := hf.isEmpty
  unfold keyHolds filterHolds
  cases hks : selection.keyConditions.members with
  | nil =>
    rw [hks, List.isEmpty_nil] at hkey
    have htext : (selection.scanFilter key filter).text = filter.text := by
      simp [scanFilter, Fragment.join, joinText, Fragment.isEmpty, hkey]
    rw [Fragment.text?_congr htext, hf.evaluate_text? hrf]
    simp
  | cons first rest =>
    rw [hks] at hk hand hrk
    rw [hks, List.isEmpty_cons] at hkey
    have hrest := fun c hc => hand c (List.mem_cons_of_mem _ hc)
    cases hfs : selection.filterConditions.members with
    | nil =>
      rw [hfs, List.isEmpty_nil] at hfilter
      have htext : (selection.scanFilter key filter).text = key.text := by
        simp [scanFilter, filterHasOr, hfs, Fragment.join, joinText, hkey, hfilter]
      rw [Fragment.text?_congr htext, hk.evaluate_text? hrk, joinedHold_of_and hrest]
      simp [Condition.joinedHold]
    | cons second others =>
      rw [hfs] at hf hrf
      rw [hfs, List.isEmpty_cons] at hfilter
      by_cases hor : selection.filterHasOr = true
      · have htext : (selection.scanFilter key filter).text =
            key.text ++ Connective.and.text ++ ("(" ++ filter.text ++ ")") := by
          simp [scanFilter, hor, Fragment.join, joinText, Fragment.isEmpty,
            Fragment.parenthesize, hkey]
        rw [evaluate_text?_of_text htext (by simp), hk.evaluate_parenthesized hf hrest hrk hrf]
      · have htext : (selection.scanFilter key filter).text =
            key.text ++ Connective.and.text ++ filter.text := by
          simp [scanFilter, hor, Fragment.join, joinText, hkey, hfilter]
        have hothers := connective_of_filterHasOr hor
        rw [hfs, List.drop_one, List.tail_cons] at hothers
        have hne : filter.text ≠ "" := by simpa using hfilter
        rw [evaluate_text?_of_text htext (by simp [hne]),
          hk.evaluate_joined hf hrest hothers hrk hrf]

end

namespace Selection

variable {selection : Selection} {attributes : Catalog} {item : WireItem}

/-- The placeholders of expressions put together resolve for every condition. -/
theorem ByRole.resolves_assemble (h : selection.ByRole) {key filter left right : Fragment}
    (hk : Writes attributes selection.keyConditions.members key)
    (hf : Writes attributes selection.filterConditions.members filter)
    (hnames : left.names.union right.names = key.names.union filter.names)
    (hvalues : left.values.union right.values = key.values.union filter.values) :
    ∀ condition ∈ selection.members, condition.Resolves
      ⟨(selection.assemble left right).names, (selection.assemble left right).values⟩
      attributes := by
  intro condition hc
  obtain ⟨hprojected, hnone⟩ := spans_projection selection.projection
  unfold assemble
  dsimp only
  rw [hnames, hvalues]
  refine h.resolves (((hk.names.union hf.names).union hprojected).congr ?_)
    (((hk.values.union hf.values).union hnone).congr ?_) hc ?_
  · intro key name
    simp [members, or_and_right, exists_or]
  · intro key encoded
    simp [members, or_and_right, exists_or]
  · rcases List.mem_append.1 hc with hc | hc
    · exact hk.encoded condition hc
    · exact hf.encoded condition hc

def assembleFor (selection : Selection) (key filter : Fragment) : ReadKind → Rendering
  | .query => selection.assemble key filter
  | .scan => selection.assemble Fragment.empty (selection.scanFilter key filter)

/-- What rendering gives when it succeeds. A query has a key condition. -/
theorem render_spec {kind : ReadKind} {rendering : Rendering}
    (h : selection.render kind attributes = .ok rendering) :
    selection.Checked ∧ ∃ key filter,
      Writes attributes selection.keyConditions.members key ∧
      Writes attributes selection.filterConditions.members filter ∧
      (kind = .query → key.isEmpty = false) ∧
      rendering = selection.assembleFor key filter kind := by
  unfold render at h
  simp only [bind_eq_ok, mapError_eq_ok] at h
  obtain ⟨_, hcheck, key, hkey, filter, hfilter, hrest⟩ := h
  have hchecked := checked_of_check hcheck
  refine ⟨hchecked, key, filter, writes_conditionsFragment hchecked.key hkey,
    writes_conditionsFragment hchecked.filter hfilter, ?_⟩
  cases kind with
  | query =>
    cases hempty : key.isEmpty with
    | true =>
      rw [hempty] at hrest
      cases hrest
    | false =>
      simp only [hempty, Bool.false_eq_true, ↓reduceIte, pure_eq_ok] at hrest
      exact ⟨fun _ => rfl, hrest.symm⟩
  | scan =>
    refine ⟨?_, (pure_eq_ok.1 hrest).symm⟩
    intro hquery
    cases hquery

theorem scanFilter_placeholders (selection : Selection) (key filter : Fragment) :
    (selection.scanFilter key filter).names = key.names.union filter.names ∧
      (selection.scanFilter key filter).values = key.values.union filter.values := by
  unfold scanFilter
  split <;> exact ⟨rfl, rfl⟩

theorem joinedHold_eq_keyHolds (h : selection.Checked) :
    Condition.joinedHold attributes item selection.keyConditions.members =
      selection.keyHolds attributes item := by
  have hjoint := h.joint
  unfold keyHolds
  generalize selection.keyConditions.members = conditions at hjoint ⊢
  cases conditions with
  | nil => rfl
  | cons first rest => exact joinedHold_of_and fun c hc => hjoint c (List.mem_cons_of_mem _ hc)

/-- The expressions that a selection is rendered to have the meaning of the selection: those of a
query say the key conditions and the filter, that of a scan says both. -/
theorem evaluate_render (hb : selection.Built) (attributes : Catalog) (item : WireItem) :
    (∀ rendering, selection.render .query attributes = .ok rendering →
      evaluate rendering.keyCondition ⟨rendering.names, rendering.values⟩ item =
          .ok (selection.keyHolds attributes item) ∧
        evaluate rendering.filter ⟨rendering.names, rendering.values⟩ item =
          .ok (selection.filterHolds attributes item)) ∧
    ∀ rendering, selection.render .scan attributes = .ok rendering →
      evaluate rendering.filter ⟨rendering.names, rendering.values⟩ item =
        .ok (selection.keyHolds attributes item && selection.filterHolds attributes item) := by
  refine ⟨?_, ?_⟩
  · intro rendering h
    obtain ⟨hchecked, key, filter, hk, hf, _, rfl⟩ := render_spec h
    have hr := hb.byRole.resolves_assemble hk hf rfl rfl
    have hrk := fun c hc => hr c (List.mem_append_left _ hc)
    have hrf := fun c hc => hr c (List.mem_append_right _ hc)
    refine ⟨?_, hf.evaluate_text? hrf⟩
    exact (hk.evaluate_text? hrk).trans (congrArg _ (joinedHold_eq_keyHolds hchecked))
  · intro rendering h
    obtain ⟨hchecked, key, filter, hk, hf, _, rfl⟩ := render_spec h
    obtain ⟨hnames, hvalues⟩ := selection.scanFilter_placeholders key filter
    refine evaluate_scanFilter hk hf hchecked.joint (hb.byRole.resolves_assemble hk hf ?_ ?_)
    · rw [hnames]
      exact Named.empty_union _
    · rw [hvalues]
      exact Named.empty_union _

/-- People of an id who are of an age or have no job. -/
def idle : Selection :=
  { indexName := some "by_age" : Selection }
    |>.compare .key "id" (.compare .equal (.leaf (.string "ada")))
    |>.compare .filter "age" (.between (.leaf (.number ⟨"18"⟩)) (.leaf (.number ⟨"36"⟩)))
    |>.add { name := "job", comparison := .compare .equal (.leaf .null), role := .filter,
             connective := .or }

theorem built_idle : idle.Built :=
  (((Built.new.setIndex "by_age").add _).add _).add _

def ada : WireItem :=
  Named.ofList [("id", .leaf (.string "ada")), ("age", .leaf (.number "36.0"))]

theorem evaluate_render_idle : idle.Built ∧ ∃ queried scanned,
    idle.render .query ∅ = .ok queried ∧ idle.render .scan ∅ = .ok scanned ∧
    evaluate queried.keyCondition ⟨queried.names, queried.values⟩ ada = .ok true ∧
    evaluate queried.filter ⟨queried.names, queried.values⟩ ada = .ok true ∧
    evaluate scanned.filter ⟨scanned.names, scanned.values⟩ ada = .ok true := by
  have h := evaluate_render built_idle ∅ ada
  refine ⟨built_idle, _, _, rfl, rfl, (h.1 _ rfl).1.trans ?_, (h.1 _ rfl).2.trans ?_,
    (h.2 _ rfl).trans ?_⟩
  · decide +kernel
  · decide +kernel
  · decide +kernel

end Selection

end AttributeStore
