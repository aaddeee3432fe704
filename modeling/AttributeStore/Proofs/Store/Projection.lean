import AttributeStore.Proofs.Selection.Rendering
import AttributeStore.Store.Page

/-!
# Cutting items to a projection

The names that the store reads in a written projection are those that were projected, so an item
is cut to exactly these attributes.
-/

namespace AttributeStore

namespace Text

theorem splitAt_append (separator : Char) (first second : List Char) :
    splitAt separator (first ++ separator :: second) =
      splitAt separator first ++ splitAt separator second := by
  induction first with
  | nil => simp [splitAt]
  | cons c rest ih =>
    rw [List.cons_append, splitAt, splitAt]
    split
    · rw [ih, List.cons_append]
    · rw [ih]
      cases hsplit : splitAt separator rest with
      | nil => exact (splitAt_ne_nil separator rest hsplit).elim
      | cons part parts => rfl

theorem splitAt_word {separator : Char} {word : List Char} (h : separator ∉ word) :
    splitAt separator word = [word] := by
  induction word with
  | nil => rfl
  | cons c rest ih =>
    rw [List.mem_cons, not_or] at h
    rw [splitAt, if_neg (Ne.symm h.1), ih h.2]

theorem dropWhile_blank {text : List Char} (h : ∀ c ∈ text.head?, isBlank c = false) :
    text.dropWhile isBlank = text := by
  cases text with
  | nil => rfl
  | cons c rest =>
    rw [List.dropWhile_cons_of_neg]
    simp [h c rfl]

theorem trim_eq_self {text : List Char} (hfirst : ∀ c ∈ text.head?, isBlank c = false)
    (hlast : ∀ c ∈ text.getLast?, isBlank c = false) : trim text = text := by
  unfold trim
  rw [dropWhile_blank hfirst, dropWhile_blank, List.reverse_reverse]
  rwa [List.head?_reverse]

theorem head?_trim_cons {c : Char} (hc : isBlank c = false) (rest : List Char) :
    (trim (c :: rest)).head? = some c := by
  have hfirst : (c :: rest).dropWhile isBlank = c :: rest := dropWhile_blank (by simpa using hc)
  rw [trim, hfirst, List.reverse_cons, List.dropWhile_append]
  split
  · rw [List.dropWhile_cons_of_neg (by simp [hc])]
    rfl
  · rw [List.reverse_append]
    rfl

theorem trim_cons_blank {blank : Char} (hb : isBlank blank = true) (text : List Char) :
    trim (blank :: text) = trim text := by
  unfold trim
  rw [List.dropWhile_cons_of_pos hb]

theorem map_trim_splitAt_blank {separator blank : Char} (hb : isBlank blank = true)
    (hne : blank ≠ separator) (text : List Char) :
    (splitAt separator (blank :: text)).map trim = (splitAt separator text).map trim := by
  rw [splitAt, if_neg hne]
  cases hsplit : splitAt separator text with
  | nil => exact (splitAt_ne_nil separator text hsplit).elim
  | cons part parts => rw [List.map_cons, List.map_cons, trim_cons_blank hb]

end Text

namespace Store

variable {placeholders : Placeholders}

def listedNames (placeholders : Placeholders) (expression : String) : List String :=
  (Text.splitAt ',' expression.toList).filterMap fun word =>
    (placeholders.name (String.ofList (Text.trim word))).toOption

theorem project_some (placeholders : Placeholders) (expression : String) (item : WireItem) :
    project (some expression) placeholders item =
      item.filterNames (· ∈ listedNames placeholders expression) :=
  rfl

def listedWords (expression : String) : List String :=
  (Text.splitAt ',' expression.toList).map fun word => String.ofList (Text.trim word)

/-- An expression lists the names that its words stand for. -/
theorem listedNames_eq (placeholders : Placeholders) (expression : String) :
    listedNames placeholders expression =
      (listedWords expression).filterMap fun word => (placeholders.name word).toOption := by
  rw [listedWords, List.filterMap_map]
  rfl

theorem listedWords_eq_map (expression : String) :
    listedWords expression =
      ((Text.splitAt ',' expression.toList).map Text.trim).map String.ofList := by
  rw [List.map_map]
  rfl

theorem listedWords_of_not_comma {text : String} (hc : ',' ∉ text.toList) :
    listedWords text = [String.ofList (Text.trim text.toList)] := by
  rw [listedWords, Text.splitAt_word hc, List.map_singleton]

theorem listedWords_append (left right : String) :
    listedWords (left ++ ", " ++ right) = listedWords left ++ listedWords right := by
  have hcomma : (", " : String).toList = [',', ' '] := rfl
  have hspace : Text.isBlank ' ' = true := by decide
  simp only [listedWords_eq_map]
  rw [String.toList_append, String.toList_append, hcomma, List.append_assoc,
    List.cons_append, List.cons_append, List.nil_append, Text.splitAt_append, List.map_append,
    Text.map_trim_splitAt_blank hspace (by decide), List.map_append]

/-- The words that the placeholder of a projected name makes in a list. -/
def projectedWords (name : String) : List String :=
  listedWords ("#p_" ++ name)

theorem listedWords_foldl (names : List String) {before : Fragment}
    (hb : before.text.isEmpty = false) :
    let result := (names.map projectedFragment).foldl
      (fun before fragment => before.join ", " fragment) before
    result.text.isEmpty = false ∧
      listedWords result.text = listedWords before.text ++ names.flatMap projectedWords := by
  induction names generalizing before with
  | nil => simp [hb]
  | cons name rest ih =>
    have htext : (before.join ", " (projectedFragment name)).text =
        before.text ++ ", " ++ ("#p_" ++ name) := by
      simp [Fragment.join, joinText, projectedFragment, hb]
    have hjoined : (before.join ", " (projectedFragment name)).text.isEmpty = false := by
      rw [htext]
      simp
    obtain ⟨hne, hlist⟩ := ih hjoined
    refine ⟨hne, hlist.trans ?_⟩
    rw [htext, listedWords_append, List.append_assoc, List.flatMap_cons]
    rfl

theorem listedWords_projection (names : List String) :
    (Fragment.projection names).text?.elim [] listedWords = names.flatMap projectedWords ∧
      ((Fragment.projection names).text? = none ↔ names = []) := by
  cases names with
  | nil => exact ⟨rfl, iff_of_true rfl rfl⟩
  | cons name rest =>
    have hfirst : (Fragment.empty.join ", " (projectedFragment name)).text = "#p_" ++ name := rfl
    have hjoined : (Fragment.empty.join ", " (projectedFragment name)).text.isEmpty = false := by
      rw [hfirst]
      simp
    obtain ⟨htext, hlist⟩ := listedWords_foldl rest hjoined
    have hsome : (Fragment.projection (name :: rest)).text? =
        some (Fragment.projection (name :: rest)).text := by
      rw [Fragment.text?, Fragment.isEmpty]
      exact if_neg (ne_true_of_eq_false htext)
    rw [hsome]
    refine ⟨hlist.trans ?_, iff_of_false (Option.some_ne_none _) (List.cons_ne_nil _ _)⟩
    rw [hfirst, List.flatMap_cons]
    rfl

/-- A name whose placeholder is one word of a list. -/
def IsListable (name : String) : Prop :=
  ',' ∉ name.toList ∧ ∀ c ∈ name.toList.getLast?, Text.isBlank c = false

theorem isListable_of_checked {name : String} (hn : checkAttributeName name = .ok ()) :
    IsListable name := by
  refine ⟨fun hc => ?_, fun c hc => (isWordChar_of_checked hn c (List.mem_of_getLast? hc)).1⟩
  have := (range_of_checked hn ',' hc).1
  revert this
  decide

theorem not_comma_placeholder {name : String} (hc : ',' ∉ name.toList) :
    ',' ∉ ("#p_" ++ name).toList := by
  rw [String.toList_append, List.mem_append, not_or]
  exact ⟨by decide, hc⟩

theorem projectedWords_of_isListable {name : String} (h : IsListable name) :
    projectedWords name = ["#p_" ++ name] := by
  have hfirst : ∀ c ∈ ("#p_" ++ name).toList.head?, Text.isBlank c = false := by
    intro c hc
    rw [head?_append rfl] at hc
    obtain rfl := Option.some.inj hc
    decide
  have hlast : ∀ c ∈ ("#p_" ++ name).toList.getLast?, Text.isBlank c = false := by
    intro c hc
    rw [String.toList_append, List.getLast?_append] at hc
    rcases Option.or_eq_some_iff.1 hc with hc | ⟨_, hc⟩
    · exact h.2 c hc
    · obtain rfl := Option.some.inj hc
      decide
  rw [projectedWords, listedWords_of_not_comma (not_comma_placeholder h.1),
    Text.trim_eq_self hfirst hlast, String.ofList_toList]

theorem flatMap_projectedWords {names : List String} (h : ∀ name ∈ names, IsListable name) :
    names.flatMap projectedWords = names.map ("#p_" ++ ·) := by
  rw [List.map_eq_flatMap, List.flatMap_def, List.flatMap_def,
    List.map_congr_left fun name hm => projectedWords_of_isListable (h name hm)]

/-- A written projection cuts an item to the projected attributes. -/
theorem project_projection {names : List String} (hne : names ≠ [])
    (hn : ∀ name ∈ names, IsListable name)
    (hp : ∀ name ∈ names, placeholders.name ("#p_" ++ name) = .ok name) (item : WireItem) :
    project (Fragment.projection names).text? placeholders item =
      item.filterNames (· ∈ names) := by
  obtain ⟨hwords, hnone⟩ := listedWords_projection names
  rw [flatMap_projectedWords hn] at hwords
  cases htext : (Fragment.projection names).text? with
  | none => exact (hne (hnone.1 htext)).elim
  | some text =>
    rw [htext, Option.elim_some] at hwords
    have hnames : listedNames placeholders text = names := by
      rw [listedNames_eq, hwords, List.filterMap_map]
      conv => rhs; rw [← List.filterMap_some (l := names)]
      exact List.filterMap_congr fun name hm => congrArg Except.toOption (hp name hm)
    rw [project_some, hnames]

end Store

end AttributeStore
