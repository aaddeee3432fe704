import AttributeStore.Proofs.Store.Words

/-!
# The layout of an expression

An expression is laid out by writing its words one after the other with any blanks between them. A
parenthesis may touch its neighbours; two other words need a blank in between. `LaidOut` says so
without reading anything: the words of a text that is laid out are the words that the store finds,
and every text is laid out from the words that the store finds in it.
-/

namespace AttributeStore

namespace Text

theorem words_blank {blank : Char} (hb : isBlank blank = true) (text : List Char) :
    words (blank :: text) = words text := by
  exact words_append_blank hb [] text

theorem words_blanks {gap : List Char} (hgap : ∀ c ∈ gap, isBlank c = true) (text : List Char) :
    words (gap ++ text) = words text := by
  induction gap with
  | nil => rfl
  | cons blank gap ih =>
    rw [List.cons_append, words_blank (hgap blank List.mem_cons_self),
      ih fun c hc => hgap c (List.mem_cons_of_mem _ hc)]

theorem words_word_append {word : List Char} (hne : word ≠ []) (h : ∀ c ∈ word, isBlank c = false)
    {text : List Char} (hend : ∀ c ∈ text.head?, isBlank c = true) :
    words (word ++ text) = word :: words text := by
  cases text with
  | nil =>
    rw [List.append_nil, words_word hne h]
    rfl
  | cons blank text =>
    have hb : isBlank blank = true := hend blank rfl
    rw [words_append_blank hb, words_word hne h, words_blank hb, List.singleton_append]

end Text

namespace Store

/-- A text that is one word of an expression or a parenthesis. -/
def IsToken (word : String) : Prop :=
  word = "(" ∨ word = ")" ∨ IsWord word

/-- A word may be followed directly by a text. -/
def Borders (word : String) (text : List Char) : Prop :=
  word = "(" ∨ word = ")" ∨ ∀ c ∈ text.head?, ¬ IsWordChar c

/-- A text consists of words, with blanks before, between and behind them. -/
inductive LaidOut : List String → List Char → Prop
  | nil {gap : List Char} (hgap : ∀ c ∈ gap, Text.isBlank c = true) : LaidOut [] gap
  | cons {gap : List Char} {word : String} {words : List String} {text : List Char}
    (hgap : ∀ c ∈ gap, Text.isBlank c = true) (token : IsToken word) (border : Borders word text)
    (rest : LaidOut words text) : LaidOut (word :: words) (gap ++ (word.toList ++ text))

/-! ## The words found are those laid out -/

theorem padded_blanks {gap : List Char} (hgap : ∀ c ∈ gap, Text.isBlank c = true) :
    padded gap = gap := by
  apply padded_of_not_parenthesis
  intro c hc
  have hblank := hgap c hc
  constructor
  · rintro rfl
    revert hblank
    decide
  · rintro rfl
    revert hblank
    decide

theorem isWord_iff_toList {word : String} :
    IsWord word ↔ word.toList ≠ [] ∧ ∀ c ∈ word.toList, IsWordChar c := by
  unfold IsWord
  rw [ne_eq, ne_eq, String.toList_eq_nil_iff]

theorem head?_padded {text : List Char} (h : ∀ c ∈ text.head?, ¬ IsWordChar c) :
    ∀ c ∈ (padded text).head?, Text.isBlank c = true := by
  cases text with
  | nil => exact fun _ hc => (Option.not_mem_none _ hc).elim
  | cons first text =>
    have hfirst : ¬ IsWordChar first := h first rfl
    unfold padded
    rw [List.flatMap_cons]
    split
    · rintro c ⟨⟩
      decide
    · rename_i hplain
      rintro c ⟨⟩
      cases hblank : Text.isBlank first with
      | true => rfl
      | false => exact absurd ⟨hblank, not_or.1 hplain⟩ hfirst

theorem words_parenthesis {word : String} (h : word = "(" ∨ word = ")") (text : List Char) :
    Text.words (padded word.toList ++ text) = word.toList :: Text.words text := by
  have hspace : Text.isBlank ' ' = true := by decide
  rcases h with rfl | rfl
  · change Text.words (' ' :: (['('] ++ ' ' :: text)) = _
    rw [Text.words_blank hspace, Text.words_append_blank hspace]
    rfl
  · change Text.words (' ' :: ([')'] ++ ' ' :: text)) = _
    rw [Text.words_blank hspace, Text.words_append_blank hspace]
    rfl

theorem words_padded {words : List String} {text : List Char} (h : LaidOut words text) :
    Text.words (padded text) = words.map String.toList := by
  induction h with
  | @nil gap hgap =>
    rw [padded_blanks hgap, ← List.append_nil gap, Text.words_blanks hgap]
    rfl
  | @cons gap word words text hgap token border _ ih =>
    rw [padded_append, padded_append, padded_blanks hgap, Text.words_blanks hgap, List.map_cons,
      ← ih]
    rcases token with hopen | hclose | hword
    · exact words_parenthesis (.inl hopen) _
    · exact words_parenthesis (.inr hclose) _
    · have hend : ∀ c ∈ text.head?, ¬ IsWordChar c := by
        rcases border with rfl | rfl | hend
        · exact absurd hword (by decide)
        · exact absurd hword (by decide)
        · exact hend
      obtain ⟨hne, hchars⟩ := isWord_iff_toList.1 hword
      rw [padded_word hword]
      exact Text.words_word_append hne (fun c hc => (hchars c hc).1) (head?_padded hend)

/-- The store finds the words from which a text is laid out. -/
theorem expressionWords_of_laidOut {words : List String} {text : String}
    (h : LaidOut words text.toList) : expressionWords text = words := by
  rw [expressionWords_eq, words_padded h, List.map_map]
  conv => rhs; rw [← List.map_id words]
  exact List.map_congr_left fun word _ => String.ofList_toList

/-! ## Every text is laid out -/

theorem LaidOut.blank {words : List String} {text : List Char} (h : LaidOut words text)
    {blank : Char} (hb : Text.isBlank blank = true) : LaidOut words (blank :: text) := by
  cases h with
  | nil hgap => exact .nil (List.forall_mem_cons.2 ⟨hb, hgap⟩)
  | cons hgap token border rest =>
    rw [← List.cons_append]
    exact .cons (List.forall_mem_cons.2 ⟨hb, hgap⟩) token border rest

theorem LaidOut.word {word : String} {words : List String} {text : List Char}
    (h : LaidOut words text) (token : IsToken word) (border : Borders word text) :
    LaidOut (word :: words) (word.toList ++ text) :=
  .cons (fun _ hc => (List.not_mem_nil hc).elim) token border h

theorem LaidOut.letter {words : List String} {text : List Char} (h : LaidOut words text) {c : Char}
    (hc : IsWordChar c) (hend : ∀ d ∈ text.head?, ¬ IsWordChar d) :
    LaidOut (String.ofList [c] :: words) (c :: text) := by
  have hone : IsToken (String.ofList [c]) := by
    refine .inr (.inr (isWord_iff_toList.2 ?_))
    rw [String.toList_ofList]
    exact ⟨List.cons_ne_nil _ _, by simpa using hc⟩
  have hlaid := h.word hone (.inr (.inr hend))
  rwa [String.toList_ofList, List.singleton_append] at hlaid

theorem LaidOut.lengthen {words : List String} {c d : Char} {text : List Char}
    (h : LaidOut words (d :: text)) (hc : IsWordChar c) (hd : IsWordChar d) :
    ∃ longer, LaidOut longer (c :: d :: text) := by
  generalize hall : d :: text = all at h
  cases h with
  | nil hgap =>
    have hblank := hgap d (hall ▸ List.mem_cons_self)
    exact absurd hblank (by simp [hd.1])
  | @cons gap word words rest hgap token border laid =>
    -- The gap is empty and the word no parenthesis, since a letter stands first.
    cases gap with
    | cons blank gap =>
      obtain ⟨rfl, -⟩ := List.cons.inj hall
      exact absurd (hgap d List.mem_cons_self) (by simp [hd.1])
    | nil =>
      rcases token with rfl | rfl | hword
      · obtain ⟨rfl, -⟩ := List.cons.inj hall
        exact absurd rfl hd.2.1
      · obtain ⟨rfl, -⟩ := List.cons.inj hall
        exact absurd rfl hd.2.2
      · have hlonger : IsWord (String.ofList (c :: word.toList)) := by
          rw [isWord_iff_toList, String.toList_ofList]
          refine ⟨List.cons_ne_nil _ _, List.forall_mem_cons.2 ⟨hc, ?_⟩⟩
          exact (isWord_iff_toList.1 hword).2
        have hend : ∀ c ∈ rest.head?, ¬ IsWordChar c := by
          rcases border with rfl | rfl | hend
          · exact absurd hword (by decide)
          · exact absurd hword (by decide)
          · exact hend
        refine ⟨String.ofList (c :: word.toList) :: words, ?_⟩
        have hlaid := laid.word (.inr (.inr hlonger)) (.inr (.inr hend))
        rwa [String.toList_ofList, List.cons_append] at hlaid

theorem exists_laidOut (text : List Char) : ∃ words, LaidOut words text := by
  induction text with
  | nil => exact ⟨[], .nil fun _ hc => (List.not_mem_nil hc).elim⟩
  | cons c text ih =>
    obtain ⟨words, h⟩ := ih
    by_cases hc : IsWordChar c
    · cases text with
      | nil => exact ⟨_, h.letter hc (by simp)⟩
      | cons d text =>
        by_cases hd : IsWordChar d
        · exact h.lengthen hc hd
        · exact ⟨_, h.letter hc (by simpa using hd)⟩
    · by_cases hb : Text.isBlank c = true
      · exact ⟨words, h.blank hb⟩
      · by_cases hopen : c = '('
        · subst hopen
          exact ⟨_, h.word (.inl rfl) (.inl rfl)⟩
        · by_cases hclose : c = ')'
          · subst hclose
            exact ⟨_, h.word (.inr (.inl rfl)) (.inr (.inl rfl))⟩
          · exact absurd ⟨Bool.eq_false_iff.2 hb, hopen, hclose⟩ hc

/-- A text is laid out from the words that the store finds in it, and from no others. -/
theorem laidOut_iff {words : List String} {text : String} :
    LaidOut words text.toList ↔ expressionWords text = words := by
  constructor
  · exact expressionWords_of_laidOut
  · rintro rfl
    obtain ⟨words, h⟩ := exists_laidOut text.toList
    rwa [expressionWords_of_laidOut h]

end Store

end AttributeStore
