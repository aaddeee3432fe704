import AttributeStore.Store.Expression

/-!
# The words of an expression

Expressions are written by joining texts with blanks and parentheses and read word by word. The
words of a join are those of its parts: `words_append_blank` says so for a blank between two
texts, and the rest follows from it.
-/

namespace AttributeStore

namespace Text

theorem words_eq (text : List Char) :
    words text =
      let step := text.foldr wordStep ([], [])
      if step.1.isEmpty then step.2 else step.1 :: step.2 :=
  rfl

theorem foldr_wordStep_append (text : List Char) (rest : List (List Char)) :
    text.foldr wordStep ([], rest) =
      ((text.foldr wordStep ([], [])).1, (text.foldr wordStep ([], [])).2 ++ rest) := by
  induction text with
  | nil => rfl
  | cons c text ih =>
    rw [List.foldr_cons, List.foldr_cons, ih]
    generalize text.foldr wordStep ([], []) = step
    obtain ⟨word, others⟩ := step
    unfold wordStep
    cases isBlank c with
    | false => rfl
    | true => cases word <;> rfl

theorem foldr_wordStep_blank {blank : Char} (hb : isBlank blank = true) (text : List Char) :
    (blank :: text).foldr wordStep ([], []) = ([], words text) := by
  rw [List.foldr_cons, words]
  generalize text.foldr wordStep ([], []) = step
  obtain ⟨word, others⟩ := step
  unfold wordStep
  simp [hb]

theorem words_append_blank {blank : Char} (hb : isBlank blank = true) (first second : List Char) :
    words (first ++ blank :: second) = words first ++ words second := by
  rw [words_eq, List.foldr_append, foldr_wordStep_blank hb, foldr_wordStep_append,
    words_eq first]
  dsimp only
  split <;> rfl

theorem foldr_wordStep_word {word : List Char} (h : ∀ c ∈ word, isBlank c = false) :
    word.foldr wordStep ([], []) = (word, []) := by
  induction word with
  | nil => rfl
  | cons c rest ih =>
    rw [List.foldr_cons, ih fun c hc => h c (List.mem_cons_of_mem _ hc)]
    unfold wordStep
    simp [h c List.mem_cons_self]

theorem words_word {word : List Char} (hne : word ≠ []) (h : ∀ c ∈ word, isBlank c = false) :
    words word = [word] := by
  rw [words, foldr_wordStep_word h]
  simp [hne]

end Text

namespace Store

def IsWordChar (c : Char) : Prop :=
  Text.isBlank c = false ∧ c ≠ '(' ∧ c ≠ ')'

def IsWord (word : String) : Prop :=
  word ≠ "" ∧ ∀ c ∈ word.toList, IsWordChar c

instance (c : Char) : Decidable (IsWordChar c) :=
  inferInstanceAs (Decidable (_ ∧ _))

instance (word : String) : Decidable (IsWord word) :=
  decidable_of_iff (word ≠ "" ∧ word.toList.all (decide <| IsWordChar ·) = true) <| by
    simp [IsWord]

theorem head?_append {letters : String} {mark : Char} (h : letters.toList.head? = some mark)
    (name : String) : (letters ++ name).toList.head? = some mark := by
  rw [String.toList_append, List.head?_append, h, Option.some_or]

/-- A text with blanks around its parentheses. -/
def padded (text : List Char) : List Char :=
  text.flatMap fun c => if c = '(' ∨ c = ')' then [' ', c, ' '] else [c]

theorem expressionWords_eq (text : String) :
    expressionWords text = (Text.words (padded text.toList)).map String.ofList := rfl

@[simp] theorem padded_append (first second : List Char) :
    padded (first ++ second) = padded first ++ padded second :=
  List.flatMap_append

theorem padded_of_not_parenthesis {text : List Char} (h : ∀ c ∈ text, c ≠ '(' ∧ c ≠ ')') :
    padded text = text := by
  conv => rhs; rw [← List.flatMap_singleton' text]
  unfold padded
  rw [List.flatMap_def, List.flatMap_def]
  congr 1
  apply List.map_congr_left
  intro c hc
  rw [if_neg (not_or.2 (h c hc))]

theorem padded_word {word : String} (h : IsWord word) : padded word.toList = word.toList :=
  padded_of_not_parenthesis fun c hc => (h.2 c hc).2

@[simp] theorem expressionWords_blank (first second : String) :
    expressionWords (first ++ " " ++ second) =
      expressionWords first ++ expressionWords second := by
  unfold expressionWords
  have hblank : (" " : String).toList = [' '] := rfl
  simp only [String.toList_append, List.flatMap_append, hblank, List.append_assoc]
  rw [← List.map_append]
  exact congrArg _ (Text.words_append_blank (by decide) _ _)

theorem expressionWords_word {word : String} (h : IsWord word) :
    expressionWords word = [word] := by
  rw [expressionWords_eq, padded_word h,
    Text.words_word (by simpa using h.1) fun c hc => (h.2 c hc).1]
  simp

theorem expressionWords_parenthesis {parenthesis : Char}
    (h : parenthesis = '(' ∨ parenthesis = ')') (first second : String) :
    expressionWords (first ++ String.singleton parenthesis ++ second) =
      expressionWords first ++ String.singleton parenthesis :: expressionWords second := by
  have hspace : Text.isBlank ' ' = true := by decide
  have hword : Text.words [parenthesis] = [[parenthesis]] := by
    rcases h with rfl | rfl <;> decide
  have hone : (String.singleton parenthesis).toList = [parenthesis] := String.toList_singleton _
  unfold expressionWords
  simp only [String.toList_append, List.flatMap_append, hone, List.flatMap_cons,
    List.flatMap_nil, if_pos h]
  generalize first.toList.flatMap _ = before
  generalize second.toList.flatMap _ = after
  have hbefore := Text.words_append_blank hspace before ([parenthesis] ++ ' ' :: after)
  rw [Text.words_append_blank hspace [parenthesis] after, hword] at hbefore
  rw [List.append_nil, List.append_assoc]
  refine (congrArg (List.map String.ofList) hbefore).trans ?_
  rw [List.map_append, List.map_append, List.map_cons, List.map_nil, List.singleton_append]
  rfl

/-- Parentheses around an argument end the text before them. -/
theorem expressionWords_call (function argument : String) :
    expressionWords (function ++ "(" ++ argument ++ ")") =
      expressionWords function ++ "(" :: expressionWords argument ++ [")"] := by
  have hopen := expressionWords_parenthesis (Or.inl rfl) function argument
  have hclose := expressionWords_parenthesis (Or.inr rfl) (function ++ "(" ++ argument) ""
  rw [String.append_empty] at hclose
  exact hclose.trans (congrArg (· ++ [")"]) hopen)

theorem expressionWords_parentheses (expression : String) :
    expressionWords ("(" ++ expression ++ ")") = "(" :: expressionWords expression ++ [")"] := by
  have hcall := expressionWords_call "" expression
  rwa [String.empty_append] at hcall

end Store

end AttributeStore
