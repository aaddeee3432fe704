import AttributeStore.Proofs.Store.Formula

/-!
# The store evaluates formulas

What the evaluator makes of the words of a formula, in the middle of an expression: it looks up
every word of the formula and then goes on with its truth added to the result so far. Conversely,
where an evaluation succeeds, the words read so far are a printing of a formula that is bound.
Together they say that the store answers exactly the printings of bound formulas, with their truth,
and refuses every other text.
-/

namespace AttributeStore.Store

variable {placeholders : Placeholders} {item : WireItem}

/-! ## Looking words up -/

theorem Placeholders.name_eq_error_iff (word : String) :
    (∃ cause, placeholders.name word = .error cause) ↔
      (Place.name word).Unbound placeholders := by
  rw [Placeholders.name, Place.Unbound]
  by_cases h : word.toList.head? = some '#'
  · rw [if_pos h]
    cases placeholders.names.bind (·.get? word) <;> simp [h]
  · simp [h]

theorem Placeholders.value_eq_error_iff (word : String) :
    (∃ cause, placeholders.value word = .error cause) ↔
      (Place.operand word).Unbound placeholders := by
  rw [Placeholders.value, Place.Unbound]
  cases placeholders.values.bind (·.get? word) <;> simp

namespace Place

theorem check_eq_error_iff (place : Place) :
    (∃ cause, place.check placeholders = .error cause) ↔ place.Unbound placeholders := by
  cases place with
  | name word =>
    rw [← Placeholders.name_eq_error_iff, check]
    cases placeholders.name word <;> simp [Functor.map, Except.map]
  | operand word =>
    rw [← Placeholders.value_eq_error_iff, check]
    cases placeholders.value word <;> simp [Functor.map, Except.map]

theorem check_eq_ok_iff (place : Place) :
    place.check placeholders = .ok () ↔ ¬ place.Unbound placeholders := by
  rw [← check_eq_error_iff, exists_eq_error_iff, Classical.not_not]
  exact ⟨fun h => ⟨(), h⟩, fun ⟨(), h⟩ => h⟩

end Place

namespace Formula

def check (placeholders : Placeholders) (formula : Formula) : Except BackendError Unit :=
  forM formula.places (Place.check placeholders)

theorem check_eq_ok_iff (formula : Formula) :
    formula.check placeholders = .ok () ↔ formula.Bound placeholders := by
  unfold check Bound
  rw [forM_eq_ok]
  exact forall₂_congr fun place _ => place.check_eq_ok_iff

end Formula

/-! ## Single parts -/

theorem Sign.holds_word (sign : Sign) (order : Option Ordering) :
    Store.holds sign.word order = .ok (sign.accepts order) := by
  cases sign <;> rfl

theorem Sign.word_ne_between (sign : Sign) : sign.word ≠ "BETWEEN" := by
  cases sign <;> decide

theorem operand_subject {subject : String} (plain : subject ∉ reserved) (waiting : List Partial)
    (result : Partial) (rest : List String) :
    operand placeholders item waiting result (subject :: rest) =
      (placeholders.name subject >>= fun name =>
        comparison placeholders item (item.get? name) waiting result rest) := by
  have hother : ∀ other ∈ reserved, ∀ {words words' : List String},
      subject :: words ≠ other :: words' := by
    intro other hm words words' heq
    exact plain ((List.cons.inj heq).1 ▸ hm)
  rw [operand.eq_def]
  split
  · contradiction
  · exact (hother "(" (by decide) ‹_›).elim
  · exact (hother "attribute_exists" (by decide) ‹_›).elim
  · exact (hother "attribute_not_exists" (by decide) ‹_›).elim
  · rename_i heq
    obtain ⟨rfl, rfl⟩ := List.cons.inj heq
    rfl

theorem operand_testWord (wanted : Bool) (waiting : List Partial) (result : Partial)
    (rest : List String) :
    operand placeholders item waiting result (testWord wanted :: rest) =
      presence placeholders item wanted waiting result rest := by
  cases wanted <;> rfl

theorem presence_parentheses (wanted : Bool) (word : String) (waiting : List Partial)
    (result : Partial) (rest : List String) :
    presence placeholders item wanted waiting result ("(" :: word :: ")" :: rest) =
      (placeholders.name word >>= fun name =>
        operator placeholders item waiting (result.and (item.contains name == wanted)) rest) := by
  simp [presence]

theorem upperBound_joint (found : Option Attribute) (lower : Option Ordering)
    (waiting : List Partial) (result : Partial) (word : String) (rest : List String) :
    upperBound placeholders item found lower waiting result ("AND" :: word :: rest) =
      (placeholders.value word >>= fun value =>
        operator placeholders item waiting (result.and (notBelow lower &&
          notAbove (found.bind fun held => compareAttributes? held value))) rest) := by
  simp [upperBound]

theorem order?_of_ok {subject word name : String} {operand : Attribute}
    (hname : placeholders.name subject = .ok name) (hvalue : placeholders.value word = .ok operand) :
    placeholders.order? item subject word =
      (item.get? name).bind fun held => compareAttributes? held operand := by
  unfold Placeholders.order? Placeholders.attribute?
  rw [hname, hvalue]
  rfl

theorem operand_compare {subject : String} (plain : subject ∉ reserved) (sign : Sign)
    (word : String) (waiting : List Partial) (result : Partial) (rest : List String) :
    operand placeholders item waiting result (subject :: sign.word :: word :: rest) =
      ((Formula.compare subject sign word).check placeholders >>= fun () =>
        operator placeholders item waiting
          (result.and ((Formula.compare subject sign word).holds placeholders item)) rest) := by
  rw [operand_subject plain]
  unfold Formula.check Formula.places Formula.holds comparison
  rw [List.forM_cons, List.forM_cons, List.forM_nil, Place.check, Place.check]
  cases hname : placeholders.name subject with
  | error cause => rfl
  | ok name =>
    cases hvalue : placeholders.value word with
    | error cause => rfl
    | ok operand =>
      rw [order?_of_ok hname hvalue]
      simp only [bind, Except.bind, if_neg sign.word_ne_between, sign.holds_word]
      rfl

theorem operand_between {subject : String} (plain : subject ∉ reserved) (lower upper : String)
    (waiting : List Partial) (result : Partial) (rest : List String) :
    operand placeholders item waiting result
        (subject :: "BETWEEN" :: lower :: "AND" :: upper :: rest) =
      ((Formula.between subject lower upper).check placeholders >>= fun () =>
        operator placeholders item waiting
          (result.and ((Formula.between subject lower upper).holds placeholders item)) rest) := by
  rw [operand_subject plain]
  unfold Formula.check Formula.places Formula.holds comparison
  rw [List.forM_cons, List.forM_cons, List.forM_cons, List.forM_nil, Place.check, Place.check,
    Place.check]
  cases hname : placeholders.name subject with
  | error cause => rfl
  | ok name =>
    cases hlower : placeholders.value lower with
    | error cause => rfl
    | ok low =>
      simp only [bind, Except.bind, ↓reduceIte, upperBound_joint]
      cases hupper : placeholders.value upper with
      | error cause => rfl
      | ok high =>
        rw [order?_of_ok hname hlower, order?_of_ok hname hupper]
        rfl

theorem operand_presence (wanted : Bool) (subject : String) (waiting : List Partial)
    (result : Partial) (rest : List String) :
    operand placeholders item waiting result (testWord wanted :: "(" :: subject :: ")" :: rest) =
      ((Formula.presence wanted subject).check placeholders >>= fun () =>
        operator placeholders item waiting
          (result.and ((Formula.presence wanted subject).holds placeholders item)) rest) := by
  rw [operand_testWord, presence_parentheses]
  unfold Formula.check Formula.places Formula.holds Placeholders.attribute?
  rw [List.forM_cons, List.forM_nil, Place.check]
  cases hname : placeholders.name subject with
  | error cause => rfl
  | ok name => rfl

theorem operator_close (outer : Partial) (waiting : List Partial) (result : Partial)
    (rest : List String) :
    operator placeholders item (outer :: waiting) result (")" :: rest) =
      operator placeholders item waiting (outer.and result.value) rest := by
  rfl

/-! ## Printed formulas -/

theorem Formula.check_and (left right : Formula) :
    (Formula.and left right).check placeholders =
      (left.check placeholders >>= fun () => right.check placeholders) := by
  unfold check
  rw [places, List.forM_append]

theorem Formula.check_or (left right : Formula) :
    (Formula.or left right).check placeholders =
      (left.check placeholders >>= fun () => right.check placeholders) := by
  unfold check
  rw [places, List.forM_append]

variable (placeholders item) in
/-- Words in the middle of an expression are looked up, and then their truth is added to the result
so far. Parts joined by OR have to stand at the beginning of an alternative, and what they leave
depends on where their last OR stands. -/
def Evaluates (level : Level) (formula : Formula) (words : List String) : Prop :=
  match level with
  | .disjunction =>
    ∀ (waiting : List Partial) (before : Bool), ∃ result : Partial,
      result.value = (before || formula.holds placeholders item) ∧
      ∀ rest, operand placeholders item waiting ⟨before, true⟩ (words ++ rest) =
        (formula.check placeholders >>= fun () =>
          operator placeholders item waiting result rest)
  | _ =>
    ∀ (waiting : List Partial) (result : Partial) (rest : List String),
      operand placeholders item waiting result (words ++ rest) =
        (formula.check placeholders >>= fun () =>
          operator placeholders item waiting (result.and (formula.holds placeholders item)) rest)

variable (placeholders item) in
/-- The evaluator reads a printed formula as that formula. -/
theorem Printed.evaluates {level : Level} {formula : Formula} {words : List String}
    (h : Printed level formula words) : Evaluates placeholders item level formula words := by
  induction h with
  | compare plain sign operand =>
    intro waiting result rest
    exact operand_compare plain sign operand waiting result rest
  | between plain lower upper =>
    intro waiting result rest
    exact operand_between plain lower upper waiting result rest
  | presence wanted subject =>
    intro waiting result rest
    exact operand_presence wanted subject waiting result rest
  | @parentheses formula words _ ih =>
    intro waiting result rest
    obtain ⟨inner, hvalue, hinner⟩ := ih (result :: waiting) false
    have hopen : operand placeholders item waiting result ("(" :: words ++ [")"] ++ rest) =
        operand placeholders item (result :: waiting) ⟨false, true⟩ (words ++ ")" :: rest) := by
      rw [List.append_assoc]
      rfl
    rw [hopen, hinner]
    simp only [operator_close, hvalue, Bool.false_or]
  | one _ ih => exact ih
  | and _ _ ihleft ihright =>
    intro waiting result rest
    rw [List.append_assoc, ihleft, Formula.check_and, bind_assoc]
    congr 1
    funext
    rw [List.cons_append, operator, ihright]
    simp only [Partial.and, Formula.holds, Bool.and_assoc]
  | all _ ih =>
    intro waiting before
    refine ⟨_, ?_, fun rest => ih waiting ⟨before, true⟩ rest⟩
    simp only [Partial.value, Partial.and, Bool.true_and]
  | or _ _ ihleft ihright =>
    intro waiting before
    obtain ⟨first, hfirst, hleft⟩ := ihleft waiting before
    obtain ⟨second, hsecond, hright⟩ := ihright waiting first.value
    refine ⟨second, ?_, fun rest => ?_⟩
    · rw [hsecond, hfirst, Formula.holds, Bool.or_assoc]
    · rw [List.append_assoc, hleft, Formula.check_or, bind_assoc]
      congr 1
      funext
      rw [List.cons_append, operator]
      exact hright rest

theorem evaluate_eq (text : String) :
    evaluate (some text) placeholders item =
      operand placeholders item [] {} (expressionWords text) := rfl

theorem evaluate_of_prints {formula : Formula} {text : String} (h : formula.Prints text) :
    evaluate (some text) placeholders item =
      (formula.check placeholders >>= fun () => .ok (formula.holds placeholders item)) := by
  obtain ⟨words, hprinted, hlaid⟩ := h
  obtain ⟨result, hvalue, heval⟩ := hprinted.evaluates placeholders item [] false
  have hall := heval []
  rw [List.append_nil] at hall
  have hend : operator placeholders item [] result [] = .ok (formula.holds placeholders item) := by
    rw [operator, hvalue, Bool.false_or]
  rw [hend] at hall
  rw [evaluate_eq, laidOut_iff.1 hlaid]
  exact hall

/-! ## Words at which an evaluation fails -/

theorem bind_fails {α β : Type} {first : Except BackendError α}
    {next : α → Except BackendError β} (h : ∀ a, ∃ cause, next a = .error cause) :
    ∃ cause, (first >>= next) = .error cause := by
  cases first with
  | error cause => exact ⟨cause, rfl⟩
  | ok a => exact h a

variable (placeholders item) in
/-- Where a part has to begin the evaluator is about to read one, if it got there. -/
theorem Opens.reaches {before : List String} (h : Opens before) :
    ∃ (looked : Except BackendError Unit) (waiting : List Partial) (result : Partial),
      ∀ rest, operand placeholders item [] {} (before ++ rest) =
        (looked >>= fun () => operand placeholders item waiting result rest) := by
  induction h with
  | start => exact ⟨.ok (), [], {}, fun _ => rfl⟩
  | parenthesis _ ih =>
    obtain ⟨looked, waiting, result, h⟩ := ih
    refine ⟨looked, result :: waiting, {}, fun rest => ?_⟩
    rw [List.append_assoc, h]
    rfl
  | @joint before words formula word _ single hword ih =>
    obtain ⟨looked, waiting, result, h⟩ := ih
    have hsingle := single.evaluates placeholders item waiting result
    have hjoint : ∃ next : Partial, ∀ rest,
        operator placeholders item waiting (result.and (formula.holds placeholders item))
          (word :: rest) = operand placeholders item waiting next rest := by
      rcases hword with rfl | rfl
      · exact ⟨_, fun rest => by rw [operator]⟩
      · exact ⟨_, fun rest => by rw [operator]⟩
    obtain ⟨next, hnext⟩ := hjoint
    refine ⟨looked >>= fun () => formula.check placeholders, waiting, next, fun rest => ?_⟩
    rw [List.append_assoc, List.append_assoc, h, hsingle, List.singleton_append, hnext, bind_assoc]

theorem Opens.fails {before words : List String} (h : Opens before)
    (hfails : ∀ waiting result,
      ∃ cause, operand placeholders item waiting result words = .error cause) :
    ∃ cause, operand placeholders item [] {} (before ++ words) = .error cause := by
  obtain ⟨looked, waiting, result, h⟩ := h.reaches placeholders item
  rw [h]
  exact bind_fails fun _ => hfails waiting result

theorem operand_subject_fails {subject : String} (plain : subject ∉ reserved)
    {waiting : List Partial} {result : Partial} {rest : List String}
    (hfails : ∀ found,
      ∃ cause, comparison placeholders item found waiting result rest = .error cause) :
    ∃ cause, operand placeholders item waiting result (subject :: rest) = .error cause := by
  rw [operand_subject plain]
  exact bind_fails fun name => hfails (item.get? name)

/-- An evaluation that looks up an unbound word fails, whatever follows. -/
theorem Reads.fails {words : List String} {place : Place} (h : Reads words place)
    (unbound : place.Unbound placeholders) (rest : List String) :
    ∃ cause, Store.operand placeholders item [] {} (words ++ rest) = .error cause := by
  cases h with
  | @subject before opens word plain =>
    obtain ⟨cause, hcause⟩ := (Placeholders.name_eq_error_iff word).2 unbound
    rw [List.append_assoc]
    refine opens.fails fun waiting result => ⟨cause, ?_⟩
    rw [List.singleton_append, operand_subject plain, hcause]
    rfl
  | @tested before opens wanted word =>
    obtain ⟨cause, hcause⟩ := (Placeholders.name_eq_error_iff word).2 unbound
    rw [List.append_assoc]
    refine opens.fails fun waiting result => ⟨cause, ?_⟩
    rw [List.cons_append, operand_testWord]
    simp [Store.presence, hcause, bind, Except.bind]
  | @operand before opens subject plain sign word =>
    obtain ⟨cause, hcause⟩ := (Placeholders.value_eq_error_iff word).2 unbound
    rw [List.append_assoc]
    refine opens.fails fun waiting result => operand_subject_fails plain fun found => ⟨cause, ?_⟩
    simp [Store.comparison, hcause, bind, Except.bind]
  | @upper before opens subject plain lower word =>
    obtain ⟨cause, hcause⟩ := (Placeholders.value_eq_error_iff word).2 unbound
    rw [List.append_assoc]
    refine opens.fails fun waiting result => operand_subject_fails plain fun found => ?_
    change ∃ cause, Store.comparison placeholders item found waiting result
      ("BETWEEN" :: lower :: "AND" :: word :: rest) = .error cause
    rw [Store.comparison]
    refine bind_fails fun value => ⟨cause, ?_⟩
    simp [Store.upperBound, hcause, bind, Except.bind]

theorem Printed.fails {formula : Formula} {words : List String}
    (h : Printed .disjunction formula words) {word : String} (hand : word ≠ "AND")
    (hor : word ≠ "OR") (rest : List String) :
    ∃ cause, operand placeholders item [] {} (words ++ word :: rest) = .error cause := by
  obtain ⟨result, -, heval⟩ := h.evaluates placeholders item [] false
  have hread := heval (word :: rest)
  rw [hread]
  refine bind_fails fun _ => ⟨⟨s!"trailing token {word}"⟩, ?_⟩
  rw [operator.eq_def]
  split
  · contradiction
  · exact absurd (List.cons.inj ‹_›).1 hand
  · exact absurd (List.cons.inj ‹_›).1 hor
  · rename_i heq
    rw [(List.cons.inj heq).1]

/-! ## What is evaluated is a printed formula -/

variable (placeholders item) in
/-- Words that are read are a printing of a bound formula. -/
def Understood (level : Level) (formula : Formula) (words : List String) : Prop :=
  Printed level formula words ∧ formula.Bound placeholders

variable (placeholders item) in
/-- The result so far is the truth of the words read since the last open parenthesis: of an
alternative, or of alternatives and the one that is being read. -/
inductive Pending : Partial → List String → Prop
  | first {formula : Formula} {words : List String}
    (current : Understood placeholders .conjunction formula words) :
    Pending ⟨false, formula.holds placeholders item⟩ words
  | later {earlier formula : Formula} {before words : List String}
    (past : Understood placeholders .disjunction earlier before)
    (current : Understood placeholders .conjunction formula words) :
    Pending ⟨earlier.holds placeholders item, formula.holds placeholders item⟩
      (before ++ "OR" :: words)

theorem Formula.Bound.append {left right formula : Formula} (hleft : left.Bound placeholders)
    (hright : right.Bound placeholders) (hplaces : formula.places = left.places ++ right.places) :
    formula.Bound placeholders := by
  unfold Bound
  rw [hplaces]
  exact List.forall_mem_append.2 ⟨hleft, hright⟩

namespace Pending

variable {result : Partial} {words : List String}

/-- The words read so far are a formula with the value of the result. -/
theorem whole (h : Pending placeholders item result words) :
    ∃ formula, Understood placeholders .disjunction formula words ∧
      formula.holds placeholders item = result.value := by
  cases h with
  | @first formula words current =>
    refine ⟨formula, ⟨.all current.1, current.2⟩, ?_⟩
    rw [Partial.value, Bool.false_or]
  | @later earlier formula before words past current =>
    exact ⟨.or earlier formula, ⟨.or past.1 (.all current.1), past.2.append current.2 rfl⟩, rfl⟩

theorem start {formula : Formula} (h : Understood placeholders .single formula words) :
    Pending placeholders item (Partial.and {} (formula.holds placeholders item)) words := by
  have hfirst : Pending placeholders item _ words := .first ⟨.one h.1, h.2⟩
  rwa [Partial.and, Bool.true_and]

theorem and (h : Pending placeholders item result words) {formula : Formula} {more : List String}
    (hmore : Understood placeholders .single formula more) :
    Pending placeholders item (result.and (formula.holds placeholders item))
      (words ++ "AND" :: more) := by
  cases h with
  | first current =>
    exact .first ⟨.and current.1 (.one hmore.1), current.2.append hmore.2 rfl⟩
  | later past current =>
    rw [List.append_assoc, List.cons_append]
    exact .later past ⟨.and current.1 (.one hmore.1), current.2.append hmore.2 rfl⟩

theorem or (h : Pending placeholders item result words) {formula : Formula} {more : List String}
    (hmore : Understood placeholders .single formula more) :
    Pending placeholders item (result.or.and (formula.holds placeholders item))
      (words ++ "OR" :: more) := by
  obtain ⟨earlier, hearlier, hvalue⟩ := h.whole
  have hlater : Pending placeholders item _ (words ++ "OR" :: more) :=
    .later hearlier ⟨.one hmore.1, hmore.2⟩
  rw [hvalue] at hlater
  rwa [Partial.and, Partial.or, Bool.true_and]

end Pending

variable (placeholders item) in
/-- What has to follow a whole expression: the parenthesis that closes it and what goes on behind,
or nothing at all. -/
def Closes (waiting : List Partial) (value : Bool) (rest : List String) (truth : Bool) : Prop :=
  match waiting with
  | [] => rest = [] ∧ value = truth
  | outer :: waiting => ∃ behind, rest = ")" :: behind ∧
      operator placeholders item waiting (outer.and value) behind = .ok truth

variable (placeholders item) in
/-- An evaluation that succeeds from a part on reads a part of a formula. -/
def UnderstandsPart (words : List String) : Prop :=
  ∀ waiting result truth, operand placeholders item waiting result words = .ok truth →
    ∃ formula read rest, words = read ++ rest ∧ Understood placeholders .single formula read ∧
      operator placeholders item waiting (result.and (formula.holds placeholders item)) rest =
        .ok truth

variable (placeholders item) in
/-- An evaluation that succeeds from behind a part on reads the rest of a whole formula. -/
def UnderstandsRest (words : List String) : Prop :=
  ∀ waiting result before truth, Pending placeholders item result before →
    operator placeholders item waiting result words = .ok truth →
    ∃ formula read rest, words = read ++ rest ∧
      Understood placeholders .disjunction formula (before ++ read) ∧
      Closes placeholders item waiting (formula.holds placeholders item) rest truth

theorem presence_eq_ok {wanted : Bool} {waiting : List Partial} {result : Partial} {truth : Bool}
    {words : List String} (h : presence placeholders item wanted waiting result words = .ok truth) :
    ∃ subject rest, words = "(" :: subject :: ")" :: rest := by
  unfold presence at h
  split at h
  · cases h
  · split at h
    · cases h
    · rename_i hopen
      rw [Classical.not_not.1 hopen]
      split at h
      · cases h
      · rename_i word _
        obtain ⟨name, -, h⟩ := bind_eq_ok.1 h
        split at h
        · cases h
        · split at h
          · cases h
          · rename_i hclose
            rw [Classical.not_not.1 hclose]
            exact ⟨word, _, rfl⟩

theorem holds_eq_ok {word : String} {order : Option Ordering} {truth : Bool}
    (h : Store.holds word order = .ok truth) : ∃ sign : Sign, word = sign.word := by
  unfold Store.holds at h
  split at h
  · exact ⟨.equal, ‹_›⟩
  · split at h
    · exact ⟨.unequal, ‹_›⟩
    · split at h
      · exact ⟨.less, ‹_›⟩
      · split at h
        · exact ⟨.lessOrEqual, ‹_›⟩
        · split at h
          · exact ⟨.greater, ‹_›⟩
          · split at h
            · exact ⟨.greaterOrEqual, ‹_›⟩
            · cases h

theorem upperBound_eq_ok {found : Option Attribute} {lower : Option Ordering}
    {waiting : List Partial} {result : Partial} {truth : Bool} {words : List String}
    (h : upperBound placeholders item found lower waiting result words = .ok truth) :
    ∃ upper rest, words = "AND" :: upper :: rest := by
  unfold upperBound at h
  split at h
  · cases h
  · split at h
    · cases h
    · rename_i hjoint
      rw [Classical.not_not.1 hjoint]
      split at h
      · cases h
      · exact ⟨_, _, rfl⟩

theorem comparison_eq_ok {found : Option Attribute} {waiting : List Partial} {result : Partial}
    {truth : Bool} {words : List String}
    (h : comparison placeholders item found waiting result words = .ok truth) :
    (∃ (sign : Sign) (word : String) (rest : List String), words = sign.word :: word :: rest) ∨
      ∃ lower upper rest, words = "BETWEEN" :: lower :: "AND" :: upper :: rest := by
  unfold comparison at h
  split at h
  · cases h
  · cases h
  · rename_i sign word rest
    obtain ⟨value, -, h⟩ := bind_eq_ok.1 h
    split at h
    · rename_i hbetween
      obtain ⟨upper, behind, rfl⟩ := upperBound_eq_ok h
      exact .inr ⟨word, upper, behind, by rw [hbetween]⟩
    · obtain ⟨_, hholds, -⟩ := bind_eq_ok.1 h
      obtain ⟨sign, rfl⟩ := holds_eq_ok hholds
      exact .inl ⟨sign, word, rest, rfl⟩

/-- A part that is evaluated as a formula is understood as that formula. -/
theorem understood_of_evaluates {formula : Formula} {words rest : List String}
    (h : Printed .single formula words) {waiting : List Partial} {result : Partial} {truth : Bool}
    (hok : operand placeholders item waiting result (words ++ rest) = .ok truth) :
    Understood placeholders .single formula words ∧
      operator placeholders item waiting (result.and (formula.holds placeholders item)) rest =
        .ok truth := by
  have heval := h.evaluates placeholders item waiting result rest
  rw [heval] at hok
  obtain ⟨⟨⟩, hcheck, hrest⟩ := bind_eq_ok.1 hok
  exact ⟨⟨h, formula.check_eq_ok_iff.1 hcheck⟩, hrest⟩

section

variable {n : Nat}
  (ih : ∀ words : List String, words.length < n →
    UnderstandsPart placeholders item words ∧ UnderstandsRest placeholders item words)

include ih

theorem understands_on {waiting : List Partial} {result : Partial} {words : List String}
    {truth : Bool} (before : List String) (hlength : words.length < n)
    (hpending : ∀ formula more, Understood placeholders .single formula more →
      Pending placeholders item (result.and (formula.holds placeholders item)) (before ++ more))
    (h : operand placeholders item waiting result words = .ok truth) :
    ∃ formula read rest, words = read ++ rest ∧
      Understood placeholders .disjunction formula (before ++ read) ∧
      Closes placeholders item waiting (formula.holds placeholders item) rest truth := by
  obtain ⟨part, first, behind, rfl, hpart, hbehind⟩ := (ih words hlength).1 _ _ _ h
  have hshorter : behind.length < n := by
    rw [List.length_append] at hlength
    omega
  obtain ⟨formula, second, rest, rfl, hformula, hcloses⟩ :=
    (ih behind hshorter).2 _ _ _ _ (hpending part first hpart) hbehind
  rw [List.append_assoc] at hformula
  exact ⟨formula, first ++ second, rest, (List.append_assoc ..).symm, hformula, hcloses⟩

theorem understandsPart {words : List String} (hlength : words.length ≤ n) :
    UnderstandsPart placeholders item words := by
  intro waiting result truth h
  cases words with
  | nil => cases h
  | cons word words =>
    by_cases hplain : word ∈ reserved
    · have hcases : word = "(" ∨ ∃ wanted, word = testWord wanted := by
        rcases List.mem_cons.1 hplain with rfl | hplain
        · exact .inl rfl
        · rcases List.mem_cons.1 hplain with rfl | hplain
          · exact .inr ⟨true, rfl⟩
          · exact .inr ⟨false, List.mem_singleton.1 hplain⟩
      rcases hcases with rfl | ⟨wanted, rfl⟩
      · have hinner : operand placeholders item (result :: waiting) {} words = .ok truth := h
        obtain ⟨formula, read, _, rfl, hformula, behind, rfl, hbehind⟩ :=
          understands_on ih [] hlength (fun _ _ => Pending.start) hinner
        refine ⟨formula, "(" :: read ++ [")"], behind, ?_, ⟨.parentheses hformula.1, hformula.2⟩,
          hbehind⟩
        rw [List.append_assoc, List.singleton_append, List.cons_append]
      · have htest := h
        rw [operand_testWord] at htest
        obtain ⟨subject, rest, rfl⟩ := presence_eq_ok htest
        exact ⟨_, _, rest, rfl, understood_of_evaluates (.presence wanted subject) h⟩
    · have hsubject := h
      rw [operand_subject hplain] at hsubject
      obtain ⟨name, -, hcomparison⟩ := bind_eq_ok.1 hsubject
      rcases comparison_eq_ok hcomparison with ⟨sign, operand, rest, rfl⟩ | ⟨lower, upper, rest, rfl⟩
      · exact ⟨_, _, rest, rfl, understood_of_evaluates (.compare hplain sign operand) h⟩
      · exact ⟨_, _, rest, rfl, understood_of_evaluates (.between hplain lower upper) h⟩

theorem understandsRest {words : List String} (hlength : words.length ≤ n) :
    UnderstandsRest placeholders item words := by
  intro waiting result before truth hpending h
  obtain ⟨whole, hwhole, hvalue⟩ := hpending.whole
  rw [operator.eq_def] at h
  split at h
  · refine ⟨whole, [], [], rfl, by rwa [List.append_nil], ?_⟩
    split at h
    · exact ⟨rfl, hvalue.trans (Except.ok.inj h)⟩
    · cases h
  · rename_i rest
    obtain ⟨formula, read, rest, rfl, hformula, hcloses⟩ :=
      understands_on ih (before ++ ["AND"]) hlength
        (fun _ _ hpart => by
          rw [List.append_assoc]
          exact hpending.and hpart) h
    rw [List.append_assoc] at hformula
    exact ⟨formula, "AND" :: read, rest, rfl, hformula, hcloses⟩
  · rename_i rest
    obtain ⟨formula, read, rest, rfl, hformula, hcloses⟩ :=
      understands_on ih (before ++ ["OR"]) hlength
        (fun _ _ hpart => by
          rw [List.append_assoc]
          exact hpending.or hpart) h
    rw [List.append_assoc] at hformula
    exact ⟨formula, "OR" :: read, rest, rfl, hformula, hcloses⟩
  · refine ⟨whole, [], _, rfl, by rwa [List.append_nil], ?_⟩
    split at h
    · cases h
    · split at h
      · cases h
      · rename_i hclose
        rw [Classical.not_not.1 hclose, hvalue]
        exact ⟨_, rfl, h⟩

end

theorem understands (words : List String) :
    UnderstandsPart placeholders item words ∧ UnderstandsRest placeholders item words := by
  -- A part ends before the rest that belongs to it begins, so the two follow from shorter words.
  induction hn : words.length using Nat.strongRecOn generalizing words with
  | ind n ih =>
    have hshorter : ∀ words : List String, words.length < n →
        UnderstandsPart placeholders item words ∧ UnderstandsRest placeholders item words :=
      fun words hlength => ih _ hlength words rfl
    exact ⟨understandsPart hshorter (Nat.le_of_eq hn), understandsRest hshorter (Nat.le_of_eq hn)⟩

/-- A text that is evaluated is a printing of a bound formula. -/
theorem prints_of_evaluate {text : String} {truth : Bool}
    (h : evaluate (some text) placeholders item = .ok truth) :
    ∃ formula : Formula, formula.Prints text ∧ formula.Bound placeholders ∧
      formula.holds placeholders item = truth := by
  rw [evaluate_eq] at h
  obtain ⟨formula, read, rest, hwords, hformula, rfl, hvalue⟩ :=
    understands_on (fun words _ => understands words) []
      (Nat.lt_succ_self (expressionWords text).length) (fun _ _ => Pending.start) h
  rw [List.append_nil] at hwords
  exact ⟨formula, ⟨read, hformula.1, laidOut_iff.2 hwords⟩, hformula.2, hvalue⟩

/-! ## The grammar and its meaning -/

/-- The store implements the grammar of expressions. A printing of a bound formula, however it is
laid out and whatever parentheses stand in it, has the truth of the formula. Every text gets an
answer, and it is a failure unless the text is a printing of a bound formula. In particular an
evaluation fails when it looks up an unbound word, well formed or not as the rest may be, and when
words remain behind a whole expression. -/
theorem evaluate_implements_grammar (placeholders : Placeholders) (item : WireItem) :
    (∀ (formula : Formula) (text : String), formula.Prints text → formula.Bound placeholders →
      evaluate (some text) placeholders item = .ok (formula.holds placeholders item)) ∧
    (∀ text : String,
      (∃ formula : Formula, formula.Prints text ∧ formula.Bound placeholders ∧
        evaluate (some text) placeholders item = .ok (formula.holds placeholders item)) ∨
      ∃ cause, evaluate (some text) placeholders item = .error cause) ∧
    (∀ (words rest : List String) (place : Place) (text : String),
      Reads words place → place.Unbound placeholders → LaidOut (words ++ rest) text.toList →
      ∃ cause, evaluate (some text) placeholders item = .error cause) ∧
    ∀ (formula : Formula) (words rest : List String) (word text : String),
      Printed .disjunction formula words → word ≠ "AND" → word ≠ "OR" →
      LaidOut (words ++ word :: rest) text.toList →
      ∃ cause, evaluate (some text) placeholders item = .error cause := by
  refine ⟨?_, ?_, ?_, ?_⟩
  · intro formula text hprints hbound
    rw [evaluate_of_prints hprints, formula.check_eq_ok_iff.2 hbound]
    rfl
  · intro text
    cases htext : evaluate (some text) placeholders item with
    | error cause => exact .inr ⟨cause, rfl⟩
    | ok truth =>
      obtain ⟨formula, hprints, hbound, rfl⟩ := prints_of_evaluate htext
      exact .inl ⟨formula, hprints, hbound, rfl⟩
  · intro words rest place text hreads hunbound hlaid
    rw [evaluate_eq, laidOut_iff.1 hlaid]
    exact hreads.fails hunbound rest
  · intro formula words rest word text hprinted hand hor hlaid
    rw [evaluate_eq, laidOut_iff.1 hlaid]
    exact hprinted.fails hand hor rest

def fewPlaceholders : Placeholders :=
  ⟨some (Named.singleton "#n" "name"),
    some (Named.ofList [(":a", .leaf (.string "a")), (":z", .leaf (.string "z"))])⟩

def middleItem : WireItem :=
  Named.singleton "name" (.leaf (.string "m"))

def nestedFormula : Formula :=
  .and (.or (.presence true "OR") (.compare "#n" .unequal ":a")) (.between "#n" ":a" ":z")

def nestedWords : List String :=
  ["(", "(", "attribute_exists", "(", "OR", ")", "OR", "#n", "<>", ":a", ")", "AND", "#n",
    "BETWEEN", ":a", "AND", ":z", ")"]

theorem printed_nestedWords : Printed .disjunction nestedFormula nestedWords := by
  have halternatives : Printed .disjunction
      (.or (.presence true "OR") (.compare "#n" .unequal ":a"))
      ["attribute_exists", "(", "OR", ")", "OR", "#n", "<>", ":a"] :=
    .or (.all (.one (.presence true "OR"))) (.all (.one (.compare (by decide) .unequal ":a")))
  exact .all (.one (.parentheses (.all (.and (.one (.parentheses halternatives))
    (.one (.between (by decide) ":a" ":z"))))))

/-- A formula with an attribute called OR, an operand that is not given in a text that is not well
formed, and a word too many. -/
theorem evaluate_implements_grammar_nested :
    evaluate (some "((attribute_exists(OR) OR\t#n <> :a)AND #n BETWEEN :a AND :z )")
      fewPlaceholders middleItem = .ok true ∧
    (∃ cause, evaluate (some "( #n = :b ) OR )") fewPlaceholders middleItem = .error cause) ∧
    ∃ cause, evaluate (some "((attribute_exists(OR) OR #n <> :a) AND #n BETWEEN :a AND :z) name")
      fewPlaceholders middleItem = .error cause := by
  obtain ⟨hmeans, -, hunbound, htrailing⟩ := evaluate_implements_grammar fewPlaceholders middleItem
  refine ⟨?_, ?_, ?_⟩
  · have hprints : nestedFormula.Prints
        "((attribute_exists(OR) OR\t#n <> :a)AND #n BETWEEN :a AND :z )" :=
      ⟨nestedWords, printed_nestedWords, laidOut_iff.2 (by decide +kernel)⟩
    have hholds : nestedFormula.holds fewPlaceholders middleItem = true := by decide +kernel
    rw [hmeans _ _ hprints (by decide +kernel), hholds]
  · refine hunbound ["(", "#n", "=", ":b"] [")", "OR", ")"] (.operand ":b") _ ?_ ?_
      (laidOut_iff.2 (by decide +kernel))
    · exact .operand (.parenthesis .start) (by decide) "=" ":b"
    · decide +kernel
  · exact htrailing nestedFormula nestedWords [] "name" _ printed_nestedWords (by decide)
      (by decide) (laidOut_iff.2 (by decide +kernel))

end AttributeStore.Store
