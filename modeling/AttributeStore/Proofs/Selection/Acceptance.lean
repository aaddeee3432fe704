import AttributeStore.Proofs.Selection.Rendering
import AttributeStore.Proofs.Selection.History

/-!
# Which selections can be rendered

Whether a selection can be rendered, and the error when it cannot, is told from the methods that
built it. The checks are made in a fixed order, and the error is that of the first one that fails:
an attribute given twice in a role, a key condition joined by OR, a name that cannot be part of a
placeholder, an operand that does not encode, and a query without a key condition.
-/

namespace AttributeStore

/-! ## Names -/

/-- A name that can be part of a placeholder. -/
def IsAttributeName (name : String) : Prop :=
  name ≠ "" ∧ ∀ c ∈ name.toList,
    ('a' ≤ c ∧ c ≤ 'z') ∨ ('A' ≤ c ∧ c ≤ 'Z') ∨ ('0' ≤ c ∧ c ≤ '9') ∨ c = '_'

instance (name : String) : Decidable (IsAttributeName name) :=
  inferInstanceAs (Decidable (_ ∧ _))

theorem isAlphanum_iff_range {c : Char} :
    c.isAlphanum = true ↔
      ('a' ≤ c ∧ c ≤ 'z') ∨ ('A' ≤ c ∧ c ≤ 'Z') ∨ ('0' ≤ c ∧ c ≤ '9') := by
  rw [isAlphanum_iff]
  simp only [Char.le_def, UInt32.le_iff_toNat_le]
  change _ ↔ (97 ≤ c.toNat ∧ c.toNat ≤ 122) ∨ (65 ≤ c.toNat ∧ c.toNat ≤ 90) ∨
    (48 ≤ c.toNat ∧ c.toNat ≤ 57)
  omega

theorem checkAttributeName_eq (name : String) :
    checkAttributeName name =
      if IsAttributeName name then .ok () else .error (.invalidAttributeName name) := by
  have hiff : (name.isEmpty || !name.toList.all fun c => c.isAlphanum || c = '_') = true ↔
      ¬ IsAttributeName name := by
    rw [IsAttributeName, Bool.or_eq_true, Bool.not_eq_true', ← Bool.not_eq_true, not_and_or,
      not_not, String.isEmpty_iff, List.all_eq_true]
    simp only [Bool.or_eq_true, isAlphanum_iff_range, decide_eq_true_eq, or_assoc]
  unfold checkAttributeName
  by_cases h : IsAttributeName name
  · rw [if_pos h, if_neg fun hbad => hiff.1 hbad h]
  · rw [if_neg h, if_pos (hiff.2 h)]

theorem failure?_forM_checkAttributeName (names : List String) :
    failure? (forM names checkAttributeName) =
      (names.find? fun name => ¬ IsAttributeName name).map .invalidAttributeName := by
  rw [failure?_forM]
  induction names with
  | nil => rfl
  | cons name rest ih =>
    rw [List.findSome?_cons, List.find?_cons, checkAttributeName_eq, ih]
    by_cases h : IsAttributeName name
    · simp [h]
    · simp [h]

/-! ## Operands -/

/-- Why the first operand of some conditions that does not encode does not. -/
def operandFault (attributes : Catalog) (conditions : List Condition) : Option CodecError :=
  conditions.findSome? fun condition => condition.comparison.operands.findSome? fun operand =>
    failure? (operand.encodeWith (attributes.declared condition.name))

theorem operandFault_eq_none_iff {attributes : Catalog} {conditions : List Condition} :
    operandFault attributes conditions = none ↔
      ∀ condition ∈ conditions, ∀ operand ∈ condition.comparison.operands,
        ∃ encoded, operand.encodeWith (attributes.declared condition.name) = .ok encoded := by
  simp only [operandFault, List.findSome?_eq_none_iff, failure?_eq_none_iff]

theorem Condition.failure?_fragment (condition : Condition) (declared : Option WireType) :
    failure? (condition.fragment declared) =
      condition.comparison.operands.findSome? fun operand =>
        failure? (operand.encodeWith declared) := by
  unfold Condition.fragment Comparison.operands
  cases condition.comparison with
  | compare comparator operand =>
    simp only [List.findSome?_cons, List.findSome?_nil]
    rw [failure?_bind fun _ _ => failure?_pure _, Option.or_none]
    cases failure? (operand.encodeWith declared) <;> rfl
  | between lower upper =>
    simp only [List.findSome?_cons, List.findSome?_nil]
    rw [failure?_bind fun _ _ => failure?_bind fun _ _ => failure?_pure _, Option.or_none]
    cases failure? (lower.encodeWith declared) <;>
      cases failure? (upper.encodeWith declared) <;> rfl

theorem failure?_conditionsFragment (attributes : Catalog) (conditions : List Condition) :
    failure? (conditionsFragment attributes conditions) = operandFault attributes conditions := by
  rw [conditionsFragment_eq]
  generalize Fragment.empty = before
  induction conditions generalizing before with
  | nil => rfl
  | cons condition rest ih =>
    rw [List.foldlM_cons, failure?_bind fun joined _ => ih joined, joinCondition,
      failure?_bind fun _ _ => failure?_pure _, Option.or_none, Condition.failure?_fragment]
    unfold operandFault
    rw [List.findSome?_cons]
    cases condition.comparison.operands.findSome? _ <;> rfl

namespace Selection

/-! ## Well-formed selections -/

/-- What the methods of a selection that can be rendered have in common. -/
structure WellFormed (methods : List Method) (kind : ReadKind) (attributes : Catalog) : Prop where
  /-- No attribute was given a condition twice in one role. -/
  once : (places methods).Nodup
  joint : ∀ condition ∈ kept methods .key, condition.connective ≠ .or
  named : ∀ role, ∀ condition ∈ kept methods role, IsAttributeName condition.name
  projected : ∀ name ∈ projected methods, IsAttributeName name
  encodes : ∀ role, ∀ condition ∈ kept methods role, ∀ operand ∈ condition.comparison.operands,
    ∃ encoded, operand.encodeWith (attributes.declared condition.name) = .ok encoded
  /-- A query has a key condition. -/
  keyed : kind = .query → kept methods .key ≠ []

/-- The first fault that a check of the selection finds, before anything is encoded. -/
def checkFault (methods : List Method) : Option ValidationError :=
  ((firstRepeat [] (places methods)).map fun place =>
      .duplicateCondition place.1 place.2.name).or <|
  (((kept methods .key).find? (·.connective = .or)).map fun condition =>
      .orInKeyCondition condition.name).or <|
  (((kept methods .key).map Condition.name ++ (kept methods .filter).map Condition.name ++
      projected methods).find? fun name => ¬ IsAttributeName name).map .invalidAttributeName

def fault (methods : List Method) (kind : ReadKind) (attributes : Catalog) : Option Error :=
  ((checkFault methods).map .validation).or <|
  ((operandFault attributes (kept methods .key)).map .codec).or <|
  ((operandFault attributes (kept methods .filter)).map .codec).or <|
  if kind = .query ∧ kept methods .key = [] then some (.validation .noCondition) else none

theorem checkFault_eq_none_iff {methods : List Method} :
    checkFault methods = none ↔
      (places methods).Nodup ∧ (∀ condition ∈ kept methods .key, condition.connective ≠ .or) ∧
      (∀ role, ∀ condition ∈ kept methods role, IsAttributeName condition.name) ∧
      ∀ name ∈ projected methods, IsAttributeName name := by
  have hroles {motive : Role → Prop} : (∀ role, motive role) ↔ motive .key ∧ motive .filter :=
    ⟨fun h => ⟨h .key, h .filter⟩, fun h role => by cases role; exacts [h.1, h.2]⟩
  simp only [checkFault, Option.or_eq_none_iff, Option.map_eq_none_iff, firstRepeat_eq_none_iff,
    List.find?_eq_none, hroles, List.mem_append, List.mem_map]
  simp [or_imp, forall_and, and_assoc]

/-- A selection is well-formed if it has no fault. -/
theorem fault_eq_none_iff {methods : List Method} {kind : ReadKind} {attributes : Catalog} :
    fault methods kind attributes = none ↔ WellFormed methods kind attributes := by
  simp only [fault, Option.or_eq_none_iff, Option.map_eq_none_iff, checkFault_eq_none_iff,
    operandFault_eq_none_iff, ite_eq_right_iff, reduceCtorEq, imp_false, not_and]
  constructor
  · rintro ⟨⟨honce, hjoint, hnamed, hprojected⟩, hkey, hfilter, hkeyed⟩
    refine ⟨honce, hjoint, hnamed, hprojected, fun role => ?_, hkeyed⟩
    cases role
    · exact hkey
    · exact hfilter
  · intro h
    exact ⟨⟨h.once, h.joint, h.named, h.projected⟩, h.encodes .key, h.encodes .filter, h.keyed⟩

/-! ## Rendering fails for the first fault -/

theorem failure?_check (methods : List Method) :
    failure? (build methods).check = checkFault methods := by
  unfold check checkFault
  rw [← head?_rejected_build, ← keyConditions_build, ← filterConditions_build, ← projection_build,
    ← failure?_forM_checkAttributeName]
  cases (build methods).rejected with
  | cons place rest => rfl
  | nil => cases (build methods).keyConditions.members.find? (·.connective = .or) <;> rfl

/-- A selection is rendered unless it has a fault, and else fails for the first one. -/
theorem failure?_render (methods : List Method) (kind : ReadKind) (attributes : Catalog) :
    failure? ((build methods).render kind attributes) = fault methods kind attributes := by
  unfold render fault
  rw [← failure?_check, ← keyConditions_build, ← filterConditions_build,
    ← failure?_conditionsFragment, ← failure?_conditionsFragment, ← failure?_mapError,
    ← failure?_mapError, ← failure?_mapError]
  refine failure?_bind fun _ hcheck => failure?_bind fun key hfragment =>
    failure?_bind fun filter _ => ?_
  have hchecked := checked_of_check (mapError_eq_ok.1 hcheck)
  have hempty := (writes_conditionsFragment hchecked.key (mapError_eq_ok.1 hfragment)).isEmpty
  cases kind with
  | scan => simp
  | query =>
    by_cases hnone : (build methods).keyConditions.members = []
    · simp [hempty, hnone, throw, throwThe, MonadExceptOf.throw, bind, Except.bind]
    · simp [hempty, hnone, pure, Except.pure]

/-- The selection that methods build keeps, of each role and in order, the first condition added
for each attribute, and the last projection. It can be rendered if the methods are well-formed, and
else the error is their first fault. -/
theorem render_accepts_wellFormed (methods : List Method) (kind : ReadKind) (attributes : Catalog) :
    (∀ role, ((build methods).conditions role).members = kept methods role) ∧
      (build methods).projection = projected methods ∧
      ((∃ rendering, (build methods).render kind attributes = .ok rendering) ↔
        WellFormed methods kind attributes) ∧
      ∀ cause, (build methods).render kind attributes = .error cause ↔
        fault methods kind attributes = some cause := by
  refine ⟨members_build methods, projection_build methods, ?_, fun cause => ?_⟩
  · rw [← failure?_eq_none_iff, failure?_render, fault_eq_none_iff]
  · rw [← failure?_eq_some_iff, failure?_render]

end Selection

end AttributeStore
