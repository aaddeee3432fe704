import Mathlib.Data.List.Forall2

/-!
# Success of computations that may fail

A sequence of computations succeeds when each of them does. The lemmas turn the success of a
checked function into the facts that its checks establish. A sequence that fails does so for the
cause of the first part that fails, which is what `failure?` tells.
-/

namespace AttributeStore

variable {ε ε' α β : Type}

@[simp] theorem pure_eq_ok {a b : α} : (pure a : Except ε α) = .ok b ↔ a = b := by
  simp [pure, Except.pure]

@[simp] theorem bind_eq_ok {first : Except ε α} {next : α → Except ε β} {b : β} :
    (first >>= next) = .ok b ↔ ∃ a, first = .ok a ∧ next a = .ok b := by
  cases first <;> simp [bind, Except.bind]

theorem bind_eq_error {first : Except ε α} {next : α → Except ε β} {cause : ε} :
    (first >>= next) = .error cause ↔
      first = .error cause ∨ ∃ a, first = .ok a ∧ next a = .error cause := by
  cases first <;> simp [bind, Except.bind]

@[simp] theorem map_eq_ok {first : Except ε α} {f : α → β} {b : β} :
    f <$> first = .ok b ↔ ∃ a, first = .ok a ∧ f a = b := by
  cases first <;> simp [Functor.map, Except.map]

@[simp] theorem mapError_ok (f : ε → ε') (a : α) :
    (Except.ok a : Except ε α).mapError f = .ok a := rfl

@[simp] theorem mapError_error (f : ε → ε') (cause : ε) :
    (Except.error cause : Except ε α).mapError f = .error (f cause) := rfl

@[simp] theorem mapError_eq_ok {first : Except ε α} {f : ε → ε'} {a : α} :
    first.mapError f = .ok a ↔ first = .ok a := by
  cases first <;> simp

theorem exists_eq_error_iff {outcome : Except ε α} :
    (∃ cause, outcome = .error cause) ↔ ¬ ∃ a, outcome = .ok a := by
  cases outcome <;> simp

theorem eq_ok_iff_of_unique {outcome : Except ε α} {fails : Prop} {value : α}
    (hfails : (∃ cause, outcome = .error cause) ↔ fails)
    (hunique : ∀ a, outcome = .ok a → a = value) (a : α) :
    outcome = .ok a ↔ ¬ fails ∧ a = value := by
  rw [← hfails]
  cases outcome with
  | error cause => simp
  | ok held => simp [hunique held rfl, eq_comm]

@[simp] theorem forM_eq_ok {check : α → Except ε Unit} {list : List α} :
    forM list check = .ok () ↔ ∀ a ∈ list, check a = .ok () := by
  induction list with
  | nil => simp
  | cons a rest ih =>
    rw [List.forM_cons, bind_eq_ok, List.forall_mem_cons, ← ih]
    exact ⟨fun ⟨(), h⟩ => h, fun h => ⟨(), h⟩⟩

theorem mapM_eq_ok {f : α → Except ε β} {list : List α} {results : List β} :
    list.mapM f = .ok results ↔ list.map f = results.map .ok := by
  induction list generalizing results with
  | nil => cases results <;> simp
  | cons a rest ih =>
    rw [List.mapM_cons, bind_eq_ok]
    simp only [bind_eq_ok, pure_eq_ok, ih]
    constructor
    · rintro ⟨first, hfirst, others, hothers, rfl⟩
      rw [List.map_cons, List.map_cons, hfirst, hothers]
    · intro h
      cases results with
      | nil => cases h
      | cons first others =>
        rw [List.map_cons, List.map_cons, List.cons.injEq] at h
        exact ⟨first, h.1, others, h.2, rfl⟩

theorem exists_mapM_eq_ok {f : α → Except ε β} {list : List α} :
    (∃ results, list.mapM f = .ok results) ↔ ∀ a ∈ list, ∃ b, f a = .ok b := by
  induction list with
  | nil => simp
  | cons a rest ih =>
    rw [List.forall_mem_cons, ← ih]
    simp only [List.mapM_cons, bind_eq_ok, pure_eq_ok]
    constructor
    · rintro ⟨_, first, hfirst, others, hothers, _⟩
      exact ⟨⟨first, hfirst⟩, others, hothers⟩
    · rintro ⟨⟨first, hfirst⟩, others, hothers⟩
      exact ⟨first :: others, first, hfirst, others, hothers, rfl⟩

theorem mapM_eq_ok_iff_forall₂ {f : α → Except ε β} {list : List α} {results : List β} :
    list.mapM f = .ok results ↔ List.Forall₂ (fun a b => f a = .ok b) list results := by
  rw [mapM_eq_ok, ← List.forall₂_eq_eq_eq, List.forall₂_map_left_iff, List.forall₂_map_right_iff]

theorem forall_mem_iff_of_forall₂ {r : α → β → Prop} {p : α → Prop} {q : β → Prop} {list : List α}
    {results : List β} (h : List.Forall₂ r list results)
    (hr : ∀ a b, r a b → (p a ↔ q b)) : (∀ a ∈ list, p a) ↔ ∀ b ∈ results, q b := by
  induction h with
  | nil => simp
  | cons hab _ ih => rw [List.forall_mem_cons, List.forall_mem_cons, hr _ _ hab, ih]

theorem mapM_congr {f g : α → Except ε β} {list : List α} (h : ∀ a ∈ list, f a = g a) :
    list.mapM f = list.mapM g := by
  induction list with
  | nil => rfl
  | cons a rest ih =>
    rw [List.mapM_cons, List.mapM_cons, h a List.mem_cons_self,
      ih fun b hb => h b (List.mem_cons_of_mem _ hb)]

theorem map_eq_map_of_mapM {γ : Type} {f : α → Except ε β} {g : β → γ} {k : α → γ}
    {list : List α} {results : List β} (h : list.mapM f = .ok results)
    (hg : ∀ a ∈ list, ∀ b, f a = .ok b → g b = k a) : results.map g = list.map k := by
  rw [mapM_eq_ok] at h
  induction list generalizing results with
  | nil => rw [List.map_eq_nil_iff.1 h.symm, List.map_nil, List.map_nil]
  | cons a rest ih =>
    cases results with
    | nil => cases h
    | cons first others =>
      rw [List.map_cons, List.map_cons, List.cons.injEq] at h
      rw [List.map_cons, List.map_cons, hg a List.mem_cons_self first h.1,
        ih h.2 fun b hb => hg b (List.mem_cons_of_mem _ hb)]

/-! ## The first failure -/

def failure? : Except ε α → Option ε
  | .ok _ => none
  | .error cause => some cause

@[simp] theorem failure?_ok (a : α) : failure? (.ok a : Except ε α) = none := rfl

@[simp] theorem failure?_error (cause : ε) : failure? (.error cause : Except ε α) = some cause :=
  rfl

@[simp] theorem failure?_pure (a : α) : failure? (pure a : Except ε α) = none := rfl

theorem failure?_eq_some_iff {outcome : Except ε α} {cause : ε} :
    failure? outcome = some cause ↔ outcome = .error cause := by
  cases outcome <;> simp

theorem failure?_eq_none_iff {outcome : Except ε α} :
    failure? outcome = none ↔ ∃ a, outcome = .ok a := by
  cases outcome <;> simp

@[simp] theorem failure?_mapError (f : ε → ε') (outcome : Except ε α) :
    failure? (outcome.mapError f) = (failure? outcome).map f := by
  cases outcome <;> rfl

/-- A sequence fails for its first part, or else for what the rest fails for whatever the first
part gave. -/
theorem failure?_bind {first : Except ε α} {next : α → Except ε β} {later : Option ε}
    (h : ∀ a, first = .ok a → failure? (next a) = later) :
    failure? (first >>= next) = (failure? first).or later := by
  cases first with
  | error cause => rfl
  | ok a => exact h a rfl

theorem failure?_forM (check : α → Except ε Unit) (list : List α) :
    failure? (forM list check) = list.findSome? fun a => failure? (check a) := by
  induction list with
  | nil => rfl
  | cons a rest ih =>
    rw [List.forM_cons, failure?_bind fun _ _ => ih, List.findSome?_cons]
    cases failure? (check a) <;> rfl

end AttributeStore
