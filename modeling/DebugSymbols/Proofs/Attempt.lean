import DebugSymbols.Attempt

/-!
# Outcomes of attempts

A computation that is made of others succeeds exactly if they succeed one after the other, and an
attempt starts each of them from the state that the one before has reached. These equations take a
successful attempt apart, so that nothing else needs to know how attempts are made.
-/

namespace DebugSymbols

/-- What follows a value starts from this value. -/
theorem ok_bind {ε α β : Type} (a : α) (step : α → Except ε β) :
    (Except.ok a >>= step) = step a := rfl

/-- A sequence of computations succeeds if each of them does. -/
theorem bind_eq_ok_iff {ε α β : Type} {result : Except ε α} {step : α → Except ε β} {value : β} :
    result >>= step = .ok value ↔ ∃ a, result = .ok a ∧ step a = .ok value := by
  cases result with
  | error error =>
    constructor
    · intro h
      cases h
    · rintro ⟨_, h, -⟩
      cases h
  | ok a =>
    constructor
    · intro h
      exact ⟨a, rfl, h⟩
    · rintro ⟨_, ha, h⟩
      cases ha
      exact h

/-- A sequence of computations fails where the first of them fails that does. -/
theorem bind_eq_error_iff {ε α β : Type} {result : Except ε α} {step : α → Except ε β} {error : ε} :
    result >>= step = .error error ↔
      result = .error error ∨ ∃ a, result = .ok a ∧ step a = .error error := by
  cases result with
  | error failure =>
    constructor
    · intro h
      cases h
      exact Or.inl rfl
    · rintro (h | ⟨_, h, -⟩)
      · cases h
        rfl
      · cases h
  | ok a =>
    constructor
    · intro h
      exact Or.inr ⟨a, rfl, h⟩
    · rintro (h | ⟨_, ha, h⟩)
      · cases h
      · cases ha
        exact h

theorem exists_bind_eq_ok_iff {ε α β : Type} {result : Except ε α} {step : α → Except ε β} :
    (∃ value, result >>= step = .ok value) ↔ ∃ a, result = .ok a ∧ ∃ value, step a = .ok value := by
  simp only [bind_eq_ok_iff]
  constructor
  · rintro ⟨value, a, ha, hvalue⟩
    exact ⟨a, ha, value, hvalue⟩
  · rintro ⟨a, ha, value, hvalue⟩
    exact ⟨value, a, ha, hvalue⟩

theorem map_eq_ok_iff {ε α β : Type} {result : Except ε α} {f : α → β} {value : β} :
    result.map f = .ok value ↔ ∃ a, result = .ok a ∧ f a = value := by
  cases result <;> simp [Except.map]

theorem map_eq_error_iff {ε α β : Type} {result : Except ε α} {f : α → β} {error : ε} :
    result.map f = .error error ↔ result = .error error := by
  cases result <;> simp [Except.map]

/-- A computation for every value of a list succeeds if it does for each of them. -/
theorem forM_eq_ok_iff {ε α : Type} {step : α → Except ε Unit} {values : List α} :
    values.forM step = .ok () ↔ ∀ value ∈ values, step value = .ok () := by
  induction values with
  | nil =>
    constructor
    · intro _ value hmem
      cases hmem
    · intro _
      rfl
  | cons value values ih =>
    have hcons : (value :: values).forM step = step value >>= fun _ => values.forM step := rfl
    rw [hcons, bind_eq_ok_iff, List.forall_mem_cons, ih]
    constructor
    · rintro ⟨_, hvalue, hvalues⟩
      exact ⟨hvalue, hvalues⟩
    · rintro ⟨hvalue, hvalues⟩
      exact ⟨(), hvalue, hvalues⟩

/-- Whether a computation can only fail with errors of a given kind. -/
def FailsOnly {α : Type} (allowed : SymbolError → Prop) (result : Except SymbolError α) : Prop :=
  ∀ error, result = .error error → allowed error

namespace FailsOnly

variable {α β : Type} {allowed : SymbolError → Prop}

theorem ok (value : α) : FailsOnly allowed (.ok value) := fun _ h => nomatch h

theorem error {error : SymbolError} (h : allowed error) :
    FailsOnly allowed (.error error : Except SymbolError α) := by
  intro _ heq
  cases heq
  exact h

theorem mono {weaker : SymbolError → Prop} {result : Except SymbolError α}
    (hresult : FailsOnly allowed result) (h : ∀ error, allowed error → weaker error) :
    FailsOnly weaker result := fun error heq => h error (hresult error heq)

theorem bind {result : Except SymbolError α} {step : α → Except SymbolError β}
    (hresult : FailsOnly allowed result) (hstep : ∀ value, FailsOnly allowed (step value)) :
    FailsOnly allowed (result >>= step) := by
  cases result with
  | ok value => exact hstep value
  | error _ => exact error (hresult _ rfl)

theorem map {result : Except SymbolError α} (f : α → β) (hresult : FailsOnly allowed result) :
    FailsOnly allowed (result.map f) := by
  cases result with
  | ok value => exact ok (f value)
  | error _ => exact error (hresult _ rfl)

theorem mapM {step : α → Except SymbolError β} (hstep : ∀ value, FailsOnly allowed (step value))
    (values : List α) : FailsOnly allowed (values.mapM step) := by
  induction values with
  | nil => exact ok []
  | cons value values ih =>
    rw [List.mapM_cons]
    exact bind (hstep value) fun _ => bind ih fun _ => ok _

theorem forM {step : α → Except SymbolError PUnit} (hstep : ∀ value, FailsOnly allowed (step value))
    (values : List α) : FailsOnly allowed (values.forM step) := by
  induction values with
  | nil => exact ok _
  | cons value values ih => exact bind (hstep value) fun _ => ih

end FailsOnly

namespace Attempt

variable {σ α β : Type}

@[simp] theorem outcome_pure (value : α) (state : σ) :
    (pure value : Attempt σ α).outcome state = (.ok value, state) := rfl

@[simp] theorem outcome_throw (error : SymbolError) (state : σ) :
    (throw error : Attempt σ α).outcome state = (.error error, state) := rfl

@[simp] theorem outcome_ofOutcome (step : σ → Except SymbolError α × σ) (state : σ) :
    (ofOutcome step).outcome state = step state := rfl

@[simp] theorem outcome_get (state : σ) :
    (get : Attempt σ σ).outcome state = (.ok state, state) := rfl

@[simp] theorem outcome_modify (change : σ → σ) (state : σ) :
    (modify change : Attempt σ Unit).outcome state = (.ok (), change state) := rfl

@[simp] theorem outcome_lift (result : Except SymbolError α) (state : σ) :
    (lift result : Attempt σ α).outcome state = (result, state) := by
  cases result <;> rfl

theorem outcome_bind (attempt : Attempt σ α) (next : α → Attempt σ β) (state : σ) :
    (attempt >>= next).outcome state =
      match attempt.outcome state with
      | (.ok value, reached) => (next value).outcome reached
      | (.error error, reached) => (.error error, reached) := by
  show (attempt >>= next).run.run state = match attempt.run.run state with
    | (.ok value, reached) => (next value).run.run reached
    | (.error error, reached) => (.error error, reached)
  rw [ExceptT.run_bind, StateT.run_bind]
  rcases attempt.run.run state with ⟨_ | _, _⟩ <;> rfl

theorem outcome_map (f : α → β) (attempt : Attempt σ α) (state : σ) :
    (f <$> attempt).outcome state =
      ((attempt.outcome state).1.map f, (attempt.outcome state).2) := by
  rw [map_eq_pure_bind, outcome_bind]
  rcases attempt.outcome state with ⟨_ | _, _⟩ <;> rfl

/-- A sequence of attempts succeeds if each of them does. -/
theorem outcome_bind_eq_ok_iff {attempt : Attempt σ α} {next : α → Attempt σ β} {state last : σ}
    {value : β} :
    (attempt >>= next).outcome state = (.ok value, last) ↔
      ∃ a reached, attempt.outcome state = (.ok a, reached) ∧
        (next a).outcome reached = (.ok value, last) := by
  rw [outcome_bind]
  rcases attempt.outcome state with ⟨error | a, reached⟩
  · simp
  · constructor
    · intro h
      exact ⟨a, reached, rfl, h⟩
    · rintro ⟨_, _, hattempt, h⟩
      cases hattempt
      exact h

/-- A sequence of attempts fails where the first of them fails that does. -/
theorem outcome_bind_eq_error_iff {attempt : Attempt σ α} {next : α → Attempt σ β}
    {state last : σ} {error : SymbolError} :
    (attempt >>= next).outcome state = (.error error, last) ↔
      attempt.outcome state = (.error error, last) ∨
        ∃ a reached, attempt.outcome state = (.ok a, reached) ∧
          (next a).outcome reached = (.error error, last) := by
  rw [outcome_bind]
  rcases attempt.outcome state with ⟨failure | a, reached⟩
  · simp
  · constructor
    · intro h
      exact Or.inr ⟨a, reached, rfl, h⟩
    · rintro (hattempt | ⟨_, _, hattempt, h⟩)
      · cases hattempt
      · cases hattempt
        exact h

/-- The computation without a state that an attempt starts with. -/
theorem outcome_lift_bind_eq_ok_iff {result : Except SymbolError α} {next : α → Attempt σ β}
    {state last : σ} {value : β} :
    ((lift result : Attempt σ α) >>= next).outcome state = (.ok value, last) ↔
      ∃ a, result = .ok a ∧ (next a).outcome state = (.ok value, last) := by
  rw [outcome_bind, outcome_lift]
  cases result <;> simp

/-- If the computation without a state that an attempt starts with fails, nothing has been done. -/
theorem outcome_lift_bind_eq_error_iff {result : Except SymbolError α} {next : α → Attempt σ β}
    {state last : σ} {error : SymbolError} :
    ((lift result : Attempt σ α) >>= next).outcome state = (.error error, last) ↔
      result = .error error ∧ last = state ∨
        ∃ a, result = .ok a ∧ (next a).outcome state = (.error error, last) := by
  rw [outcome_bind, outcome_lift]
  cases result <;> simp [eq_comm]

/-- What holds before an attempt holds behind it, whether it succeeds or fails. -/
def Keeps (holds : σ → Prop) (attempt : Attempt σ α) : Prop :=
  ∀ state, holds state → holds (attempt.outcome state).2

namespace Keeps

variable {holds : σ → Prop}

theorem pure (value : α) : Keeps holds (Pure.pure value : Attempt σ α) := fun _ h => h

theorem lift (result : Except SymbolError α) : Keeps holds (Attempt.lift result) := by
  intro state h
  rw [outcome_lift]
  exact h

theorem bind {attempt : Attempt σ α} {next : α → Attempt σ β} (hattempt : Keeps holds attempt)
    (hnext : ∀ value, Keeps holds (next value)) : Keeps holds (attempt >>= next) := by
  intro state h
  have hreached := hattempt state h
  rw [outcome_bind]
  generalize attempt.outcome state = outcome at hreached ⊢
  rcases outcome with ⟨_ | value, reached⟩
  · exact hreached
  · exact hnext value reached hreached

end Keeps

end Attempt

end DebugSymbols
