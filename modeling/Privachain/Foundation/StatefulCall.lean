import Mathlib.Logic.Basic

/-!
# Calls on a state that may fail

A failing call keeps the writes made before the failure.  A dispatcher runs the
call and restores the state when it fails.
-/

namespace Foundation
namespace StatefulCall

universe u

variable {ε σ α β : Type u}

/-- A sequenced call returns exactly when both of its parts do. -/
theorem call_bind_eq_ok_iff
    (first : EStateM ε σ α)
    (next : α -> EStateM ε σ β)
    (result : β)
    (before after : σ) :
    (first >>= next) before = .ok result after ↔
      ∃ value middle, first before = .ok value middle ∧
        next value middle = .ok result after := by
  change EStateM.bind first next before = _ ↔ _
  unfold EStateM.bind
  cases first before with
  | ok value middle =>
      constructor
      · intro returns
        exact ⟨value, middle, rfl, returns⟩
      · rintro ⟨_, _, same, returns⟩
        cases same
        exact returns
  | error error middle => simp

/-- A sequenced call fails exactly when one of its parts does. -/
theorem call_bind_eq_error_iff
    (first : EStateM ε σ α)
    (next : α -> EStateM ε σ β)
    (error : ε)
    (before after : σ) :
    (first >>= next) before = .error error after ↔
      first before = .error error after ∨
      ∃ value middle, first before = .ok value middle ∧
        next value middle = .error error after := by
  change EStateM.bind first next before = _ ↔ _
  unfold EStateM.bind
  cases first before with
  | ok value middle =>
      constructor
      · intro fails
        exact .inr ⟨value, middle, rfl, fails⟩
      · rintro (impossible | ⟨_, _, same, fails⟩)
        · cases impossible
        · cases same
          exact fails
  | error thrown middle => simp

/-- After a call that returns comes the next one. -/
theorem bind_of_ok
    {first : EStateM ε σ α}
    {value : α}
    {before middle : σ}
    (returns : first before = .ok value middle)
    (next : α -> EStateM ε σ β) :
    (first >>= next) before = next value middle := by
  change EStateM.bind first next before = _
  unfold EStateM.bind
  rw [returns]

/-- After a call that fails comes nothing. -/
theorem bind_of_error
    {first : EStateM ε σ α}
    {error : ε}
    {before after : σ}
    (fails : first before = .error error after)
    (next : α -> EStateM ε σ β) :
    (first >>= next) before = .error error after := by
  change EStateM.bind first next before = _
  unfold EStateM.bind
  rw [fails]

/-- A thrown error is never a result. -/
theorem throw_ne_ok
    (error : ε)
    (value : α)
    (before after : σ) :
    (throw error : EStateM ε σ α) before ≠ .ok value after := by
  have thrown : (throw error : EStateM ε σ α) before =
      .error error before := rfl
  rw [thrown]
  intro same
  cases same

/-- A returned value changes nothing. -/
theorem pure_eq_ok_iff
    (result value : α)
    (before after : σ) :
    (pure result : EStateM ε σ α) before = .ok value after ↔
      value = result ∧ after = before := by
  have returned : (pure result : EStateM ε σ α) before =
      .ok result before := rfl
  rw [returned, EStateM.Result.ok.injEq, eq_comm, @eq_comm _ before]

/-- A thrown error changes nothing. -/
theorem throw_eq_error_iff
    (error thrown : ε)
    (before after : σ) :
    (throw thrown : EStateM ε σ α) before = .error error after ↔
      error = thrown ∧ after = before := by
  have fails : (throw thrown : EStateM ε σ α) before =
      .error thrown before := rfl
  rw [fails, EStateM.Result.error.injEq, eq_comm, @eq_comm _ before]

/-- A returned value is no error. -/
theorem pure_ne_error
    (value : α)
    (error : ε)
    (before after : σ) :
    (pure value : EStateM ε σ α) before ≠ .error error after := by
  have returned : (pure value : EStateM ε σ α) before =
      .ok value before := rfl
  rw [returned]
  intro same
  cases same

/-- Reading the state passes it on unchanged. -/
theorem get_bind_eq
    (next : σ -> EStateM ε σ β)
    (before : σ) :
    (get >>= next) before = next before before := rfl

/-- Writing the state always returns. -/
theorem modify_eq_ok_iff
    (write : σ -> σ)
    (value : PUnit)
    (before after : σ) :
    (modify write : EStateM ε σ PUnit) before = .ok value after ↔
      after = write before := by
  have written : (modify write : EStateM ε σ PUnit) before =
      .ok ⟨⟩ (write before) := rfl
  rw [written, EStateM.Result.ok.injEq, @eq_comm _ after]
  exact and_iff_right rfl

/-- Writing the state never fails. -/
theorem modify_ne_error
    (write : σ -> σ)
    (error : ε)
    (before after : σ) :
    (modify write : EStateM ε σ PUnit) before ≠ .error error after := by
  have written : (modify write : EStateM ε σ PUnit) before =
      .ok ⟨⟩ (write before) := rfl
  rw [written]
  intro same
  cases same

/-- `ensure!(condition, error)` -/
def ensure
    (condition : Prop) [Decidable condition]
    (error : ε) : EStateM ε σ PUnit :=
  if condition then pure ⟨⟩ else throw error

/-- A guard returns exactly when its condition holds, and changes nothing. -/
theorem ensure_eq_ok_iff
    (condition : Prop) [Decidable condition]
    (error : ε)
    (value : PUnit)
    (before after : σ) :
    ensure condition error before = .ok value after ↔
      condition ∧ after = before := by
  unfold ensure
  by_cases holds : condition
  · rw [if_pos holds, pure_eq_ok_iff]
    simp [holds]
  · rw [if_neg holds]
    simp [holds, throw_ne_ok]

/-- A guard fails exactly when its condition does not hold, and changes
nothing. -/
theorem ensure_eq_error_iff
    (condition : Prop) [Decidable condition]
    (error thrown : ε)
    (before after : σ) :
    ensure condition thrown before = .error error after ↔
      ¬condition ∧ error = thrown ∧ after = before := by
  unfold ensure
  by_cases holds : condition
  · rw [if_pos holds]
    simp [holds, pure_ne_error]
  · rw [if_neg holds, throw_eq_error_iff]
    simp [holds]

theorem ensure_of_true
    {condition : Prop} [Decidable condition]
    (holds : condition)
    (error : ε)
    (before : σ) :
    ensure condition error before = .ok ⟨⟩ before :=
  (ensure_eq_ok_iff _ _ _ _ _).mpr ⟨holds, rfl⟩

theorem ensure_of_false
    {condition : Prop} [Decidable condition]
    (fails : ¬condition)
    (error : ε)
    (before : σ) :
    ensure condition error before = .error error before :=
  (ensure_eq_error_iff _ _ _ _ _).mpr ⟨fails, rfl, rfl⟩

/-- A computed result is returned without a change of the state. -/
theorem ofExcept_eq_ok_iff
    (computed : Except ε α)
    (value : α)
    (before after : σ) :
    (MonadExcept.ofExcept computed : EStateM ε σ α) before = .ok value after ↔
      computed = .ok value ∧ after = before := by
  cases computed with
  | ok result =>
      change (pure result : EStateM ε σ α) before = _ ↔ _
      rw [pure_eq_ok_iff, Except.ok.injEq, @eq_comm _ value]
  | error error =>
      change (throw error : EStateM ε σ α) before = _ ↔ _
      simp [throw_ne_ok]

/-- A computed exception is thrown without a change of the state. -/
theorem ofExcept_eq_error_iff
    (computed : Except ε α)
    (error : ε)
    (before after : σ) :
    (MonadExcept.ofExcept computed : EStateM ε σ α) before =
        .error error after ↔
      computed = .error error ∧ after = before := by
  cases computed with
  | ok result =>
      change (pure result : EStateM ε σ α) before = _ ↔ _
      simp [pure_ne_error]
  | error thrown =>
      change (throw thrown : EStateM ε σ α) before = _ ↔ _
      rw [throw_eq_error_iff, Except.error.injEq, @eq_comm _ error]

theorem ofExcept_of_ok
    {computed : Except ε α}
    {value : α}
    (returns : computed = .ok value)
    (before : σ) :
    (MonadExcept.ofExcept computed : EStateM ε σ α) before =
      .ok value before :=
  (ofExcept_eq_ok_iff _ _ _ _).mpr ⟨returns, rfl⟩

theorem ofExcept_of_error
    {computed : Except ε α}
    {error : ε}
    (fails : computed = .error error)
    (before : σ) :
    (MonadExcept.ofExcept computed : EStateM ε σ α) before =
      .error error before :=
  (ofExcept_eq_error_iff _ _ _ _).mpr ⟨fails, rfl⟩

/-! ## Catching errors -/

/-- A call that returns is not caught. -/
theorem tryCatch_of_ok
    {call : EStateM ε σ α}
    {value : α}
    {before after : σ}
    (returns : call before = .ok value after)
    (handler : ε -> EStateM ε σ α) :
    tryCatch call handler before = .ok value after := by
  change EStateM.tryCatch call handler before = _
  unfold EStateM.tryCatch
  rw [returns]

/-- The handler of a call that fails starts from the state that it left. -/
theorem tryCatch_of_error
    {call : EStateM ε σ α}
    {error : ε}
    {before after : σ}
    (fails : call before = .error error after)
    (handler : ε -> EStateM ε σ α) :
    tryCatch call handler before = handler error after := by
  change EStateM.tryCatch call handler before = _
  unfold EStateM.tryCatch
  rw [fails]
  rfl

/-! ## Outcomes -/

/-- The state after a call that returned has the first property, and the state
after one that failed the second. -/
def Outcome
    (call : EStateM ε σ α)
    (before : σ)
    (returned failed : σ -> Prop) : Prop :=
  match call before with
  | .ok _ after => returned after
  | .error _ after => failed after

/-- The state that a call leaves, whether it returns or fails. -/
def stateAfter (call : EStateM ε σ α) (before : σ) : σ :=
  match call before with
  | .ok _ after => after
  | .error _ after => after

theorem outcome_of_ok
    {call : EStateM ε σ α}
    {value : α}
    {before after : σ}
    (returns : call before = .ok value after)
    (returned failed : σ -> Prop) :
    Outcome call before returned failed ↔ returned after := by
  rw [Outcome, returns]

theorem outcome_of_error
    {call : EStateM ε σ α}
    {error : ε}
    {before after : σ}
    (fails : call before = .error error after)
    (returned failed : σ -> Prop) :
    Outcome call before returned failed ↔ failed after := by
  rw [Outcome, fails]

/-- After a call that returns the next one decides. -/
theorem outcome_bind_of_ok
    {first : EStateM ε σ α}
    {value : α}
    {before middle : σ}
    (returns : first before = .ok value middle)
    (next : α -> EStateM ε σ β)
    (returned failed : σ -> Prop) :
    Outcome (first >>= next) before returned failed ↔
      Outcome (next value) middle returned failed := by
  rw [Outcome, bind_of_ok returns]
  rfl

/-- A call that fails decides. -/
theorem outcome_bind_of_error
    {first : EStateM ε σ α}
    {error : ε}
    {before after : σ}
    (fails : first before = .error error after)
    (next : α -> EStateM ε σ β)
    (returned failed : σ -> Prop) :
    Outcome (first >>= next) before returned failed ↔ failed after :=
  outcome_of_error (bind_of_error fails next) returned failed

/-- What is returned does not matter for the outcome. -/
theorem outcome_bind_pure
    (call : EStateM ε σ α)
    (result : β)
    (before : σ)
    (returned failed : σ -> Prop) :
    Outcome (call >>= fun _ => pure result) before returned failed ↔
      Outcome call before returned failed := by
  cases outcome : call before with
  | ok value after =>
      have returns : (call >>= fun _ => pure result) before =
          .ok result after := bind_of_ok outcome _
      rw [outcome_of_ok outcome, outcome_of_ok returns]
  | error error after =>
      have fails : (call >>= fun _ => pure result) before =
          .error error after := bind_of_error outcome _
      rw [outcome_of_error outcome, outcome_of_error fails]

/-- The state that a call leaves has one of the two properties. -/
theorem stateAfter_of_outcome
    {call : EStateM ε σ α}
    {before : σ}
    {property : σ -> Prop}
    (outcome : Outcome call before property property) :
    property (stateAfter call before) := by
  unfold Outcome at outcome
  unfold stateAfter
  cases returned : call before with
  | ok value after =>
      rw [returned] at outcome
      exact outcome
  | error error after =>
      rw [returned] at outcome
      exact outcome

theorem stateAfter_of_ok
    {call : EStateM ε σ α}
    {value : α}
    {before after : σ}
    (returns : call before = .ok value after) :
    stateAfter call before = after := by
  rw [stateAfter, returns]

theorem stateAfter_of_error
    {call : EStateM ε σ α}
    {error : ε}
    {before after : σ}
    (fails : call before = .error error after) :
    stateAfter call before = after := by
  rw [stateAfter, fails]

/-- After a call that returns the next one leaves its state. -/
theorem stateAfter_bind_of_ok
    {first : EStateM ε σ α}
    {value : α}
    {before middle : σ}
    (returns : first before = .ok value middle)
    (next : α -> EStateM ε σ β) :
    stateAfter (first >>= next) before = stateAfter (next value) middle := by
  rw [stateAfter, bind_of_ok returns]
  rfl

/-- A handler that only returns leaves the state of the call. -/
theorem stateAfter_tryCatch_pure
    (call : EStateM ε σ α)
    (value : α)
    (before : σ) :
    stateAfter (tryCatch call fun _ => pure value) before =
      stateAfter call before := by
  cases outcome : call before with
  | ok returned after =>
      rw [stateAfter_of_ok outcome, stateAfter_of_ok (tryCatch_of_ok outcome _)]
  | error error after =>
      rw [stateAfter_of_error outcome, stateAfter, tryCatch_of_error outcome]
      rfl

/-! ## Calls on a part of the state -/

/-- A call on a part of the state. -/
def onPart
    {ρ : Type u}
    (part : σ -> ρ)
    (update : ρ -> σ -> σ)
    (call : EStateM ε ρ α) : EStateM ε σ α :=
  fun before =>
    match call (part before) with
    | .ok value after => .ok value (update after before)
    | .error error after => .error error (update after before)

theorem onPart_of_ok
    {ρ : Type u}
    {part : σ -> ρ}
    {call : EStateM ε ρ α}
    {value : α}
    {before : σ}
    {after : ρ}
    (returns : call (part before) = .ok value after)
    (update : ρ -> σ -> σ) :
    onPart part update call before = .ok value (update after before) := by
  rw [onPart, returns]

theorem onPart_of_error
    {ρ : Type u}
    {part : σ -> ρ}
    {call : EStateM ε ρ α}
    {error : ε}
    {before : σ}
    {after : ρ}
    (fails : call (part before) = .error error after)
    (update : ρ -> σ -> σ) :
    onPart part update call before = .error error (update after before) := by
  rw [onPart, fails]

/-- A call on a part leaves the rest as it was. -/
theorem stateAfter_onPart
    {ρ : Type u}
    (part : σ -> ρ)
    (update : ρ -> σ -> σ)
    (call : EStateM ε ρ α)
    (before : σ) :
    stateAfter (onPart part update call) before =
      update (stateAfter call (part before)) before := by
  cases outcome : call (part before) with
  | ok value after =>
      rw [stateAfter_of_ok outcome, stateAfter_of_ok (onPart_of_ok outcome update)]
  | error error after =>
      rw [stateAfter_of_error outcome,
        stateAfter_of_error (onPart_of_error outcome update)]

/-- A view that the later call keeps is the one after the first call. -/
theorem view_stateAfter_bind
    {ρ : Type u}
    {view : σ -> ρ}
    {first : EStateM ε σ α}
    {next : α -> EStateM ε σ β}
    (keeps : ∀ value before,
      view (stateAfter (next value) before) = view before)
    (before : σ) :
    view (stateAfter (first >>= next) before) =
      view (stateAfter first before) := by
  cases outcome : first before with
  | ok value middle =>
      rw [stateAfter_bind_of_ok outcome, stateAfter_of_ok outcome, keeps]
  | error error after =>
      rw [stateAfter_of_error (bind_of_error outcome next),
        stateAfter_of_error outcome]

/-! ## Failing without an effect -/

/-- Every failure of the call leaves a state that agrees with the one before. -/
def FailsIntact
    (Agrees : σ -> σ -> Prop)
    (call : EStateM ε σ α)
    (before : σ) : Prop :=
  ∀ error after, call before = .error error after -> Agrees before after

/-! ## Dispatching with rollback -/

/-- The call returns from this state. -/
def Succeeds (call : EStateM ε σ α) (before : σ) : Prop :=
  ∃ value after, call before = .ok value after

instance decidableSucceeds (call : EStateM ε σ α) (before : σ) :
    Decidable (Succeeds call before) :=
  match returned : call before with
  | .ok value after => isTrue ⟨value, after, returned⟩
  | .error _ _ => isFalse fun ⟨_, _, returns⟩ =>
      absurd (returned.symm.trans returns) (by simp)

/-- Run a call and restore the state when it fails. -/
def dispatch (call : EStateM ε σ α) (before : σ) : σ :=
  match call before with
  | .ok _ after => after
  | .error _ _ => before

/-- A call that returns is committed. -/
theorem dispatch_of_ok
    {call : EStateM ε σ α}
    {value : α}
    {before after : σ}
    (returns : call before = .ok value after) :
    dispatch call before = after := by
  rw [dispatch, returns]

/-- A call that fails leaves the state as it was. -/
theorem dispatch_of_not_succeeds
    {call : EStateM ε σ α}
    {before : σ}
    (fails : ¬Succeeds call before) :
    dispatch call before = before := by
  unfold dispatch
  cases returned : call before with
  | ok value after => exact absurd ⟨value, after, returned⟩ fails
  | error error after => rfl

/-- A successful call returns in the dispatched state. -/
theorem Succeeds.returns
    {call : EStateM ε σ α}
    {before : σ}
    (succeeds : Succeeds call before) :
    ∃ value, call before = .ok value (dispatch call before) := by
  obtain ⟨value, after, returns⟩ := succeeds
  refine ⟨value, ?_⟩
  rw [dispatch_of_ok returns, returns]

end StatefulCall
end Foundation
