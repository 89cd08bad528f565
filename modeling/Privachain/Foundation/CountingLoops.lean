import Mathlib.Tactic.Common

/-!
# Loops that count

A loop tests a counter, runs its body at the index read from the counter, and
steps the counter.  Where the counter counts up to a limit, an invariant over
the number of rounds gives the outcome: the body is accepted in every round, or
some round stops the loop.
-/

namespace Foundation

universe u v

variable {Counter : Type u} {State : Type v}

/-- The operations that a loop uses on its counter. -/
structure CounterOperations (Counter : Type u) where
  /-- The test before each round. -/
  continues : Counter -> Bool
  /-- The index of the round, unless the counter cannot be read. -/
  index : Counter -> Option Nat
  /-- The step after each round. -/
  next : Counter -> Counter

/-- The rounds of a loop, with a bound on their number. -/
def countingLoop
    (operations : CounterOperations Counter)
    (body : Nat -> State -> Option State) :
    Nat -> Counter -> State -> Option State
  | 0, _, _ => none
  | fuel + 1, counter, state =>
      if operations.continues counter then
        (operations.index counter).bind fun index =>
          (body index state).bind
            (countingLoop operations body fuel (operations.next counter))
      else some state

/-- The counters that stand for a number count up to the limit. -/
structure CountsTo
    (operations : CounterOperations Counter)
    (stands : Counter -> Nat -> Prop)
    (limit : Nat) : Prop where
  /-- The test compares with the limit. -/
  continues_iff : ∀ {counter count}, stands counter count -> count ≤ limit ->
    (operations.continues counter = true ↔ count < limit)
  /-- The index is the number of rounds so far. -/
  index_eq : ∀ {counter count}, stands counter count -> count < limit ->
    operations.index counter = some count
  /-- A step counts one round. -/
  next_stands : ∀ {counter count}, stands counter count -> count < limit ->
    stands (operations.next counter) (count + 1)

/-- What one round does: an accepted one keeps the invariant, and one that is
not accepted stops the loop. -/
structure RoundSpec
    (body : Nat -> State -> Option State)
    (limit : Nat)
    (invariant : Nat -> State -> Prop)
    (accepted : Nat -> Prop) : Prop where
  /-- An accepted round. -/
  accepts : ∀ {count state}, count < limit -> invariant count state ->
    accepted count ->
      ∃ next, body count state = some next ∧ invariant (count + 1) next
  /-- A round that is not accepted. -/
  rejects : ∀ {count state}, count < limit -> invariant count state ->
    ¬ accepted count -> body count state = none

section Rule

variable {operations : CounterOperations Counter}
variable {stands : Counter -> Nat -> Prop}
variable {limit : Nat}
variable {body : Nat -> State -> Option State}
variable {invariant : Nat -> State -> Prop}
variable {accepted : Nat -> Prop}

/-- The rounds from some count on reach the limit when all are accepted, and
otherwise have no result. -/
theorem countingLoop_from
    (counts : CountsTo operations stands limit)
    (round : RoundSpec body limit invariant accepted)
    (fuel : Nat)
    {counter : Counter}
    {count : Nat}
    {state : State}
    (standsFor : stands counter count)
    (within : count ≤ limit)
    (enough : limit < fuel + count)
    (holds : invariant count state) :
    ((∀ later, count ≤ later -> later < limit -> accepted later) ->
      ∃ final, countingLoop operations body fuel counter state = some final ∧
        invariant limit final) ∧
    ((∃ later, count ≤ later ∧ later < limit ∧ ¬ accepted later) ->
      countingLoop operations body fuel counter state = none) := by
  induction fuel generalizing counter count state with
  | zero => omega
  | succ fuel inductionHypothesis =>
      have test := counts.continues_iff standsFor within
      by_cases more : count < limit
      · have continues := test.mpr more
        have index := counts.index_eq standsFor more
        have step := counts.next_stands standsFor more
        by_cases accept : accepted count
        · obtain ⟨next, ran, nextHolds⟩ := round.accepts more holds accept
          have rest := inductionHypothesis step (by omega) (by omega) nextHolds
          simp only [countingLoop, continues, if_true, index, Option.bind_some,
            ran]
          constructor
          · intro all
            exact rest.1 fun later lower upper => all later (by omega) upper
          · rintro ⟨later, lower, upper, rejected⟩
            have distinct : count ≠ later := by
              rintro rfl
              exact rejected accept
            exact rest.2 ⟨later, by omega, upper, rejected⟩
        · have stopped := round.rejects more holds accept
          simp only [countingLoop, continues, if_true, index, Option.bind_some,
            stopped, Option.bind_none]
          exact ⟨fun all => absurd (all count (Nat.le_refl _) more) accept, fun _ => trivial⟩
      · have reached : count = limit := by omega
        have stops : operations.continues counter = false := by
          rw [← Bool.not_eq_true]
          exact mt test.mp more
        subst reached
        simp only [countingLoop, stops, Bool.false_eq_true, if_false]
        constructor
        · intro _
          exact ⟨state, rfl, holds⟩
        · rintro ⟨later, lower, upper, -⟩
          omega

/-- A loop from zero reaches the limit when all rounds are accepted. -/
theorem countingLoop_accepts
    (counts : CountsTo operations stands limit)
    (round : RoundSpec body limit invariant accepted)
    {fuel : Nat}
    {counter : Counter}
    {state : State}
    (standsFor : stands counter 0)
    (enough : limit < fuel)
    (holds : invariant 0 state)
    (all : ∀ count < limit, accepted count) :
    ∃ final, countingLoop operations body fuel counter state = some final ∧
      invariant limit final :=
  (countingLoop_from counts round fuel standsFor limit.zero_le enough
    holds).1 fun later _ upper => all later upper

/-- A loop from zero has no result when some round is not accepted. -/
theorem countingLoop_rejects
    (counts : CountsTo operations stands limit)
    (round : RoundSpec body limit invariant accepted)
    {fuel : Nat}
    {counter : Counter}
    {state : State}
    (standsFor : stands counter 0)
    (enough : limit < fuel)
    (holds : invariant 0 state)
    {count : Nat}
    (within : count < limit)
    (rejected : ¬ accepted count) :
    countingLoop operations body fuel counter state = none :=
  (countingLoop_from counts round fuel standsFor limit.zero_le enough
    holds).2 ⟨count, count.zero_le, within, rejected⟩

end Rule

/-- An entry written at the next index extends a filled part of an array. -/
theorem filled_update
    {Entry : Type u}
    {Value : Type v}
    {limit count : Nat}
    (agrees : Entry -> Value -> Prop)
    {entries : Fin limit -> Entry}
    {values : Fin limit -> Value}
    {entry : Entry}
    (within : count < limit)
    (filled : ∀ i, i.val < count -> agrees (entries i) (values i))
    (written : agrees entry (values ⟨count, within⟩)) :
    ∀ i, i.val < count + 1 ->
      agrees (Function.update entries ⟨count, within⟩ entry i) (values i) := by
  intro i upper
  by_cases here : i = ⟨count, within⟩
  · subst here
    rwa [Function.update_self]
  · rw [Function.update_of_ne here]
    have distinct : i.val ≠ count := fun equal => here (Fin.ext equal)
    exact filled i (by omega)

end Foundation
