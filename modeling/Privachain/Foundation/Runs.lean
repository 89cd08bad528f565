import Mathlib.Data.List.Basic
import Mathlib.Data.List.Induction

/-!
# Runs of a deterministic step function

A run folds a list of steps over a state.  What happens along it is collected in
a history; an invariant that relates the state with the history so far is
carried through every run by its preservation in one step.
-/

namespace Foundation

universe u v w

variable {State : Type u} {Step : Type v} {Output : Type w}

/-- The state after a list of steps. -/
def run (step : State -> Step -> State) (initial : State)
    (steps : List Step) : State :=
  steps.foldl step initial

@[simp] theorem run_nil (step : State -> Step -> State) (initial : State) :
    run step initial [] = initial := rfl

@[simp] theorem run_cons
    (step : State -> Step -> State)
    (initial : State)
    (first : Step)
    (rest : List Step) :
    run step initial (first :: rest) = run step (step initial first) rest := rfl

theorem run_append
    (step : State -> Step -> State)
    (initial : State)
    (earlier later : List Step) :
    run step initial (earlier ++ later) =
      run step (run step initial earlier) later :=
  List.foldl_append

/-- **Simulation.**  A relation that every step keeps relates the ends of two
runs with the same steps. -/
theorem run_simulation
    {Other : Type w}
    {step : State -> Step -> State}
    {otherStep : Other -> Step -> Other}
    {related : State -> Other -> Prop}
    (simulates : ∀ state other next, related state other ->
      related (step state next) (otherStep other next))
    {initial : State}
    {otherInitial : Other}
    (initially : related initial otherInitial)
    (steps : List Step) :
    related (run step initial steps) (run otherStep otherInitial steps) := by
  induction steps generalizing initial otherInitial with
  | nil => exact initially
  | cons next rest inductionHypothesis =>
      exact inductionHypothesis (simulates initial otherInitial next initially)

/-- A view of the state that every step changes by a step on the view changes
along a run by the run on the view. -/
theorem run_view
    {View : Type w}
    {step : State -> Step -> State}
    {viewStep : View -> Step -> View}
    (view : State -> View)
    (commutes : ∀ state next, view (step state next) = viewStep (view state) next)
    (initial : State)
    (steps : List Step) :
    view (run step initial steps) = run viewStep (view initial) steps := by
  refine @run_simulation _ _ _ step viewStep (fun state seen => view state = seen)
    ?_ initial _ rfl steps
  rintro state _ next rfl
  exact commutes state next

/-- A reflexive and transitive relation to which every step keeps relates the
start of a run with its end. -/
theorem run_related
    {step : State -> Step -> State}
    {related : State -> State -> Prop}
    (reflexive : ∀ state, related state state)
    (transitive : ∀ {first second third}, related first second ->
      related second third -> related first third)
    (stepwise : ∀ state next, related state (step state next))
    (initial : State)
    (steps : List Step) :
    related initial (run step initial steps) := by
  induction steps generalizing initial with
  | nil => exact reflexive initial
  | cons first rest inductionHypothesis =>
      exact transitive (stepwise initial first)
        (inductionHypothesis (step initial first))

/-- What a run shows: the outputs of its steps, each observed in the state
before the step. -/
def history
    (step : State -> Step -> State)
    (observe : State -> Step -> List Output) :
    State -> List Step -> List Output
  | _, [] => []
  | state, first :: rest =>
      observe state first ++ history step observe (step state first) rest

@[simp] theorem history_nil
    (step : State -> Step -> State)
    (observe : State -> Step -> List Output)
    (initial : State) :
    history step observe initial [] = [] := rfl

@[simp] theorem history_cons
    (step : State -> Step -> State)
    (observe : State -> Step -> List Output)
    (initial : State)
    (first : Step)
    (rest : List Step) :
    history step observe initial (first :: rest) =
      observe initial first ++
        history step observe (step initial first) rest := rfl

/-- A history of the steps themselves is the list of steps. -/
theorem history_steps
    (step : State -> Step -> State)
    (initial : State)
    (steps : List Step) :
    history step (fun _ next => [next]) initial steps = steps := by
  induction steps generalizing initial with
  | nil => rfl
  | cons first rest inductionHypothesis =>
      rw [history_cons, inductionHypothesis, List.singleton_append]

/-- Every step of a run is allowed in the state before it. -/
def Allowed
    (step : State -> Step -> State)
    (allowed : State -> Step -> Prop) :
    State -> List Step -> Prop
  | _, [] => True
  | state, first :: rest =>
      allowed state first ∧ Allowed step allowed (step state first) rest

@[simp] theorem allowed_nil
    (step : State -> Step -> State)
    (allowed : State -> Step -> Prop)
    (initial : State) :
    Allowed step allowed initial [] := trivial

@[simp] theorem allowed_cons
    (step : State -> Step -> State)
    (allowed : State -> Step -> Prop)
    (initial : State)
    (first : Step)
    (rest : List Step) :
    Allowed step allowed initial (first :: rest) ↔
      allowed initial first ∧
        Allowed step allowed (step initial first) rest := Iff.rfl

theorem allowed_append
    (step : State -> Step -> State)
    (allowed : State -> Step -> Prop)
    (initial : State)
    (earlier later : List Step) :
    Allowed step allowed initial (earlier ++ later) ↔
      Allowed step allowed initial earlier ∧
        Allowed step allowed (run step initial earlier) later := by
  induction earlier generalizing initial with
  | nil => simp
  | cons first rest inductionHypothesis =>
      rw [List.cons_append, allowed_cons, allowed_cons, run_cons,
        inductionHypothesis, and_assoc]

/-- A run is allowed exactly when every step is, wherever the run is split. -/
theorem allowed_iff_forall_split
    (step : State -> Step -> State)
    (allowed : State -> Step -> Prop)
    (initial : State)
    (steps : List Step) :
    Allowed step allowed initial steps ↔
      ∀ earlier next later, steps = earlier ++ next :: later ->
        allowed (run step initial earlier) next := by
  constructor
  · rintro allowedRun earlier next later rfl
    exact ((allowed_append _ _ _ _ _).mp allowedRun).2.1
  · intro everywhere
    induction steps generalizing initial with
    | nil => trivial
    | cons first rest inductionHypothesis =>
        refine ⟨everywhere [] first rest rfl, ?_⟩
        apply inductionHypothesis
        rintro earlier next later rfl
        exact everywhere (first :: earlier) next later rfl

/-- A condition on the steps alone holds along every run. -/
theorem allowed_of_forall
    {step : State -> Step -> State}
    {allowed : State -> Step -> Prop}
    {steps : List Step}
    (everywhere : ∀ state, ∀ first ∈ steps, allowed state first)
    (initial : State) :
    Allowed step allowed initial steps := by
  induction steps generalizing initial with
  | nil => trivial
  | cons first rest inductionHypothesis =>
      refine ⟨everywhere initial first List.mem_cons_self, ?_⟩
      apply inductionHypothesis
      intro state other member
      exact everywhere state other (List.mem_cons_of_mem first member)

/-- A condition on the steps alone is one on every step. -/
theorem allowed_iff_forall_mem
    {step : State -> Step -> State}
    {allowed : Step -> Prop}
    {initial : State}
    {steps : List Step} :
    Allowed step (fun _ next => allowed next) initial steps ↔
      ∀ next ∈ steps, allowed next := by
  induction steps generalizing initial with
  | nil => simp
  | cons first rest inductionHypothesis =>
      rw [allowed_cons, inductionHypothesis, List.forall_mem_cons]

/-- Conditions that agree on every single step allow the same runs. -/
theorem allowed_congr
    {step : State -> Step -> State}
    {first second : State -> Step -> Prop}
    (agree : ∀ state next, first state next ↔ second state next)
    (initial : State)
    (steps : List Step) :
    Allowed step first initial steps ↔ Allowed step second initial steps := by
  induction steps generalizing initial with
  | nil => exact Iff.rfl
  | cons next rest inductionHypothesis =>
      rw [allowed_cons, allowed_cons, agree, inductionHypothesis]

/-- An invariant of the state and the history so far, preserved by every
allowed step, holds at the end of every allowed run. -/
theorem run_history_invariant
    {step : State -> Step -> State}
    {observe : State -> Step -> List Output}
    {allowed : State -> Step -> Prop}
    (Invariant : State -> List Output -> Prop)
    (preserved : ∀ state past next, allowed state next ->
      Invariant state past ->
      Invariant (step state next) (past ++ observe state next))
    {initial : State}
    (initially : Invariant initial [])
    {steps : List Step}
    (allowedRun : Allowed step allowed initial steps) :
    Invariant (run step initial steps)
      (history step observe initial steps) := by
  -- the past grows by the outputs of the steps already taken
  have continued : ∀ past, Invariant initial past ->
      Invariant (run step initial steps)
        (past ++ history step observe initial steps) := by
    clear initially
    induction steps generalizing initial with
    | nil =>
        intro past holds
        simpa using holds
    | cons first rest inductionHypothesis =>
        intro past holds
        obtain ⟨firstAllowed, restAllowed⟩ := allowedRun
        rw [history_cons, ← List.append_assoc, run_cons]
        apply inductionHypothesis restAllowed
        exact preserved initial past first firstAllowed holds
  exact continued [] initially

/-- An invariant that every allowed step preserves holds at the end of every
allowed run. -/
theorem run_invariant
    {step : State -> Step -> State}
    {allowed : State -> Step -> Prop}
    (Invariant : State -> Prop)
    (preserved : ∀ state next, allowed state next -> Invariant state ->
      Invariant (step state next))
    {initial : State}
    (initially : Invariant initial)
    {steps : List Step}
    (allowedRun : Allowed step allowed initial steps) :
    Invariant (run step initial steps) :=
  @run_history_invariant State Step Unit step (fun _ _ => []) allowed
    (fun state _ => Invariant state)
    (fun state _ next nextAllowed holds =>
      preserved state next nextAllowed holds)
    initial initially steps allowedRun

/-- An invariant that every step preserves holds at the end of every run. -/
theorem run_invariant_of_preserved
    {step : State -> Step -> State}
    (Invariant : State -> Prop)
    (preserved : ∀ state next, Invariant state -> Invariant (step state next))
    {initial : State}
    (initially : Invariant initial)
    (steps : List Step) :
    Invariant (run step initial steps) := by
  have allowedRun : Allowed step (fun _ _ => True) initial steps :=
    allowed_of_forall (fun _ _ _ => trivial) initial
  exact run_invariant Invariant (fun state next _ => preserved state next)
    initially allowedRun

/-- A property that a step reaches exactly from states with the property, and only
by allowed steps, holds at the end of exactly the allowed runs. -/
theorem run_invariant_iff
    {step : State -> Step -> State}
    {allowed : State -> Step -> Prop}
    (Invariant : State -> Prop)
    (stepwise : ∀ state next,
      Invariant (step state next) ↔ Invariant state ∧ allowed state next)
    {initial : State}
    (initially : Invariant initial)
    (steps : List Step) :
    Invariant (run step initial steps) ↔
      Allowed step allowed initial steps := by
  have relative : Invariant (run step initial steps) ↔
      Invariant initial ∧ Allowed step allowed initial steps := by
    clear initially
    induction steps generalizing initial with
    | nil => simp
    | cons first rest inductionHypothesis =>
        rw [run_cons, inductionHypothesis, stepwise, allowed_cons, and_assoc]
  rw [relative]
  exact and_iff_right initially

/-- A condition holds in every state of a run, the first and the last
included. -/
def Throughout
    (step : State -> Step -> State)
    (condition : State -> Prop) :
    State -> List Step -> Prop
  | state, [] => condition state
  | state, first :: rest =>
      condition state ∧ Throughout step condition (step state first) rest

@[simp] theorem throughout_nil
    (step : State -> Step -> State)
    (condition : State -> Prop)
    (initial : State) :
    Throughout step condition initial [] ↔ condition initial := Iff.rfl

@[simp] theorem throughout_cons
    (step : State -> Step -> State)
    (condition : State -> Prop)
    (initial : State)
    (first : Step)
    (rest : List Step) :
    Throughout step condition initial (first :: rest) ↔
      condition initial ∧ Throughout step condition (step initial first) rest :=
  Iff.rfl

theorem Throughout.initially
    {step : State -> Step -> State}
    {condition : State -> Prop}
    {initial : State}
    {steps : List Step}
    (holds : Throughout step condition initial steps) :
    condition initial := by
  cases steps with
  | nil => exact holds
  | cons first rest => exact holds.1

/-- Throughout a run means after every part of it. -/
theorem throughout_iff_forall_split
    (step : State -> Step -> State)
    (condition : State -> Prop)
    (initial : State)
    (steps : List Step) :
    Throughout step condition initial steps ↔
      ∀ earlier later, steps = earlier ++ later ->
        condition (run step initial earlier) := by
  induction steps generalizing initial with
  | nil =>
      constructor
      · intro holds earlier later none
        obtain ⟨rfl, rfl⟩ := List.append_eq_nil_iff.mp none.symm
        exact holds
      · intro everywhere
        exact everywhere [] [] rfl
  | cons first rest inductionHypothesis =>
      rw [throughout_cons, inductionHypothesis]
      constructor
      · rintro ⟨initially, afterwards⟩ earlier later split
        cases earlier with
        | nil => exact initially
        | cons next between =>
            obtain ⟨rfl, splitRest⟩ := List.cons_eq_cons.mp split
            exact afterwards between later splitRest
      · intro everywhere
        refine ⟨everywhere [] (first :: rest) rfl, ?_⟩
        rintro earlier later rfl
        exact everywhere (first :: earlier) later rfl

/-- A condition that a step keeps exactly when it is allowed holds throughout
exactly the allowed runs. -/
theorem throughout_iff_allowed
    {step : State -> Step -> State}
    {allowed : State -> Step -> Prop}
    {condition : State -> Prop}
    (stepwise : ∀ state next, condition state ->
      (condition (step state next) ↔ allowed state next))
    {initial : State}
    (initially : condition initial)
    (steps : List Step) :
    Throughout step condition initial steps ↔
      Allowed step allowed initial steps := by
  induction steps generalizing initial with
  | nil => exact iff_of_true initially trivial
  | cons first rest inductionHypothesis =>
      rw [throughout_cons, allowed_cons, and_iff_right initially,
        ← stepwise initial first initially]
      constructor
      · intro afterwards
        have next := afterwards.initially
        exact ⟨next, (inductionHypothesis next).mp afterwards⟩
      · rintro ⟨next, afterwards⟩
        exact (inductionHypothesis next).mpr afterwards

/-- A condition that holds throughout, with an effect that every step has, is kept by
exactly the allowed runs. -/
theorem throughout_and_allowed_iff
    {step : State -> Step -> State}
    {effect allowed : State -> Step -> Prop}
    {condition : State -> Prop}
    (stepwise : ∀ state next, condition state ->
      (condition (step state next) ∧ effect state next ↔ allowed state next))
    {initial : State}
    (initially : condition initial)
    (steps : List Step) :
    Throughout step condition initial steps ∧
        Allowed step effect initial steps ↔
      Allowed step allowed initial steps := by
  induction steps generalizing initial with
  | nil => exact iff_of_true ⟨initially, trivial⟩ trivial
  | cons first rest inductionHypothesis =>
      rw [throughout_cons, allowed_cons, allowed_cons, and_iff_right initially,
        ← stepwise initial first initially]
      constructor
      · rintro ⟨afterwards, hasEffect, effects⟩
        have next := afterwards.initially
        exact ⟨⟨next, hasEffect⟩,
          (inductionHypothesis next).mp ⟨afterwards, effects⟩⟩
      · rintro ⟨⟨next, hasEffect⟩, allowedRest⟩
        obtain ⟨afterwards, effects⟩ := (inductionHypothesis next).mpr allowedRest
        exact ⟨afterwards, hasEffect, effects⟩

/-- A step of a run with one more step is one of the run before, or the last. -/
theorem exists_split_concat_iff
    {steps : List Step}
    {last decision : Step}
    {condition : List Step -> List Step -> Prop} :
    (∃ earlier later, steps ++ [last] = earlier ++ decision :: later ∧
        condition earlier later) ↔
      (∃ earlier later, steps = earlier ++ decision :: later ∧
        condition earlier (later ++ [last])) ∨
      last = decision ∧ condition steps [] := by
  constructor
  · rintro ⟨earlier, later, split, holds⟩
    rcases List.eq_nil_or_concat later with rfl | ⟨between, final, rfl⟩
    · obtain ⟨rfl, same⟩ := List.append_inj' split rfl
      exact .inr ⟨List.singleton_inj.mp same, holds⟩
    · rw [List.concat_eq_append] at split holds
      rw [← List.cons_append, ← List.append_assoc] at split
      obtain ⟨rfl, same⟩ := List.append_inj' split rfl
      rw [← List.singleton_inj.mp same] at holds
      exact .inl ⟨earlier, between, rfl, holds⟩
  · rintro (⟨earlier, later, rfl, holds⟩ | ⟨rfl, holds⟩)
    · exact ⟨earlier, later ++ [last], by simp, holds⟩
    · exact ⟨steps, [], rfl, holds⟩

/-! ## What only some steps change -/

section Decisions

variable
  {step : State -> Step -> State}
  {decides : Step -> Prop}
  {flag : State -> Output}
  (keeps : ∀ state next, ¬decides next -> flag (step state next) = flag state)

include keeps

/-- Steps that do not decide keep the flag. -/
theorem run_keeps
    {steps : List Step}
    (undecided : ∀ next ∈ steps, ¬decides next)
    (initial : State) :
    flag (run step initial steps) = flag initial := by
  induction steps generalizing initial with
  | nil => rfl
  | cons first rest inductionHypothesis =>
      obtain ⟨firstUndecided, restUndecided⟩ := List.forall_mem_cons.mp undecided
      rw [run_cons, inductionHypothesis restUndecided, keeps _ _ firstUndecided]

/-- At the end of a run the flag is the one of the start, or the one that the last
deciding step left. -/
theorem exists_last_decision
    (initial : State)
    (steps : List Step) :
    flag (run step initial steps) = flag initial ∨
      ∃ earlier decision between, steps = earlier ++ decision :: between ∧
        decides decision ∧ (∀ next ∈ between, ¬decides next) ∧
        flag (run step initial steps) =
          flag (step (run step initial earlier) decision) := by
  induction steps using List.reverseRecOn with
  | nil => exact .inl rfl
  | append_singleton steps last inductionHypothesis =>
      by_cases isDecision : decides last
      · refine .inr ⟨steps, last, [], rfl, isDecision, by simp, ?_⟩
        rw [run_append]
        rfl
      · have kept : flag (run step initial (steps ++ [last])) =
            flag (run step initial steps) := by
          rw [run_append, run_cons, run_nil, keeps _ _ isDecision]
        rw [kept]
        rcases inductionHypothesis with same | ⟨earlier, decision, between, rfl,
          isDecided, undecided, left⟩
        · exact .inl same
        · refine .inr ⟨earlier, decision, between ++ [last], by simp, isDecided,
            ?_, left⟩
          rw [List.forall_mem_append, List.forall_mem_singleton]
          exact ⟨undecided, isDecision⟩

end Decisions

/-! ## Accounting along runs -/

/-- The sum of the amounts of the steps of a run, each in the state before the
step. -/
def total
    (step : State -> Step -> State)
    (amount : State -> Step -> Nat) :
    State -> List Step -> Nat
  | _, [] => 0
  | state, first :: rest =>
      amount state first + total step amount (step state first) rest

@[simp] theorem total_nil
    (step : State -> Step -> State)
    (amount : State -> Step -> Nat)
    (initial : State) :
    total step amount initial [] = 0 := rfl

@[simp] theorem total_cons
    (step : State -> Step -> State)
    (amount : State -> Step -> Nat)
    (initial : State)
    (first : Step)
    (rest : List Step) :
    total step amount initial (first :: rest) =
      amount initial first +
        total step amount (step initial first) rest := rfl

/-- Steps without an amount sum to zero. -/
theorem total_eq_zero
    {step : State -> Step -> State}
    {allowed : State -> Step -> Prop}
    {amount : State -> Step -> Nat}
    (without : ∀ state next, allowed state next -> amount state next = 0)
    {initial : State}
    {steps : List Step}
    (allowedRun : Allowed step allowed initial steps) :
    total step amount initial steps = 0 := by
  induction steps generalizing initial with
  | nil => rfl
  | cons first rest inductionHypothesis =>
      obtain ⟨firstAllowed, restAllowed⟩ := allowedRun
      rw [total_cons, without initial first firstAllowed,
        inductionHypothesis restAllowed]

/-- A quantity that every allowed step balances is balanced along every allowed
run. -/
theorem run_total
    {step : State -> Step -> State}
    {allowed : State -> Step -> Prop}
    (quantity : State -> Nat)
    {gain loss : State -> Step -> Nat}
    (balanced : ∀ state next, allowed state next ->
      quantity (step state next) + loss state next =
        quantity state + gain state next)
    {initial : State}
    {steps : List Step}
    (allowedRun : Allowed step allowed initial steps) :
    quantity (run step initial steps) + total step loss initial steps =
      quantity initial + total step gain initial steps := by
  induction steps generalizing initial with
  | nil => rfl
  | cons first rest inductionHypothesis =>
      obtain ⟨firstAllowed, restAllowed⟩ := allowedRun
      have firstBalanced := balanced initial first firstAllowed
      have restBalanced := inductionHypothesis restAllowed
      rw [run_cons, total_cons, total_cons]
      omega

end Foundation
