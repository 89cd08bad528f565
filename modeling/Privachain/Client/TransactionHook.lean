import Privachain.Foundation.JavaScript
import Privachain.Foundation.Runs
import Privachain.Foundation.Entries

/-!
# Submitting transactions from a component

`submit` refuses to submit while a transaction is being submitted.  It reads the
flag that its closure captured when the component was rendered, and the flag is
set for later renders only.
-/

namespace Privachain
namespace Client

open Foundation
open Foundation.JavaScript

/-! ## The hook -/

/-- What a rendered `submit` captured. -/
structure SubmitClosure (TParams : Type) where
  params : Option TParams
  submitting : Bool
  deriving DecidableEq

/-- A submission: before its keys are read, before its transaction settles, or
with the value that the call returned. -/
inductive Submission (TParams Result : Type)
  | awaitingKeys (params : TParams)
  | awaitingTransaction
  | completed (returned : Option Result)
  deriving DecidableEq

namespace Submission

variable {TParams Result : Type}

/-- The submission is neither a result nor an error yet. -/
def inFlight : Submission TParams Result -> Bool
  | .awaitingKeys _ => true
  | .awaitingTransaction => true
  | .completed _ => false

/-- The submission has not invoked `txFunction` yet, and may still do so. -/
def awaitsKeys : Submission TParams Result -> Bool
  | .awaitingKeys _ => true
  | .awaitingTransaction => false
  | .completed _ => false

end Submission

/-- The state of `useTransaction`, the closures rendered so far, the submissions
in the order of their calls, and the arguments of `txFunction`. -/
structure TransactionHook (TParams Signer Result : Type) where
  submitting : Bool := false
  result : Option Result := none
  error : Option Exception := none
  closures : List (SubmitClosure TParams) := []
  submissions : List (Submission TParams Result) := []
  invocations : List (TParams × Signer) := []
  deriving DecidableEq

/-- A render, a call of a rendered `submit`, an await that ends, or a call of
`reset`. -/
inductive TransactionStep (TParams Result : Type)
  | render (params : Option TParams)
  | submit (closure : Nat)
  | keysSettled (submission : Nat) (mnemonic : Except Exception (Option String))
  | transactionSettled (submission : Nat) (outcome : Except Exception Result)
  | reset

namespace TransactionHook

variable
  {TParams Signer Result : Type}
  (createKeyringPair : String -> Signer)
  (hook : TransactionHook TParams Signer Result)

/-- `if (!params || submitting) return null`: the parameters of the call when it
goes on. -/
def passesGuard (closure : Nat) : Option TParams :=
  match hook.closures[closure]? with
  | some ⟨some params, false⟩ => some params
  | _ => none

/-- The `catch` clause of a submission. -/
def fail (submission : Nat) (reason : Exception) :
    TransactionHook TParams Signer Result :=
  { hook with
    error := some reason
    submitting := false
    submissions := hook.submissions.set submission (.completed none) }

/-- `submit()` on a rendered closure, up to its first await. -/
def submit (closure : Nat) : TransactionHook TParams Signer Result :=
  match hook.passesGuard closure with
  | none => hook
  | some params =>
      { hook with
        submitting := true
        error := none
        result := none
        submissions := hook.submissions ++ [.awaitingKeys params] }

/-- `getWalletKeys()` settles for a submission that awaits it. -/
def keysSettled
    (submission : Nat)
    (mnemonic : Except Exception (Option String)) :
    TransactionHook TParams Signer Result :=
  match hook.submissions[submission]? with
  | some (.awaitingKeys params) =>
      match mnemonic with
      | .ok (some mnemonic) =>
          { hook with
            submissions := hook.submissions.set submission .awaitingTransaction
            invocations :=
              hook.invocations ++ [(params, createKeyringPair mnemonic)] }
      | .ok none => hook.fail submission (.error "No wallet found")
      | .error reason => hook.fail submission reason
  | _ => hook

/-- `txFunction(params, signer)` settles for a submission that awaits it. -/
def transactionSettled
    (submission : Nat)
    (outcome : Except Exception Result) :
    TransactionHook TParams Signer Result :=
  match hook.submissions[submission]? with
  | some .awaitingTransaction =>
      match outcome with
      | .ok result =>
          { hook with
            result := some result
            submitting := false
            submissions :=
              hook.submissions.set submission (.completed (some result)) }
      | .error reason => hook.fail submission reason
  | _ => hook

/-- The effect of a step. -/
def step : TransactionStep TParams Result ->
    TransactionHook TParams Signer Result
  | .render params =>
      { hook with closures := hook.closures ++ [⟨params, hook.submitting⟩] }
  | .submit closure => hook.submit closure
  | .keysSettled submission mnemonic =>
      hook.keysSettled createKeyringPair submission mnemonic
  | .transactionSettled submission outcome =>
      hook.transactionSettled submission outcome
  | .reset => { hook with submitting := false, result := none, error := none }

/-- A submission is in flight. -/
def InFlight (submission : Nat) : Prop :=
  ∃ stage, hook.submissions[submission]? = some stage ∧ stage.inFlight = true

/-- Some submission is in flight. -/
def Busy : Prop := ∃ submission, hook.InFlight submission

/-- A call returns `null` without submitting. -/
def ReturnsNull : TransactionStep TParams Result -> Prop
  | .submit closure => hook.passesGuard closure = none
  | _ => True

end TransactionHook

section Runs

variable
  {TParams Signer Result : Type}
  (createKeyringPair : String -> Signer)

/-- While a submission is in flight, `txFunction` is invoked at most once and
further calls return `null`. -/
def AtMostOneTransaction
    (steps : List (TransactionStep TParams Result)) : Prop :=
  ∀ earlier closure during later,
    steps = earlier ++ .submit closure :: (during ++ later) ->
    let start : TransactionHook TParams Signer Result :=
      run (TransactionHook.step createKeyringPair) {} earlier
    (start.passesGuard closure).isSome = true ->
    let started := start.step createKeyringPair (.submit closure)
    let reached := run (TransactionHook.step createKeyringPair) started during
    reached.InFlight start.submissions.length ->
    reached.invocations.length ≤ started.invocations.length + 1 ∧
      Allowed (TransactionHook.step createKeyringPair)
        TransactionHook.ReturnsNull started during

/-- A call that is made while a submission is in flight is made on a closure that
was rendered without parameters or while submitting. -/
def CallsRenderedClosure
    (hook : TransactionHook TParams Signer Result) :
    TransactionStep TParams Result -> Prop
  | .submit closure => hook.Busy -> ∀ captured,
      hook.closures[closure]? = some captured ->
      captured.params = none ∨ captured.submitting = true
  | _ => True

/-! ## What a step does -/

namespace TransactionHook

variable {hook : TransactionHook TParams Signer Result}

/-- The guard stops a call unless its closure captured parameters and no
submission. -/
theorem passesGuard_eq_none_iff (closure : Nat) :
    hook.passesGuard closure = none ↔
      ∀ captured, hook.closures[closure]? = some captured ->
        captured.params = none ∨ captured.submitting = true := by
  unfold passesGuard
  split
  next params isCaptured => simp [isCaptured]
  next notPassing =>
    refine iff_of_true rfl ?_
    rintro ⟨_ | params, submitting⟩ isCaptured
    · exact .inl rfl
    · cases submitting with
      | true => exact .inr rfl
      | false => exact absurd isCaptured (notPassing params)

/-- A step leaves the submissions alone, starts one, invokes `txFunction` for one
that awaits its keys, or completes one. -/
inductive Effect
    (hook after : TransactionHook TParams Signer Result)
    (next : TransactionStep TParams Result) : Prop
  | nothing
      (returnsNull : hook.ReturnsNull next)
      (submissions : after.submissions = hook.submissions)
      (invocations : after.invocations = hook.invocations)
  | starts
      (closure : Nat)
      (params : TParams)
      (isCall : next = .submit closure)
      (passes : hook.passesGuard closure = some params)
      (submissions : after.submissions = hook.submissions ++ [.awaitingKeys params])
      (invocations : after.invocations = hook.invocations)
  | invokes
      (submission : Nat)
      (params : TParams)
      (call : TParams × Signer)
      (returnsNull : hook.ReturnsNull next)
      (awaits : hook.submissions[submission]? = some (.awaitingKeys params))
      (submissions : after.submissions =
        hook.submissions.set submission .awaitingTransaction)
      (invocations : after.invocations = hook.invocations ++ [call])
  | completes
      (submission : Nat)
      (stage : Submission TParams Result)
      (returned : Option Result)
      (returnsNull : hook.ReturnsNull next)
      (awaits : hook.submissions[submission]? = some stage)
      (submissions : after.submissions =
        hook.submissions.set submission (.completed returned))
      (invocations : after.invocations = hook.invocations)

theorem effect_step (next : TransactionStep TParams Result) :
    Effect hook (hook.step createKeyringPair next) next := by
  cases next with
  | render params => exact .nothing trivial rfl rfl
  | reset => exact .nothing trivial rfl rfl
  | submit closure =>
      change Effect hook (hook.submit closure) _
      unfold submit
      split
      next passes => exact .nothing passes rfl rfl
      next params passes => exact .starts closure params rfl passes rfl rfl
  | keysSettled submission mnemonic =>
      change Effect hook (hook.keysSettled createKeyringPair submission mnemonic) _
      unfold keysSettled
      split
      next params awaits =>
        rcases mnemonic with reason | _ | mnemonic
        · exact .completes submission _ none trivial awaits rfl rfl
        · exact .completes submission _ none trivial awaits rfl rfl
        · exact .invokes submission params _ trivial awaits rfl rfl
      next => exact .nothing trivial rfl rfl
  | transactionSettled submission outcome =>
      change Effect hook (hook.transactionSettled submission outcome) _
      unfold transactionSettled
      split
      next awaits =>
        cases outcome with
        | error reason => exact .completes submission _ none trivial awaits rfl rfl
        | ok result =>
            exact .completes submission _ (some result) trivial awaits rfl rfl
      next => exact .nothing trivial rfl rfl

/-- Submissions are not forgotten. -/
theorem length_submissions_step (next : TransactionStep TParams Result) :
    hook.submissions.length ≤
      (hook.step createKeyringPair next).submissions.length := by
  cases effect_step createKeyringPair next with
  | nothing _ submissions _ => exact Nat.le_of_eq (by rw [submissions])
  | starts _ _ _ _ submissions _ =>
      rw [submissions, List.length_append]
      exact Nat.le_add_right _ _
  | invokes _ _ _ _ _ submissions _ =>
      exact Nat.le_of_eq (by rw [submissions, List.length_set])
  | completes _ _ _ _ _ submissions _ =>
      exact Nat.le_of_eq (by rw [submissions, List.length_set])

/-- What is in flight after a step was so before, or is started by the step. -/
theorem inFlight_of_step
    {next : TransactionStep TParams Result}
    {submission : Nat}
    (inFlight : (hook.step createKeyringPair next).InFlight submission) :
    hook.InFlight submission ∨
      submission = hook.submissions.length ∧
        ∃ closure, next = .submit closure ∧
          (hook.passesGuard closure).isSome = true := by
  obtain ⟨stage, isStage, stageInFlight⟩ := inFlight
  cases effect_step createKeyringPair next with
  | nothing _ submissions _ =>
      rw [submissions] at isStage
      exact .inl ⟨stage, isStage, stageInFlight⟩
  | starts closure params isCall passes submissions _ =>
      rw [submissions, getElem?_concat_eq_some_iff] at isStage
      rcases isStage with earlier | ⟨same, -⟩
      · exact .inl ⟨stage, earlier, stageInFlight⟩
      · exact .inr ⟨same, closure, isCall, by rw [passes]; rfl⟩
  | invokes other params _ _ awaits submissions _ =>
      rw [submissions, getElem?_set_eq_some_iff awaits] at isStage
      rcases isStage with ⟨rfl, -⟩ | ⟨-, wasStage⟩
      · exact .inl ⟨_, awaits, rfl⟩
      · exact .inl ⟨stage, wasStage, stageInFlight⟩
  | completes other _ returned _ awaits submissions _ =>
      rw [submissions, getElem?_set_eq_some_iff awaits] at isStage
      rcases isStage with ⟨-, rfl⟩ | ⟨-, wasStage⟩
      · cases stageInFlight
      · exact .inl ⟨stage, wasStage, stageInFlight⟩

/-- A call completes nothing. -/
theorem inFlight_submit
    {submission : Nat}
    (inFlight : hook.InFlight submission)
    (closure : Nat) :
    (hook.step createKeyringPair (.submit closure)).InFlight submission := by
  obtain ⟨stage, isStage, stageInFlight⟩ := inFlight
  refine ⟨stage, ?_, stageInFlight⟩
  change (hook.submit closure).submissions[submission]? = some stage
  unfold submit
  split
  · exact isStage
  · exact (getElem?_concat_eq_some_iff _ _ _).mpr (.inl isStage)

/-! ## Counting submissions -/

/-- The number of submissions that may still invoke `txFunction`. -/
def awaitingCount (hook : TransactionHook TParams Signer Result) : Nat :=
  hook.submissions.countP Submission.awaitsKeys

theorem awaitingCount_of_not_busy (idle : ¬hook.Busy) : hook.awaitingCount = 0 := by
  rw [awaitingCount, List.countP_eq_zero]
  intro stage member awaits
  obtain ⟨submission, isStage⟩ := List.mem_iff_getElem?.mp member
  cases stage with
  | awaitingKeys params => exact idle ⟨submission, _, isStage, rfl⟩
  | awaitingTransaction => cases awaits
  | completed returned => cases awaits

/-- A call that passes the guard starts a submission. -/
theorem submissions_submit
    {closure : Nat}
    {params : TParams}
    (passes : hook.passesGuard closure = some params) :
    (hook.step createKeyringPair (.submit closure)).submissions =
      hook.submissions ++ [.awaitingKeys params] := by
  change (hook.submit closure).submissions = _
  rw [submit, passes]

/-- **Step.**  Without a new submission, `txFunction` is invoked only for one that
awaits its keys. -/
theorem invocations_step
    {next : TransactionStep TParams Result}
    (returnsNull : hook.ReturnsNull next) :
    (hook.step createKeyringPair next).invocations.length +
        (hook.step createKeyringPair next).awaitingCount ≤
      hook.invocations.length + hook.awaitingCount := by
  unfold awaitingCount
  cases effect_step createKeyringPair next with
  | nothing _ submissions invocations =>
      exact Nat.le_of_eq (by rw [submissions, invocations])
  | starts closure params isCall passes _ _ =>
      rw [isCall, ReturnsNull, passes] at returnsNull
      cases returnsNull
  | invokes submission params _ _ awaits submissions invocations =>
      obtain ⟨isIndex, isStage⟩ := List.getElem?_eq_some_iff.mp awaits
      have counted : 0 < hook.submissions.countP Submission.awaitsKeys :=
        List.countP_pos_iff.mpr ⟨_, List.mem_of_getElem? awaits, rfl⟩
      rw [submissions, invocations, List.countP_set isIndex, isStage,
        List.length_append]
      simp only [Submission.awaitsKeys, if_true, Bool.false_eq_true, if_false,
        List.length_singleton]
      omega
  | completes submission stage _ _ awaits submissions invocations =>
      obtain ⟨isIndex, isStage⟩ := List.getElem?_eq_some_iff.mp awaits
      rw [submissions, invocations, List.countP_set isIndex]
      simp only [Submission.awaitsKeys, Bool.false_eq_true, if_false]
      omega

/-! ## What a run does -/

/-- What is in flight after a run, and was there before it, was in flight. -/
theorem inFlight_of_run
    {steps : List (TransactionStep TParams Result)}
    {submission : Nat}
    (started : submission < hook.submissions.length)
    (inFlight : (run (step createKeyringPair) hook steps).InFlight submission) :
    hook.InFlight submission := by
  induction steps generalizing hook with
  | nil => exact inFlight
  | cons first rest inductionHypothesis =>
      have longer := @length_submissions_step _ _ _ createKeyringPair hook first
      have afterFirst := inductionHypothesis (Nat.lt_of_lt_of_le started longer)
        inFlight
      rcases inFlight_of_step createKeyringPair afterFirst with before | ⟨same, _⟩
      · exact before
      · omega

/-- What is in flight after a run was started by one of its calls. -/
theorem exists_start
    {steps : List (TransactionStep TParams Result)}
    {submission : Nat}
    (inFlight : (run (step createKeyringPair)
      ({} : TransactionHook TParams Signer Result) steps).InFlight submission) :
    ∃ earlier closure during, steps = earlier ++ .submit closure :: during ∧
      ((run (step createKeyringPair) ({} : TransactionHook TParams Signer Result)
        earlier).passesGuard closure).isSome = true ∧
      submission = (run (step createKeyringPair)
        ({} : TransactionHook TParams Signer Result) earlier).submissions.length := by
  induction steps using List.reverseRecOn with
  | nil =>
      obtain ⟨stage, isStage, _⟩ := inFlight
      cases isStage
  | append_singleton steps last inductionHypothesis =>
      rw [run_append] at inFlight
      rcases inFlight_of_step createKeyringPair inFlight with
        before | ⟨same, closure, rfl, passes⟩
      · obtain ⟨earlier, closure, during, rfl, passes, same⟩ :=
          inductionHypothesis before
        exact ⟨earlier, closure, during ++ [last], by simp, passes, same⟩
      · exact ⟨steps, closure, [], rfl, passes, same⟩

/-- While a submission stays in flight, calls that are guarded return `null`. -/
theorem allowed_returnsNull
    {steps : List (TransactionStep TParams Result)}
    {submission : Nat}
    (guarded : Allowed (step createKeyringPair)
      (fun hook next => hook.Busy -> hook.ReturnsNull next) hook steps)
    (started : submission < hook.submissions.length)
    (inFlight : (run (step createKeyringPair) hook steps).InFlight submission) :
    Allowed (step createKeyringPair) ReturnsNull hook steps := by
  induction steps generalizing hook with
  | nil => trivial
  | cons first rest inductionHypothesis =>
      have busy : hook.Busy :=
        ⟨submission, inFlight_of_run createKeyringPair started inFlight⟩
      have longer := @length_submissions_step _ _ _ createKeyringPair hook first
      exact ⟨guarded.1 busy, inductionHypothesis guarded.2
        (Nat.lt_of_lt_of_le started longer) inFlight⟩

/-- **Run.**  Without new submissions, `txFunction` is invoked at most for those
that await their keys. -/
theorem invocations_run
    {steps : List (TransactionStep TParams Result)}
    (returnNull : Allowed (step createKeyringPair) ReturnsNull hook steps) :
    (run (step createKeyringPair) hook steps).invocations.length ≤
      hook.invocations.length + hook.awaitingCount := by
  induction steps generalizing hook with
  | nil => exact Nat.le_add_right _ _
  | cons first rest inductionHypothesis =>
      have afterFirst := invocations_step createKeyringPair returnNull.1
      have afterRest := inductionHypothesis returnNull.2
      rw [run_cons]
      omega

end TransactionHook

/-! ## When there is at most one transaction -/

open TransactionHook

theorem callsRenderedClosure_iff
    (hook : TransactionHook TParams Signer Result)
    (next : TransactionStep TParams Result) :
    CallsRenderedClosure hook next ↔ (hook.Busy -> hook.ReturnsNull next) := by
  cases next with
  | submit closure =>
      rw [CallsRenderedClosure, ReturnsNull, passesGuard_eq_none_iff]
  | _ => exact iff_of_true trivial fun _ => trivial

/-- A submission that starts while none is in flight invokes `txFunction` at most
once when the calls during it are guarded. -/
theorem invocations_during
    {hook : TransactionHook TParams Signer Result}
    {closure : Nat}
    (passes : (hook.passesGuard closure).isSome = true)
    (idle : ¬hook.Busy)
    {during : List (TransactionStep TParams Result)}
    (returnNull : Allowed (TransactionHook.step createKeyringPair) ReturnsNull
      (hook.step createKeyringPair (.submit closure)) during) :
    (run (TransactionHook.step createKeyringPair)
        (hook.step createKeyringPair (.submit closure))
        during).invocations.length ≤
      (hook.step createKeyringPair (.submit closure)).invocations.length + 1 := by
  obtain ⟨params, isPassing⟩ := Option.isSome_iff_exists.mp passes
  have awaiting :
      (hook.step createKeyringPair (.submit closure)).awaitingCount = 1 := by
    rw [awaitingCount, submissions_submit createKeyringPair isPassing,
      List.countP_append, ← awaitingCount, awaitingCount_of_not_busy idle]
    rfl
  have invoked := invocations_run createKeyringPair returnNull
  rw [awaiting] at invoked
  exact invoked

/-- Where there is at most one transaction, calls are guarded while a submission is
in flight. -/
theorem AtMostOneTransaction.guarded
    {steps : List (TransactionStep TParams Result)}
    (atMostOne : AtMostOneTransaction createKeyringPair steps) :
    Allowed (TransactionHook.step createKeyringPair)
      (fun hook next => hook.Busy -> hook.ReturnsNull next) {} steps := by
  rw [allowed_iff_forall_split]
  rintro before (_ | closure | _ | _ | _) later rfl busy
  · trivial
  · obtain ⟨submission, inFlight⟩ := busy
    obtain ⟨earlier, opening, during, rfl, passes, rfl⟩ :=
      exists_start createKeyringPair inFlight
    rw [run_append, run_cons] at inFlight ⊢
    have window := atMostOne earlier opening (during ++ [.submit closure]) later
      (by simp) passes
    have returnNull := (window (by
      rw [run_append]
      exact inFlight_submit createKeyringPair inFlight closure)).2
    rw [allowed_append] at returnNull
    exact returnNull.2.1
  · trivial
  · trivial
  · trivial

/-- **One transaction per submission.**  In a run of the hook there is at most one
transaction while a submission is in flight exactly when no call is made then on a
closure rendered before. -/
theorem atMostOneTransaction_iff
    (steps : List (TransactionStep TParams Result)) :
    AtMostOneTransaction createKeyringPair steps ↔
      Allowed (TransactionHook.step createKeyringPair) CallsRenderedClosure {}
        steps := by
  rw [allowed_congr callsRenderedClosure_iff]
  constructor
  · exact AtMostOneTransaction.guarded createKeyringPair
  · rintro guarded earlier closure during later rfl start passes started reached
      inFlight
    rw [allowed_append, allowed_cons, allowed_append] at guarded
    obtain ⟨_, atCall, duringCall, _⟩ := guarded
    obtain ⟨params, isPassing⟩ := Option.isSome_iff_exists.mp passes
    have idle : ¬start.Busy := by
      intro busy
      have stopped : start.passesGuard closure = none := atCall busy
      rw [isPassing] at stopped
      cases stopped
    have startedLater : start.submissions.length < started.submissions.length := by
      rw [submissions_submit createKeyringPair isPassing, List.length_append]
      exact Nat.lt_succ_self _
    have returnNull :=
      allowed_returnsNull createKeyringPair duringCall startedLater inFlight
    exact ⟨invocations_during createKeyringPair passes idle returnNull, returnNull⟩

end Runs

/-! ## Two transactions -/

/-- A component that is rendered once and whose button is pressed twice. -/
def pressedTwice : List (TransactionStep String String) :=
  [.render (some "deposit"), .submit 0, .submit 0,
    .keysSettled 0 (.ok (some "seed")), .keysSettled 1 (.ok (some "seed"))]

/-- Both calls of the rendered closure invoke `txFunction` before either
transaction settles. -/
theorem pressedTwice_invokes_twice : ¬AtMostOneTransaction id pressedTwice := by
  intro atMostOne
  have window := atMostOne [.render (some "deposit")] 0
    [.submit 0, .keysSettled 0 (.ok (some "seed")),
      .keysSettled 1 (.ok (some "seed"))] [] rfl rfl
  have invoked := (window ⟨.awaitingTransaction, rfl, rfl⟩).1
  revert invoked
  decide

end Client
end Privachain
