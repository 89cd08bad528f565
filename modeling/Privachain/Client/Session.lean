import Privachain.Client.AutoLock
import Privachain.Client.BalanceRefresh
import Privachain.Client.Lock

/-!
# The lock during a session

The wallet context asks `shouldLock` when it is initialized.  While it is open it
refreshes its data periodically; nothing but the user locks it again.
-/

namespace Privachain
namespace Client

open Foundation
open Foundation.JavaScript
open Foundation.StatefulCall
open Foundation.StoredItem
open DatabaseTexts

/-! ## Sessions -/

/-- Settings that enable the automatic lock, with a timeout of some minutes. -/
structure AutoLockSettings where
  settings : Option String
  minutes : ℚ
  enabled : (propertyOf (getSettings (.ok settings)) "autoLock").truthy = true
  timeout : numericValue
    (propertyOf (getSettings (.ok settings)) "autoLockTimeout") =
      some (.finite minutes)

/-- The wallet context with its screen and stores, the time, and the time of the
last successful authentication. -/
structure Session where
  lock : LockState
  balances : BalanceState := {}
  transactions : Value := .array []
  connected : Bool := false
  now : Int
  lastSuccess : Option Int := none

/-- What an initialization meets: the address that `getWalletKeys` finds, and how
the stores answer the reads of `shouldLock`. -/
structure InitializeAnswers where
  getWalletKeys : Except Exception (Option String)
  settings : Access := {}
  lastAuth : Access := {}

/-- The steps of a session. -/
inductive SessionStep
  | initializeWallet (answers : InitializeAnswers)
  | lock
  | biometric (device : LocalAuthentication) (failure : Option Exception)
  | pin (mode : AuthMode) (entered : String)
      (readPin readPinSalt failure : Option Exception)
  | connection (connected : Bool)
  | refreshTick (answers : RefreshAnswers)
      (transactions : Except Exception (Option String))
  | elapse (milliseconds : Nat)

namespace Session

/-- The state in which the application starts. -/
def start
    (secureStore : SecureStore)
    (balances : BalanceState)
    (now : Int)
    (lastSuccess : Option Int) : Session where
  lock := .start secureStore
  balances := balances
  now := now
  lastSuccess := lastSuccess

/-- What `shouldLock` reads during an initialization. -/
def lockReads
    (session : Session)
    (autoLock : AutoLockSettings)
    (answers : InitializeAnswers) : LockReads where
  settings := answers.settings.read autoLock.settings
  lastAuth := answers.lastAuth.read session.lock.secureStore.lastAuth
  dateNow := session.now

/-- The interval of the effect runs. -/
def refreshing (session : Session) : Bool :=
  session.lock.context.isAuthenticated && session.connected

/-- The function of the interval: `refreshBalances()` and
`refreshTransactions()`. -/
def refreshTick
    (session : Session)
    (answers : RefreshAnswers)
    (transactions : Except Exception (Option String)) : Session :=
  if session.refreshing then
    { session with
      balances := stateAfter
        (refreshBalances
          { answers with
            connected := session.connected
            address := session.lock.context.address })
        session.balances
      transactions := DatabaseTexts.getTransactions transactions }
  else session

/-- The result of an authentication is noted when it is a success. -/
def noteSuccess
    (session : Session)
    (outcome : EStateM.Result Exception SecureStore AuthResult) : Option Int :=
  match outcome with
  | .ok result _ => if result.success then some session.now else session.lastSuccess
  | .error _ _ => session.lastSuccess

/-- The effect of a step. -/
def step (autoLock : AutoLockSettings) (session : Session) :
    SessionStep -> Session
  | .initializeWallet answers =>
      { session with
        lock := { session.lock with
          context := session.lock.context.initializeWallet answers.getWalletKeys
            (shouldLock (session.lockReads autoLock answers)) } }
  | .lock =>
      { session with
        lock := { session.lock with context := session.lock.context.lock } }
  | .biometric device failure =>
      let write : LastAuthWrite := { dateNow := session.now, failure := failure }
      { session with
        lock := session.lock.handleBiometric device write
        lastSuccess := session.noteSuccess
          (authenticateWithBiometrics device write session.lock.secureStore) }
  | .pin mode entered readPin readPinSalt failure =>
      let access : PinAccess :=
        { readPin := readPin
          readPinSalt := readPinSalt
          lastAuthWrite := { dateNow := session.now, failure := failure } }
      { session with
        lock := session.lock.handlePinComplete mode entered access
        lastSuccess :=
          match mode with
          | .unlock => session.noteSuccess
              (verifyPin entered access session.lock.secureStore)
          | .setup => session.lastSuccess }
  | .connection connected => { session with connected := connected }
  | .refreshTick answers transactions => session.refreshTick answers transactions
  | .elapse milliseconds => { session with now := session.now + milliseconds }

/-- `isLocked` -/
def isLocked (session : Session) : Bool := session.lock.context.isLocked

/-- No more than the timeout has passed since the last successful
authentication. -/
def Fresh (autoLock : AutoLockSettings) (session : Session) : Prop :=
  ∃ time, session.lastSuccess = some time ∧
    ((session.now - time : Int) : ℚ) ≤ autoLock.minutes * 60000

end Session

/-! ## The automatic lock -/

/-- After every refresh the wallet is locked or freshly authenticated. -/
def AutoLockEnforced
    (autoLock : AutoLockSettings)
    (initial : Session)
    (steps : List SessionStep) : Prop :=
  ∀ earlier answers transactions later,
    steps = earlier ++ .refreshTick answers transactions :: later ->
    (run (Session.step autoLock) initial earlier).refreshing = true ->
    let after := run (Session.step autoLock) initial
      (earlier ++ [.refreshTick answers transactions])
    after.isLocked = false -> after.Fresh autoLock

namespace SessionStep

/-- The steps that set the lock: an initialization does so unless the keys cannot
be read. -/
def SetsLock : SessionStep -> Prop
  | .initializeWallet answers => ∃ keys, answers.getWalletKeys = .ok keys
  | .lock => True
  | .biometric _ _ => True
  | .pin _ _ _ _ _ => True
  | .connection _ => False
  | .refreshTick _ _ => False
  | .elapse _ => False

/-- The time that passes in a step. -/
def milliseconds : SessionStep -> Nat
  | .elapse milliseconds => milliseconds
  | _ => 0

end SessionStep

/-- The time that passes in some steps. -/
def duration : List SessionStep -> Nat
  | [] => 0
  | next :: rest => next.milliseconds + duration rest

/-- When a step has opened the wallet and no later one sets the lock, a refresh
comes before the timeout since the last successful authentication has passed. -/
def LockedInTime
    (autoLock : AutoLockSettings)
    (initial : Session)
    (steps : List SessionStep) : Prop :=
  ∀ earlier opening between answers transactions later,
    steps = earlier ++ opening ::
      (between ++ .refreshTick answers transactions :: later) ->
    opening.SetsLock -> (∀ next ∈ between, ¬next.SetsLock) ->
    let opened := run (Session.step autoLock) initial (earlier ++ [opening])
    opened.isLocked = false ->
    (run (Session.step autoLock) opened between).connected = true ->
    ∃ time, opened.lastSuccess = some time ∧
      ((opened.now + duration between - time : Int) : ℚ) ≤
        autoLock.minutes * 60000

/-! ## What a step changes -/

/-- A refresh changes neither the lock nor the time. -/
theorem Session.refreshTick_lock
    (session : Session)
    (answers : RefreshAnswers)
    (transactions : Except Exception (Option String)) :
    (session.refreshTick answers transactions).lock = session.lock ∧
      (session.refreshTick answers transactions).now = session.now ∧
      (session.refreshTick answers transactions).lastSuccess =
        session.lastSuccess := by
  unfold refreshTick
  split
  · exact ⟨rfl, rfl, rfl⟩
  · exact ⟨rfl, rfl, rfl⟩

section Steps

variable
  (autoLock : AutoLockSettings)
  (session : Session)

/-- A step takes its time. -/
theorem Session.step_now (next : SessionStep) :
    (session.step autoLock next).now = session.now + next.milliseconds := by
  cases next with
  | refreshTick answers transactions =>
      rw [step, (session.refreshTick_lock answers transactions).2.1]
      exact (Int.add_zero _).symm
  | elapse milliseconds => rfl
  | _ => exact (Int.add_zero _).symm

/-- Only the steps that set the lock change it. -/
theorem Session.step_isLocked
    (next : SessionStep)
    (keeps : ¬next.SetsLock) :
    (session.step autoLock next).isLocked = session.isLocked := by
  cases next with
  | initializeWallet answers =>
      obtain ⟨getWalletKeys, settings, lastAuth⟩ := answers
      cases getWalletKeys with
      | ok keys => exact absurd ⟨keys, rfl⟩ keeps
      | error reason => rfl
  | refreshTick answers transactions =>
      rw [step, isLocked, (session.refreshTick_lock answers transactions).1]
      rfl
  | connection connected => rfl
  | elapse milliseconds => rfl
  | _ => exact absurd trivial keeps

/-- The other steps note no success. -/
theorem Session.step_lastSuccess
    (next : SessionStep)
    (keeps : ¬next.SetsLock) :
    (session.step autoLock next).lastSuccess = session.lastSuccess := by
  cases next with
  | initializeWallet answers => rfl
  | refreshTick answers transactions =>
      rw [step, (session.refreshTick_lock answers transactions).2.2]
  | connection connected => rfl
  | elapse milliseconds => rfl
  | _ => exact absurd trivial keeps

/-- An open wallet is authenticated, and only an open one. -/
def Session.Consistent (session : Session) : Prop :=
  session.lock.context.isAuthenticated = !session.isLocked

/-- **Step.**  The two flags stay opposite. -/
theorem Session.Consistent.step
    {session : Session}
    (consistent : session.Consistent)
    (next : SessionStep) :
    (session.step autoLock next).Consistent := by
  unfold Session.Consistent Session.isLocked at consistent ⊢
  cases next with
  | initializeWallet answers =>
      obtain ⟨getWalletKeys, settings, lastAuth⟩ := answers
      rcases getWalletKeys with reason | _ | address
      · exact consistent
      · rfl
      · rfl
  | lock => rfl
  | biometric device failure =>
      simp only [Session.step, LockState.handleBiometric_context]
      rfl
  | pin mode entered readPin readPinSalt failure =>
      simp only [Session.step, LockState.handlePinComplete_context]
      rfl
  | refreshTick answers transactions =>
      rw [Session.step, (session.refreshTick_lock answers transactions).1]
      exact consistent
  | connection connected => exact consistent
  | elapse milliseconds => exact consistent

end Steps

/-- An open wallet refreshes while it is connected. -/
theorem Session.Consistent.refreshing
    {session : Session}
    (consistent : session.Consistent)
    (isOpen : session.isLocked = false)
    (connected : session.connected = true) :
    session.refreshing = true := by
  rw [Session.refreshing, consistent, isOpen, connected]
  rfl

/-- The time after a run. -/
theorem Session.run_now
    (autoLock : AutoLockSettings)
    (session : Session)
    (steps : List SessionStep) :
    (run (Session.step autoLock) session steps).now =
      session.now + duration steps := by
  induction steps generalizing session with
  | nil => exact (Int.add_zero _).symm
  | cons first rest inductionHypothesis =>
      rw [run_cons, inductionHypothesis, step_now, duration, Int.natCast_add,
        Int.add_assoc]

/-! ## When the lock is enforced -/

section Enforcement

variable
  (autoLock : AutoLockSettings)
  (secureStore : SecureStore)
  (balances : BalanceState)
  (now : Int)
  (lastSuccess : Option Int)

/-- **Run.**  The flags are opposite in every state of a session. -/
theorem Session.consistent_run (steps : List SessionStep) :
    (run (Session.step autoLock) (.start secureStore balances now lastSuccess)
      steps).Consistent :=
  run_invariant_of_preserved Session.Consistent
    (fun _ next consistent => consistent.step autoLock next)
    (show (start secureStore balances now lastSuccess).Consistent from rfl) steps

/-- The steps of an opening lead through the opened session. -/
theorem Session.run_opening
    (initial : Session)
    (earlier : List SessionStep)
    (opening : SessionStep)
    (between : List SessionStep) :
    run (Session.step autoLock) initial (earlier ++ opening :: between) =
      run (Session.step autoLock)
        (run (Session.step autoLock) initial (earlier ++ [opening])) between := by
  rw [← run_append, List.append_assoc, List.singleton_append]

/-- A wallet that is open was opened by a step after which none set the lock. -/
theorem Session.exists_opening
    {steps : List SessionStep}
    (opened : (run (Session.step autoLock)
      (.start secureStore balances now lastSuccess) steps).isLocked = false) :
    ∃ earlier opening between, steps = earlier ++ opening :: between ∧
      opening.SetsLock ∧ (∀ next ∈ between, ¬next.SetsLock) ∧
      (run (Session.step autoLock) (.start secureStore balances now lastSuccess)
        (earlier ++ [opening])).isLocked = false := by
  rcases exists_last_decision (Session.step_isLocked autoLock)
      (.start secureStore balances now lastSuccess) steps with
    same | ⟨earlier, opening, between, split, setsLock, undecided, left⟩
  · rw [same] at opened
    cases opened
  · refine ⟨earlier, opening, between, split, setsLock, undecided, ?_⟩
    rw [run_append, run_cons, run_nil, ← left, opened]

/-- After an opening the wallet is fresh exactly while the timeout since the last
successful authentication has not passed. -/
theorem Session.fresh_run_iff
    (opened : Session)
    {between : List SessionStep}
    (undecided : ∀ next ∈ between, ¬next.SetsLock) :
    (run (Session.step autoLock) opened between).Fresh autoLock ↔
      ∃ time, opened.lastSuccess = some time ∧
        ((opened.now + duration between - time : Int) : ℚ) ≤
          autoLock.minutes * 60000 := by
  rw [Fresh, run_now, run_keeps (step_lastSuccess autoLock) undecided]

/-- A refresh leaves the wallet as open as it was. -/
theorem Session.refreshTick_isLocked
    (session : Session)
    (answers : RefreshAnswers)
    (transactions : Except Exception (Option String)) :
    (session.step autoLock (.refreshTick answers transactions)).isLocked =
      session.isLocked :=
  step_isLocked autoLock session (.refreshTick answers transactions) id

/-- A refresh leaves the wallet as fresh as it was. -/
theorem Session.refreshTick_fresh_iff
    (session : Session)
    (answers : RefreshAnswers)
    (transactions : Except Exception (Option String)) :
    (session.step autoLock (.refreshTick answers transactions)).Fresh autoLock ↔
      session.Fresh autoLock := by
  obtain ⟨_, sameNow, sameSuccess⟩ :=
    session.refreshTick_lock answers transactions
  rw [Fresh, Fresh, step, sameNow, sameSuccess]

/-- **Automatic locking.**  In a run of the wallet every refresh leaves it locked
or freshly authenticated exactly when it is always locked in time. -/
theorem autoLockEnforced_iff (steps : List SessionStep) :
    AutoLockEnforced autoLock (.start secureStore balances now lastSuccess)
        steps ↔
      LockedInTime autoLock (.start secureStore balances now lastSuccess)
        steps := by
  constructor
  · rintro enforced earlier opening between answers transactions later rfl setsLock
      undecided opened isOpen connected
    have reached : run (Session.step autoLock)
        (.start secureStore balances now lastSuccess)
        (earlier ++ opening :: between) =
          run (Session.step autoLock) opened between :=
      Session.run_opening autoLock _ earlier opening between
    have stillOpen : (run (Session.step autoLock) opened between).isLocked =
        false := by
      rw [run_keeps (Session.step_isLocked autoLock) undecided, isOpen]
    have consistent := Session.consistent_run autoLock secureStore balances now
      lastSuccess (earlier ++ opening :: between)
    rw [reached] at consistent
    have refreshing := consistent.refreshing stillOpen connected
    rw [← Session.fresh_run_iff autoLock opened undecided,
      ← Session.refreshTick_fresh_iff autoLock _ answers transactions]
    have enforcedThere := enforced (earlier ++ opening :: between) answers
      transactions later (by simp) (by rw [reached, refreshing])
    rw [run_append, reached, run_cons, run_nil] at enforcedThere
    apply enforcedThere
    rw [Session.refreshTick_isLocked, stillOpen]
  · rintro inTime earlier answers transactions later rfl refreshing after isOpen
    have afterTick : after = (run (Session.step autoLock)
        (.start secureStore balances now lastSuccess) earlier).step autoLock
          (.refreshTick answers transactions) := run_append _ _ _ _
    rw [afterTick, Session.refreshTick_isLocked] at isOpen
    rw [afterTick, Session.refreshTick_fresh_iff]
    obtain ⟨before, opening, between, rfl, setsLock, undecided, wasOpen⟩ :=
      Session.exists_opening autoLock secureStore balances now lastSuccess isOpen
    rw [Session.run_opening, Session.refreshing, Bool.and_eq_true] at refreshing
    rw [Session.run_opening, Session.fresh_run_iff autoLock _ undecided]
    exact inTime before opening between answers transactions later (by simp)
      setsLock undecided wasOpen refreshing.2

end Enforcement

/-- The default settings lock after five minutes. -/
def defaultAutoLock : AutoLockSettings where
  settings := none
  minutes := 5
  enabled := rfl
  timeout := by decide +kernel

/-- A device that recognises the face of the user. -/
def recognisedFace : LocalAuthentication where
  hasHardwareAsync := .ok true
  isEnrolledAsync := .ok true
  supportedAuthenticationTypesAsync := .ok [.facialRecognition]
  authenticateAsync := .ok { success := true }

/-- A wallet that is opened stays open when nobody locks it for six minutes. -/
theorem session_stays_open :
    ¬AutoLockEnforced defaultAutoLock (.start {} {} 0 none)
      [.biometric recognisedFace none, .connection true, .elapse 360000,
        .refreshTick { connected := true, address := none, getBalance := .ok "0" }
          (.ok none)] := by
  intro enforced
  have fresh := enforced
    [.biometric recognisedFace none, .connection true, .elapse 360000] _ _ [] rfl
    rfl rfl
  obtain ⟨time, same, inTime⟩ := fresh
  obtain rfl : 0 = time := Option.some.inj same
  revert inTime
  decide +kernel

end Client
end Privachain
