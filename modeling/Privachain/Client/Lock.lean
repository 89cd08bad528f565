import Privachain.Client.Authentication
import Privachain.Foundation.Runs

/-!
# The lock of the wallet

The wallet context holds the lock.  It is set when the wallet is initialized and
when the user locks it, and `AuthScreen` calls `unlock` after a biometric attempt
or the entry of a PIN.
-/

namespace Privachain
namespace Client

open Foundation
open Foundation.JavaScript

/-! ## The wallet context -/

/-- The state of `WalletProvider` that concerns the lock. -/
structure WalletContext where
  isLocked : Bool := true
  isAuthenticated : Bool := false
  hasWallet : Bool := false
  address : Option String := none
  loading : Bool := true
  error : Option Exception := none
  deriving DecidableEq

namespace WalletContext

/-- The part of `initializeWallet` after the keys are read: `locked` is what
`shouldLock` returns, and loading the cached data never fails. -/
def initializeLock (context : WalletContext) (locked : Bool) : WalletContext :=
  { context with
    isLocked := locked
    isAuthenticated := !locked
    error := none }

/-- `initializeWallet()`, with the address that `getWalletKeys` finds. -/
def initializeWallet
    (context : WalletContext)
    (getWalletKeys : Except Exception (Option String))
    (shouldLock : Bool) : WalletContext :=
  let initialized :=
    match getWalletKeys with
    | .ok (some address) =>
        { context with hasWallet := true, address := some address }.initializeLock
          shouldLock
    | .ok none => context.initializeLock shouldLock
    | .error reason => { context with error := some reason }
  { initialized with loading := false }

/-- `unlock()`: the refreshed balances, commitments and transactions are not
part of the lock. -/
def unlock (context : WalletContext) : WalletContext :=
  { context with isLocked := false, isAuthenticated := true }

/-- `lock()` -/
def lock (context : WalletContext) : WalletContext :=
  { context with isLocked := true, isAuthenticated := false }

end WalletContext

/-! ## The authentication screen -/

/-- The `mode` of `AuthScreen`. -/
inductive AuthMode
  | unlock
  | setup
  deriving DecidableEq

/-- The wallet context, the local state of `AuthScreen` and the secure store of
the device. -/
structure LockState where
  context : WalletContext
  error : String := ""
  isLoading : Bool := false
  secureStore : SecureStore
  deriving DecidableEq

namespace LockState

/-- The state in which the application starts. -/
def start (secureStore : SecureStore) : LockState where
  context := {}
  secureStore := secureStore

/-- The branches of the handlers after the authentication function settled: its
result is tested for its truth value. -/
def settle
    (state : LockState)
    (outcome : EStateM.Result Exception SecureStore AuthResult)
    (failed unavailable : String) : LockState :=
  match outcome with
  | .ok success secureStore =>
      if success.toValue.truthy then
        { state with
          secureStore := secureStore
          context := state.context.unlock }
      else
        { state with secureStore := secureStore, error := failed }
  | .error _ secureStore =>
      { state with secureStore := secureStore, error := unavailable }

/-- `handleBiometric()` -/
def handleBiometric
    (state : LockState)
    (device : LocalAuthentication)
    (lastAuthWrite : LastAuthWrite) : LockState :=
  let waiting := { state with isLoading := true, error := "" }
  let settled := waiting.settle
    (authenticateWithBiometrics device lastAuthWrite waiting.secureStore)
    "Biometric authentication failed" "Biometric not available, use PIN"
  { settled with isLoading := false }

/-- `handlePinComplete(pin)` -/
def handlePinComplete
    (state : LockState)
    (mode : AuthMode)
    (pin : String)
    (access : PinAccess) : LockState :=
  let waiting := { state with isLoading := true, error := "" }
  let settled :=
    match mode with
    | .setup => { waiting with context := waiting.context.unlock }
    | .unlock =>
        waiting.settle (verifyPin pin access waiting.secureStore)
          "Incorrect PIN" "Authentication failed"
  { settled with isLoading := false }

end LockState

/-! ## Runs -/

/-- The steps of the lock.  The screen is in unlock mode, attempts count when
they settle, and other screens may write the secure store at any time. -/
inductive LockStep
  | initializeWallet
      (getWalletKeys : Except Exception (Option String))
      (shouldLock : Bool)
  | lock
  | biometric (device : LocalAuthentication) (lastAuthWrite : LastAuthWrite)
  | pin (entered : String) (access : PinAccess)
  | secureStoreWritten (contents : SecureStore)

/-- The effect of a step. -/
def LockState.step (state : LockState) : LockStep -> LockState
  | .initializeWallet getWalletKeys shouldLock =>
      { state with
        context := state.context.initializeWallet getWalletKeys shouldLock }
  | .lock => { state with context := state.context.lock }
  | .biometric device lastAuthWrite =>
      state.handleBiometric device lastAuthWrite
  | .pin entered access => state.handlePinComplete .unlock entered access
  | .secureStoreWritten contents => { state with secureStore := contents }

/-- The step is an authentication with a result that reports success, or an
initialization for which `shouldLock` returned false. -/
def Authenticated (state : LockState) : LockStep -> Prop
  | .initializeWallet _ shouldLock => shouldLock = false
  | .biometric device lastAuthWrite =>
      ∃ result secureStore,
        authenticateWithBiometrics device lastAuthWrite state.secureStore =
          .ok result secureStore ∧
        result.success = true
  | .pin entered access =>
      ∃ result secureStore,
        verifyPin entered access state.secureStore = .ok result secureStore ∧
        result.success = true
  | .lock => False
  | .secureStoreWritten _ => False

/-- A step that opens the lock is a successful authentication. -/
def UnlocksAuthenticated (state : LockState) (next : LockStep) : Prop :=
  state.context.isLocked = true -> (state.step next).context.isLocked = false ->
    Authenticated state next

/-- An attempt on the locked wallet is one that the device, or the stored hash of
the PIN, accepts. -/
def AttemptAccepted (state : LockState) : LockStep -> Prop
  | .biometric device _ => state.context.isLocked = true -> device.Accepts
  | .pin entered access =>
      state.context.isLocked = true ->
        PinMatches entered access state.secureStore
  | .initializeWallet _ _ => True
  | .lock => True
  | .secureStoreWritten _ => True

/-! ## Every attempt opens the lock -/

/-- The result of an authentication is an object, so its truth value is true
whatever it reports. -/
theorem LockState.settle_ok_context
    (state : LockState)
    (result : AuthResult)
    (secureStore : SecureStore)
    (failed unavailable : String) :
    (state.settle (.ok result secureStore) failed unavailable).context =
      state.context.unlock := by
  rw [settle, AuthResult.toValue, Value.truthy_object, if_pos rfl]

/-- A biometric attempt opens the lock, whatever the device answers. -/
theorem LockState.handleBiometric_context
    (state : LockState)
    (device : LocalAuthentication)
    (lastAuthWrite : LastAuthWrite) :
    (state.handleBiometric device lastAuthWrite).context =
      state.context.unlock := by
  obtain ⟨result, after, returned, -⟩ :=
    authenticateWithBiometrics_returns device lastAuthWrite state.secureStore
  simp only [handleBiometric, returned, settle_ok_context]

/-- The entry of a PIN opens the lock, whatever the secure store holds. -/
theorem LockState.handlePinComplete_context
    (state : LockState)
    (mode : AuthMode)
    (pin : String)
    (access : PinAccess) :
    (state.handlePinComplete mode pin access).context =
      state.context.unlock := by
  obtain ⟨result, after, returned, -⟩ :=
    verifyPin_returns pin access state.secureStore
  cases mode with
  | setup => rfl
  | unlock => simp only [handlePinComplete, returned, settle_ok_context]

/-- A biometric attempt is a success exactly when the device accepts. -/
theorem authenticated_biometric_iff
    (state : LockState)
    (device : LocalAuthentication)
    (lastAuthWrite : LastAuthWrite) :
    Authenticated state (.biometric device lastAuthWrite) ↔ device.Accepts := by
  obtain ⟨result, after, returned, success_iff, -⟩ :=
    authenticateWithBiometrics_returns device lastAuthWrite state.secureStore
  rw [Authenticated, ← success_iff]
  simp [returned]

/-- The entry of a PIN is a success exactly when the PIN matches. -/
theorem authenticated_pin_iff
    (state : LockState)
    (entered : String)
    (access : PinAccess) :
    Authenticated state (.pin entered access) ↔
      PinMatches entered access state.secureStore := by
  obtain ⟨result, after, returned, success_iff, -⟩ :=
    verifyPin_returns entered access state.secureStore
  rw [Authenticated, ← success_iff]
  simp [returned]

/-- Initialization opens the lock only when `shouldLock` returned false. -/
theorem WalletContext.initializeWallet_unlocks
    {context : WalletContext}
    {getWalletKeys : Except Exception (Option String)}
    {shouldLock : Bool}
    (locked : context.isLocked = true)
    (opened :
      (context.initializeWallet getWalletKeys shouldLock).isLocked = false) :
    shouldLock = false := by
  rcases getWalletKeys with reason | _ | address
  · exact absurd opened (by simp [initializeWallet, locked])
  · exact opened
  · exact opened

/-- A step opens the lock without an authentication exactly when it is an attempt
that is not accepted. -/
theorem unlocksAuthenticated_iff (state : LockState) (next : LockStep) :
    UnlocksAuthenticated state next ↔ AttemptAccepted state next := by
  cases next with
  | initializeWallet getWalletKeys shouldLock =>
      exact iff_of_true
        (fun locked opened => WalletContext.initializeWallet_unlocks locked opened)
        trivial
  | lock => exact iff_of_true (fun _ opened => nomatch opened) trivial
  | biometric device lastAuthWrite =>
      have opened : (state.step (.biometric device lastAuthWrite)).context.isLocked
          = false := by
        rw [LockState.step, LockState.handleBiometric_context]
        rfl
      rw [UnlocksAuthenticated, authenticated_biometric_iff]
      simp [opened, AttemptAccepted]
  | pin entered access =>
      have opened : (state.step (.pin entered access)).context.isLocked =
          false := by
        rw [LockState.step, LockState.handlePinComplete_context]
        rfl
      rw [UnlocksAuthenticated, authenticated_pin_iff]
      simp [opened, AttemptAccepted]
  | secureStoreWritten contents =>
      refine iff_of_true (fun locked opened => ?_) trivial
      exact absurd (locked.symm.trans opened) (by simp)

/-- **Unlocking.**  In a run of the lock every step that opens it is a successful
authentication exactly when every attempt made on the locked wallet is
accepted. -/
theorem unlocks_only_authenticated_iff
    (initial : LockState)
    (steps : List LockStep) :
    Allowed LockState.step UnlocksAuthenticated initial steps ↔
      Allowed LockState.step AttemptAccepted initial steps :=
  allowed_congr unlocksAuthenticated_iff initial steps

/-- A device with a fingerprint sensor on which the user cancels. -/
def cancelledBiometrics : LocalAuthentication where
  hasHardwareAsync := .ok true
  isEnrolledAsync := .ok true
  supportedAuthenticationTypesAsync := .ok [.fingerprint]
  authenticateAsync := .ok { success := false, error := some "user_cancel" }

/-- The wallet is opened by a biometric prompt that the user cancels. -/
theorem cancelledBiometrics_unlocks :
    authenticateWithBiometrics cancelledBiometrics { dateNow := 0 } {} =
        .ok { success := false, error := some "Authentication cancelled" } {} ∧
      ((LockState.start {}).step
        (.biometric cancelledBiometrics { dateNow := 0 })).context.isLocked =
          false ∧
      ¬∀ secureStore steps,
        Allowed LockState.step UnlocksAuthenticated (.start secureStore)
          steps := by
  refine ⟨rfl, rfl, fun always => ?_⟩
  have first := (always {} [.biometric cancelledBiometrics { dateNow := 0 }]).1
  have accepted := (unlocksAuthenticated_iff _ _).mp first rfl
  obtain ⟨-, -, -, result, answered, success⟩ := accepted
  cases answered
  cases success

end Client
end Privachain
