import Privachain.Foundation.JavaScript
import Privachain.Foundation.StatefulCall

/-!
# Biometric and PIN authentication

The authentication functions of the wallet read the secure store of the device
and ask its biometric sensor.  They catch every exception and report what
happened in an `AuthResult`, so they always return.
-/

namespace Privachain
namespace Client

open Foundation
open Foundation.JavaScript
open Foundation.StatefulCall

/-! ## The secure store -/

/-- The items of `SecureStore` under `SECURE_KEYS`. -/
structure SecureStore where
  pin : Option String := none
  pinSalt : Option String := none
  lastAuth : Option String := none
  deriving DecidableEq

/-- An asynchronous function that uses the secure store. -/
abbrev SecureCall (α : Type) := EStateM Exception SecureStore α

/-- `SecureStore.getItemAsync(key)`, rejected where the platform fails. -/
def getItemAsync
    (failure : Option Exception)
    (item : SecureStore -> Option String) : SecureCall (Option String) :=
  match failure with
  | some reason => throw reason
  | none => return item (← get)

/-- `SecureStore.setItemAsync(key, value)`, rejected where the platform fails. -/
def setItemAsync
    (failure : Option Exception)
    (write : SecureStore -> SecureStore) : SecureCall Unit :=
  match failure with
  | some reason => throw reason
  | none => modify write

/-- What `updateLastAuthTime` meets: the time and whether its write fails. -/
structure LastAuthWrite where
  dateNow : Int
  failure : Option Exception := none

/-- `updateLastAuthTime()` -/
def updateLastAuthTime (lastAuthWrite : LastAuthWrite) : SecureCall Unit :=
  tryCatch
    (setItemAsync lastAuthWrite.failure fun secureStore =>
      { secureStore with
        lastAuth := some (bigIntToString lastAuthWrite.dateNow) })
    fun _ => return

/-- Noting the time of an authentication never fails, and touches neither the
PIN nor its salt. -/
theorem updateLastAuthTime_returns
    (lastAuthWrite : LastAuthWrite)
    (secureStore : SecureStore) :
    ∃ after, updateLastAuthTime lastAuthWrite secureStore = .ok () after ∧
      after.pin = secureStore.pin ∧ after.pinSalt = secureStore.pinSalt := by
  obtain ⟨dateNow, failure⟩ := lastAuthWrite
  cases failure with
  | none => exact ⟨_, rfl, rfl, rfl⟩
  | some reason => exact ⟨_, rfl, rfl, rfl⟩

/-! ## Results -/

/-- The `method` of an authentication result. -/
inductive AuthMethod
  | biometric
  | pin
  | none
  deriving DecidableEq

/-- The string of a method. -/
def AuthMethod.toString : AuthMethod -> String
  | .biometric => "biometric"
  | .pin => "pin"
  | .none => "none"

/-- `interface AuthResult` -/
structure AuthResult where
  success : Bool
  error : Option String := none
  method : Option AuthMethod := none
  deriving DecidableEq

/-- The object that the authentication functions return; an optional property
that is not set is absent. -/
def AuthResult.toValue (result : AuthResult) : Value :=
  .object
    ([("success", .boolean result.success)] ++
      (result.error.map fun error => ("error", Value.string error)).toList ++
      (result.method.map fun method =>
        ("method", Value.string method.toString)).toList)

/-! ## Biometrics -/

/-- `LocalAuthentication.AuthenticationType` -/
inductive AuthenticationType
  | fingerprint
  | facialRecognition
  | iris
  deriving DecidableEq

/-- `LocalAuthenticationResult` -/
structure LocalAuthenticationResult where
  success : Bool
  error : Option String := none

/-- The answers of the device during one biometric attempt. -/
structure LocalAuthentication where
  hasHardwareAsync : Except Exception Bool
  isEnrolledAsync : Except Exception Bool
  supportedAuthenticationTypesAsync :
    Except Exception (List AuthenticationType)
  authenticateAsync : Except Exception LocalAuthenticationResult

/-- The `type` of a biometric capability. -/
inductive BiometricType
  | fingerprint
  | facial
  | iris
  | none
  deriving DecidableEq

/-- `interface BiometricCapability` -/
structure BiometricCapability where
  available : Bool
  type : BiometricType
  deriving DecidableEq

/-- The type that `checkBiometricCapability` reports for the supported ones. -/
def biometricType (supportedTypes : List AuthenticationType) : BiometricType :=
  if supportedTypes.contains .facialRecognition then .facial
  else if supportedTypes.contains .fingerprint then .fingerprint
  else if supportedTypes.contains .iris then .iris
  else .none

/-- The `try` block of `checkBiometricCapability`. -/
def askBiometricCapability
    (device : LocalAuthentication) : Except Exception BiometricCapability := do
  let hasHardware ← device.hasHardwareAsync
  if !hasHardware then
    return { available := false, type := .none }
  let isEnrolled ← device.isEnrolledAsync
  if !isEnrolled then
    return { available := false, type := .none }
  let supportedTypes ← device.supportedAuthenticationTypesAsync
  return { available := true, type := biometricType supportedTypes }

/-- `checkBiometricCapability()` -/
def checkBiometricCapability
    (device : LocalAuthentication) : BiometricCapability :=
  match askBiometricCapability device with
  | .ok capability => capability
  | .error _ => { available := false, type := .none }

/-- The `try` block of `authenticateWithBiometrics`. -/
def askBiometrics
    (device : LocalAuthentication)
    (lastAuthWrite : LastAuthWrite) : SecureCall AuthResult := do
  let capability := checkBiometricCapability device
  if !capability.available then
    return {
      success := false
      error := some "Biometric authentication not available" }
  let result ← MonadExcept.ofExcept device.authenticateAsync
  if result.success then
    updateLastAuthTime lastAuthWrite
    return { success := true, method := some .biometric }
  return {
    success := false
    error :=
      if result.error = some "user_cancel" then
        some "Authentication cancelled"
      else some "Authentication failed" }

/-- `authenticateWithBiometrics()` -/
def authenticateWithBiometrics
    (device : LocalAuthentication)
    (lastAuthWrite : LastAuthWrite) : SecureCall AuthResult :=
  tryCatch (askBiometrics device lastAuthWrite) fun _ =>
    return { success := false, error := some "Authentication error occurred" }

/-- The device has enrolled biometrics and recognises the user. -/
def LocalAuthentication.Accepts (device : LocalAuthentication) : Prop :=
  device.hasHardwareAsync = .ok true ∧
    device.isEnrolledAsync = .ok true ∧
    (∃ supportedTypes,
      device.supportedAuthenticationTypesAsync = .ok supportedTypes) ∧
    ∃ result, device.authenticateAsync = .ok result ∧ result.success = true

/-- Biometrics are available when the device has enrolled ones and answers every
question. -/
theorem checkBiometricCapability_available_iff (device : LocalAuthentication) :
    (checkBiometricCapability device).available = true ↔
      device.hasHardwareAsync = .ok true ∧
        device.isEnrolledAsync = .ok true ∧
        ∃ supportedTypes,
          device.supportedAuthenticationTypesAsync = .ok supportedTypes := by
  obtain ⟨hardware, enrolled, supported, _⟩ := device
  rcases hardware with _ | _ | _ <;> rcases enrolled with _ | _ | _ <;>
    rcases supported with _ | supportedTypes <;>
    simp [checkBiometricCapability, askBiometricCapability, bind, Except.bind,
      pure, Except.pure]

/-- Without biometrics nobody is asked. -/
theorem askBiometrics_of_unavailable
    {device : LocalAuthentication}
    (unavailable : (checkBiometricCapability device).available = false)
    (lastAuthWrite : LastAuthWrite)
    (secureStore : SecureStore) :
    askBiometrics device lastAuthWrite secureStore =
      .ok
        { success := false
          error := some "Biometric authentication not available" }
        secureStore := by
  simp only [askBiometrics, unavailable]
  rfl

/-- An error of the device is thrown on. -/
theorem askBiometrics_of_error
    {device : LocalAuthentication}
    (available : (checkBiometricCapability device).available = true)
    {reason : Exception}
    (authenticated : device.authenticateAsync = .error reason)
    (lastAuthWrite : LastAuthWrite)
    (secureStore : SecureStore) :
    askBiometrics device lastAuthWrite secureStore =
      .error reason secureStore := by
  simp only [askBiometrics, available, authenticated]
  rfl

/-- An answer of the device is the result, and a success is noted. -/
theorem askBiometrics_of_result
    {device : LocalAuthentication}
    (available : (checkBiometricCapability device).available = true)
    {result : LocalAuthenticationResult}
    (authenticated : device.authenticateAsync = .ok result)
    (lastAuthWrite : LastAuthWrite)
    (secureStore : SecureStore) :
    ∃ answer after,
      askBiometrics device lastAuthWrite secureStore = .ok answer after ∧
      answer.success = result.success ∧
      after.pin = secureStore.pin ∧ after.pinSalt = secureStore.pinSalt := by
  simp only [askBiometrics, available, authenticated]
  change ∃ answer after, (if result.success = true then _ else _ :
    SecureCall AuthResult) secureStore = .ok answer after ∧ _
  cases success : result.success with
  | false => exact ⟨_, _, rfl, rfl, rfl, rfl⟩
  | true =>
      obtain ⟨after, noted, kept⟩ :=
        updateLastAuthTime_returns lastAuthWrite secureStore
      rw [if_pos rfl]
      exact ⟨_, after, (call_bind_eq_ok_iff _ _ _ _ _).mpr
        ⟨(), after, noted, rfl⟩, rfl, kept⟩

/-- A biometric attempt always returns, and its result is a success exactly when
the device accepts the user.  It leaves the PIN and its salt as they were. -/
theorem authenticateWithBiometrics_returns
    (device : LocalAuthentication)
    (lastAuthWrite : LastAuthWrite)
    (secureStore : SecureStore) :
    ∃ result after,
      authenticateWithBiometrics device lastAuthWrite secureStore =
        .ok result after ∧
      (result.success = true ↔ device.Accepts) ∧
      after.pin = secureStore.pin ∧ after.pinSalt = secureStore.pinSalt := by
  have accepts_iff : device.Accepts ↔
      (checkBiometricCapability device).available = true ∧
        ∃ result, device.authenticateAsync = .ok result ∧
          result.success = true := by
    rw [checkBiometricCapability_available_iff, LocalAuthentication.Accepts,
      and_assoc, and_assoc]
  rw [accepts_iff]
  cases available : (checkBiometricCapability device).available with
  | false =>
      have returned :=
        askBiometrics_of_unavailable available lastAuthWrite secureStore
      exact ⟨_, _, tryCatch_of_ok returned _, by simp, rfl, rfl⟩
  | true =>
      cases authenticated : device.authenticateAsync with
      | error reason =>
          have thrown :=
            askBiometrics_of_error available authenticated lastAuthWrite
              secureStore
          exact ⟨_, _, tryCatch_of_error thrown _, by simp, rfl, rfl⟩
      | ok result =>
          obtain ⟨answer, after, returned, sameSuccess, kept⟩ :=
            askBiometrics_of_result available authenticated lastAuthWrite
              secureStore
          exact ⟨answer, after, tryCatch_of_ok returned _, by simp [sameSuccess],
            kept⟩

/-! ## The PIN -/

/-- One step of the loop of `hashPin`. -/
def hashStep (hash : Int) (char : Nat) : Int :=
  toInt32 (toInt32 (hash * 32) - hash + char)

/-- `hashPin(pin, salt)` -/
def hashPin (pin salt : String) : String :=
  let hash := (codeUnits (pin ++ salt)).foldl hashStep 0
  String.ofList (Nat.toDigits 16 hash.natAbs)

/-- The accesses to the secure store of one call of `verifyPin`. -/
structure PinAccess where
  readPin : Option Exception := none
  readPinSalt : Option Exception := none
  lastAuthWrite : LastAuthWrite

/-- The checks of `verifyPin` on the items that are not falsy. -/
def compareItems
    (pin : String)
    (lastAuthWrite : LastAuthWrite) :
    Option String -> Option String -> SecureCall AuthResult
  | some storedHash, some salt =>
      let inputHash := hashPin pin salt
      if inputHash = storedHash then do
        updateLastAuthTime lastAuthWrite
        return { success := true, method := some .pin }
      else
        return { success := false, error := some "Incorrect PIN" }
  | _, _ => return { success := false, error := some "PIN not set up" }

/-- The `try` block of `verifyPin`. -/
def comparePin (pin : String) (access : PinAccess) : SecureCall AuthResult := do
  let storedHash ← getItemAsync access.readPin SecureStore.pin
  let salt ← getItemAsync access.readPinSalt SecureStore.pinSalt
  compareItems pin access.lastAuthWrite (storedHash.filter (· ≠ ""))
    (salt.filter (· ≠ ""))

/-- `verifyPin(pin)` -/
def verifyPin (pin : String) (access : PinAccess) : SecureCall AuthResult :=
  tryCatch (comparePin pin access) fun _ =>
    return { success := false, error := some "Verification error occurred" }

/-- The secure store can be read and holds a salted hash of the PIN. -/
def PinMatches
    (pin : String)
    (access : PinAccess)
    (secureStore : SecureStore) : Prop :=
  access.readPin = none ∧ access.readPinSalt = none ∧
    ∃ salt, secureStore.pinSalt = some salt ∧ salt ≠ "" ∧
      secureStore.pin = some (hashPin pin salt)

/-- The hash of a PIN is not the empty text. -/
theorem hashPin_ne_empty (pin salt : String) : hashPin pin salt ≠ "" := by
  intro empty
  have digits := congrArg String.toList empty
  rw [hashPin, String.toList_ofList] at digits
  exact Nat.toDigits_ne_nil digits

/-- The stored items that `verifyPin` does not reject as falsy match the PIN
exactly when the stored hash is the one of the PIN and the stored salt. -/
theorem filtered_match_iff (pin : String) (secureStore : SecureStore) :
    (∃ storedHash salt,
      secureStore.pin.filter (· ≠ "") = some storedHash ∧
        secureStore.pinSalt.filter (· ≠ "") = some salt ∧
        hashPin pin salt = storedHash) ↔
      ∃ salt, secureStore.pinSalt = some salt ∧ salt ≠ "" ∧
        secureStore.pin = some (hashPin pin salt) := by
  constructor
  · rintro ⟨storedHash, salt, hashRead, saltRead, rfl⟩
    obtain ⟨saltStored, saltSet⟩ := Option.filter_eq_some_iff.mp saltRead
    obtain ⟨hashStored, -⟩ := Option.filter_eq_some_iff.mp hashRead
    exact ⟨salt, saltStored, of_decide_eq_true saltSet, hashStored⟩
  · rintro ⟨salt, saltStored, saltSet, hashStored⟩
    refine ⟨_, salt, ?_, ?_, rfl⟩
    · rw [hashStored]
      exact Option.filter_eq_some_iff.mpr
        ⟨rfl, decide_eq_true (hashPin_ne_empty pin salt)⟩
    · rw [saltStored]
      exact Option.filter_eq_some_iff.mpr ⟨rfl, decide_eq_true saltSet⟩

/-- The comparison of items that can be read returns, and its result is a success
exactly when there is a salt with which the PIN has the stored hash. -/
theorem compareItems_returns
    (pin : String)
    (lastAuthWrite : LastAuthWrite)
    (storedHash salt : Option String)
    (secureStore : SecureStore) :
    ∃ result after,
      compareItems pin lastAuthWrite storedHash salt secureStore =
        .ok result after ∧
      (result.success = true ↔
        ∃ hash present, storedHash = some hash ∧ salt = some present ∧
          hashPin pin present = hash) ∧
      after.pin = secureStore.pin ∧ after.pinSalt = secureStore.pinSalt := by
  cases storedHash with
  | none => exact ⟨_, _, rfl, by simp, rfl, rfl⟩
  | some hash =>
      cases salt with
      | none => exact ⟨_, _, rfl, by simp, rfl, rfl⟩
      | some present =>
          rw [compareItems]
          by_cases same : hashPin pin present = hash
          · obtain ⟨after, noted, kept⟩ :=
              updateLastAuthTime_returns lastAuthWrite secureStore
            rw [if_pos same]
            exact ⟨_, after,
              (call_bind_eq_ok_iff _ _ _ _ _).mpr ⟨(), after, noted, rfl⟩,
              by simp [same], kept⟩
          · rw [if_neg same]
            exact ⟨_, _, rfl, by simp [Ne.symm same], rfl, rfl⟩

/-- A verification always returns, and its result is a success exactly when the
PIN matches the stored hash.  It leaves the PIN and its salt as they were. -/
theorem verifyPin_returns
    (pin : String)
    (access : PinAccess)
    (secureStore : SecureStore) :
    ∃ result after,
      verifyPin pin access secureStore = .ok result after ∧
      (result.success = true ↔ PinMatches pin access secureStore) ∧
      after.pin = secureStore.pin ∧ after.pinSalt = secureStore.pinSalt := by
  rw [PinMatches, ← filtered_match_iff]
  obtain ⟨readPin, readPinSalt, lastAuthWrite⟩ := access
  cases readPin with
  | some reason =>
      have thrown : comparePin pin ⟨some reason, readPinSalt, lastAuthWrite⟩
          secureStore = .error reason secureStore := rfl
      exact ⟨_, _, tryCatch_of_error thrown _, by simp, rfl, rfl⟩
  | none =>
      cases readPinSalt with
      | some reason =>
          have thrown : comparePin pin ⟨none, some reason, lastAuthWrite⟩
              secureStore = .error reason secureStore := rfl
          exact ⟨_, _, tryCatch_of_error thrown _, by simp, rfl, rfl⟩
      | none =>
          obtain ⟨result, after, returned, success_iff, kept⟩ :=
            compareItems_returns pin lastAuthWrite
              (secureStore.pin.filter (· ≠ ""))
              (secureStore.pinSalt.filter (· ≠ "")) secureStore
          have compared : comparePin pin ⟨none, none, lastAuthWrite⟩
              secureStore = .ok result after := returned
          exact ⟨result, after, tryCatch_of_ok compared _, by simp [success_iff],
            kept⟩

end Client
end Privachain
