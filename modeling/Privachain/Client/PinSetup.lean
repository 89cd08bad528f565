import Privachain.Client.Authentication
import Privachain.Client.Settings

/-!
# Setting up the PIN

`setupPin` stores a hash of the PIN and its salt, and enables the PIN in the
settings.  The hash has 32 bits and starts from zero, so every PIN shares its
hash with other strings, and the weak PINs are refused by `validatePin` only.
-/

namespace Privachain
namespace Client

open Foundation
open Foundation.JavaScript
open Foundation.StatefulCall
open Foundation.StoredItem

/-! ## The stores of the device -/

/-- The secure store, and the item of the settings in `AsyncStorage`. -/
structure Device where
  secureStore : SecureStore := {}
  settings : Option String := none
  deriving DecidableEq

/-- An asynchronous function that uses both stores. -/
abbrev DeviceCall (α : Type) := EStateM Exception Device α

/-- A call on the secure store. -/
def onSecureStore {α : Type} (call : SecureCall α) : DeviceCall α :=
  onPart Device.secureStore
    (fun secureStore device => { device with secureStore := secureStore }) call

/-- A call on the settings. -/
def onSettings {α : Type} (call : ItemCall α) : DeviceCall α :=
  onPart Device.settings
    (fun settings device => { device with settings := settings }) call

/-- `SecureStore.deleteItemAsync(key)`, rejected where the platform fails. -/
def deleteItemAsync
    (failure : Option Exception)
    (delete : SecureStore -> SecureStore) : SecureCall Unit :=
  match failure with
  | some reason => throw reason
  | none => modify delete

/-- How the stores answer the writes of one call. -/
structure PinWrites where
  pin : Option Exception := none
  pinSalt : Option Exception := none
  settings : Access := {}

/-- The argument of `saveSettings({ pinEnabled })`. -/
def pinSettings (enabled : Bool) : DatabaseTexts.Properties where
  fields := [("pinEnabled", .boolean enabled)]
  own := List.pairwise_singleton _ _

/-- `getSettings().pinEnabled` -/
def pinEnabled (device : Device) : Value :=
  propertyOf (DatabaseTexts.getSettings (.ok device.settings)) "pinEnabled"

/-! ## PINs -/

/-- `pin.length`, in code units. -/
def pinLength (pin : String) : Nat := (codeUnits pin).length

/-- `/^\d+$/.test(pin)` -/
def isDigits (pin : String) : Bool :=
  !pin.isEmpty && pin.toList.all Char.isDigit

/-- `weakPins` -/
def weakPins : List String :=
  ["0000", "1111", "2222", "3333", "4444", "5555", "6666", "7777", "8888",
    "9999", "1234", "4321"]

/-- The result of `validatePin`. -/
structure PinValidation where
  valid : Bool
  error : Option String := none
  deriving DecidableEq

/-- `validatePin(pin)` -/
def validatePin (pin : String) : PinValidation :=
  if pinLength pin < 4 then
    { valid := false, error := some "PIN must be at least 4 digits" }
  else if pinLength pin > 8 then
    { valid := false, error := some "PIN must be at most 8 digits" }
  else if !isDigits pin then
    { valid := false, error := some "PIN must contain only numbers" }
  else if weakPins.contains pin then
    { valid := false
      error := some "PIN is too weak. Please choose a different PIN" }
  else { valid := true }

/-- `setupPin(pin)`, with the salt that `generateSalt` draws. -/
def setupPin
    (writes : PinWrites)
    (salt pin : String) : DeviceCall Bool := do
  ensure (¬(pinLength pin < 4 ∨ pinLength pin > 8))
    (.error "PIN must be 4-8 digits")
  ensure (isDigits pin = true) (.error "PIN must contain only numbers")
  let hashedPin := hashPin pin salt
  onSecureStore (setItemAsync writes.pin fun secureStore =>
    { secureStore with pin := some hashedPin })
  onSecureStore (setItemAsync writes.pinSalt fun secureStore =>
    { secureStore with pinSalt := some salt })
  onSettings (DatabaseTexts.saveSettings writes.settings (pinSettings true))
  return true

/-- `changePin(oldPin, newPin)` -/
def changePin
    (writes : PinWrites)
    (lastAuthWrite : LastAuthWrite)
    (salt oldPin newPin : String) : DeviceCall Bool := do
  let verifyResult ← onSecureStore
    (verifyPin oldPin { lastAuthWrite := lastAuthWrite })
  ensure (verifyResult.success = true) (.error "Current PIN is incorrect")
  let _ ← setupPin writes salt newPin
  return true

/-- `removePin()` -/
def removePin (writes : PinWrites) : DeviceCall Unit := do
  onSecureStore (deleteItemAsync writes.pin fun secureStore =>
    { secureStore with pin := none })
  onSecureStore (deleteItemAsync writes.pinSalt fun secureStore =>
    { secureStore with pinSalt := none })
  onSettings (DatabaseTexts.saveSettings writes.settings (pinSettings false))

/-! ## What the calls do -/

/-- The format that `setupPin` accepts. -/
def PinFormat (pin : String) : Prop :=
  (4 ≤ pinLength pin ∧ pinLength pin ≤ 8) ∧ isDigits pin = true

instance (pin : String) : Decidable (PinFormat pin) :=
  inferInstanceAs (Decidable (_ ∧ _))

/-- The settings text that a granted write leaves. -/
def pinSettingsText
    (access : Access)
    (enabled : Bool)
    (item : Option String) : String :=
  JSON.stringifyReplaced (.object
    (DatabaseTexts.updatedSettings (pinSettings enabled) (access.read item)))

theorem pinSettings_areParsed (enabled : Bool) :
    ∀ setting ∈ (pinSettings enabled).fields, JSON.IsParsed setting.2 := by
  intro setting member
  obtain rfl := List.mem_singleton.mp member
  trivial

/-- Saving the setting writes it or throws. -/
theorem onSettings_savePinEnabled
    (access : Access)
    (enabled : Bool)
    (device : Device) :
    onSettings (DatabaseTexts.saveSettings access (pinSettings enabled)) device =
      match access.setItem with
      | some refusal => .error refusal device
      | none => .ok ⟨⟩
          { device with
            settings := some (pinSettingsText access enabled device.settings) } := by
  rw [onSettings, onPart,
    DatabaseTexts.saveSettings_eq (pinSettings_areParsed enabled)]
  cases access.setItem with
  | none => rfl
  | some refusal => rfl

/-- The saved setting is read back. -/
theorem pinEnabled_saved
    (access : Access)
    (enabled : Bool)
    (secureStore : SecureStore)
    (item : Option String) :
    pinEnabled
        { secureStore := secureStore
          settings := some (pinSettingsText access enabled item) } =
      .boolean enabled := by
  rw [pinEnabled, DatabaseTexts.getSettings_eq_object, propertyOf,
    Value.property, pinSettingsText]
  dsimp only
  rw [DatabaseTexts.lookup_settingsOf_updatedSettings
    (pinSettings_areParsed enabled)]
  rfl

/-- A malformed PIN is refused before anything is written. -/
theorem setupPin_of_malformed
    {pin : String}
    (malformed : ¬PinFormat pin)
    (writes : PinWrites)
    (salt : String)
    (device : Device) :
    ∃ reason, setupPin writes salt pin device = .error reason device := by
  unfold setupPin
  by_cases lengths : ¬(pinLength pin < 4 ∨ pinLength pin > 8)
  · have notDigits : ¬isDigits pin = true :=
      fun digits => malformed ⟨by omega, digits⟩
    rw [bind_of_ok (ensure_of_true lengths _ device)]
    exact ⟨_, bind_of_error (ensure_of_false notDigits _ device) _⟩
  · exact ⟨_, bind_of_error (ensure_of_false lengths _ device) _⟩

/-- On a well-formed PIN the writes decide. -/
theorem setupPin_eq
    {pin : String}
    (formatted : PinFormat pin)
    (writes : PinWrites)
    (salt : String)
    (device : Device) :
    setupPin writes salt pin device =
      match writes.pin, writes.pinSalt, writes.settings.setItem with
      | some reason, _, _ => .error reason device
      | none, some reason, _ => .error reason
          { device with
            secureStore :=
              { device.secureStore with pin := some (hashPin pin salt) } }
      | none, none, some reason => .error reason
          { device with
            secureStore :=
              { device.secureStore with
                pin := some (hashPin pin salt)
                pinSalt := some salt } }
      | none, none, none => .ok true
          { secureStore :=
              { device.secureStore with
                pin := some (hashPin pin salt)
                pinSalt := some salt }
            settings := some
              (pinSettingsText writes.settings true device.settings) } := by
  obtain ⟨⟨atLeast, atMost⟩, digits⟩ := formatted
  have lengths : ¬(pinLength pin < 4 ∨ pinLength pin > 8) := by omega
  obtain ⟨pinFailure, pinSaltFailure, access⟩ := writes
  unfold setupPin
  rw [bind_of_ok (ensure_of_true lengths _ device),
    bind_of_ok (ensure_of_true digits _ device)]
  cases pinFailure with
  | some reason => rfl
  | none =>
      cases pinSaltFailure with
      | some reason => rfl
      | none =>
          have saved := onSettings_savePinEnabled access true
            { device with
              secureStore :=
                { device.secureStore with
                  pin := some (hashPin pin salt)
                  pinSalt := some salt } }
          cases granted : access.setItem with
          | some refusal =>
              rw [granted] at saved
              exact bind_of_error saved _
          | none =>
              rw [granted] at saved
              exact bind_of_ok saved _

/-- A setup that returns has stored the hash and its salt, of a well-formed
PIN. -/
theorem setupPin_returns
    {writes : PinWrites}
    {salt pin : String}
    {before after : Device}
    {result : Bool}
    (returns : setupPin writes salt pin before = .ok result after) :
    PinFormat pin ∧
      after.secureStore.pin = some (hashPin pin salt) ∧
      after.secureStore.pinSalt = some salt := by
  by_cases formatted : PinFormat pin
  · refine ⟨formatted, ?_⟩
    rw [setupPin_eq formatted] at returns
    split at returns
    · cases returns
    · cases returns
    · cases returns
    · cases returns
      exact ⟨rfl, rfl⟩
  · obtain ⟨reason, malformed⟩ :=
      setupPin_of_malformed formatted writes salt before
    rw [malformed] at returns
    cases returns

/-! ## Verifying the PIN -/

/-- The stored hash is the one of the string and the stored salt. -/
def Accepts (secureStore : SecureStore) (pin : String) : Prop :=
  ∃ salt, secureStore.pinSalt = some salt ∧ salt ≠ "" ∧
    secureStore.pin = some (hashPin pin salt)

/-- `verifyPin(pin)` succeeds on a store that can be read. -/
def Verifies (secureStore : SecureStore) (pin : String) : Prop :=
  ∀ lastAuthWrite, ∃ result after,
    verifyPin pin { lastAuthWrite := lastAuthWrite } secureStore =
      .ok result after ∧
    result.success = true

theorem verifies_iff_accepts (secureStore : SecureStore) (pin : String) :
    Verifies secureStore pin ↔ Accepts secureStore pin := by
  constructor
  · intro verifies
    obtain ⟨result, after, verified, success⟩ := verifies { dateNow := 0 }
    obtain ⟨_, _, returned, success_iff, _⟩ :=
      verifyPin_returns pin { lastAuthWrite := { dateNow := 0 } } secureStore
    cases verified.symm.trans returned
    exact (success_iff.mp success).2.2
  · intro accepts lastAuthWrite
    obtain ⟨result, after, returned, success_iff, _⟩ :=
      verifyPin_returns pin { lastAuthWrite := lastAuthWrite } secureStore
    exact ⟨result, after, returned, success_iff.mpr ⟨rfl, rfl, accepts⟩⟩

/-- A zero code unit in front does not change the hash, which starts from
zero. -/
theorem hashPin_zero_append (pin salt : String) :
    hashPin ("\x00" ++ pin) salt = hashPin pin salt := by
  have units : codeUnits ("\x00" ++ pin ++ salt) =
      0 :: codeUnits (pin ++ salt) := by
    rw [String.append_assoc, codeUnits, String.toList_append,
      List.flatMap_append]
    rfl
  have start : hashStep 0 0 = 0 := by decide
  unfold hashPin
  rw [units, List.foldl_cons, start]

theorem zero_append_ne (pin : String) : "\x00" ++ pin ≠ pin := by
  intro same
  have lengths := congrArg String.length same
  rw [String.length_append] at lengths
  change 1 + pin.length = pin.length at lengths
  omega

/-- `validatePin` accepts the well-formed PINs that are not weak. -/
theorem validatePin_valid_iff (pin : String) :
    (validatePin pin).valid = true ↔ PinFormat pin ∧ pin ∉ weakPins := by
  unfold validatePin PinFormat
  by_cases short : pinLength pin < 4
  · simp [short, Nat.not_le_of_lt short]
  by_cases long : pinLength pin > 8
  · simp [short, long, Nat.not_le_of_lt long]
  by_cases digits : isDigits pin = true
  · by_cases weak : pin ∈ weakPins
    · simp [short, long, digits, weak]
    · simp [short, long, digits, weak]
      omega
  · simp [short, long, digits]

/-- **PIN verification.**  After a setup that returns, verification never accepts
exactly the PIN: another string has its hash, or the salt is empty and nothing
is accepted.  What the setup accepted is valid unless it is a weak PIN. -/
theorem verifyPin_never_exact
    (writes : PinWrites)
    (salt pin : String)
    (before after : Device)
    (result : Bool)
    (returns : setupPin writes salt pin before = .ok result after) :
    ¬ (∀ q, Verifies after.secureStore q ↔ q = pin) ∧
      ((validatePin pin).valid = true ↔ pin ∉ weakPins) := by
  obtain ⟨formatted, hash, storedSalt⟩ := setupPin_returns returns
  constructor
  · intro exactly
    simp only [verifies_iff_accepts] at exactly
    obtain ⟨stored, isStored, notEmpty, sameHash⟩ := (exactly pin).mpr rfl
    have collides : Accepts after.secureStore ("\x00" ++ pin) := by
      refine ⟨stored, isStored, notEmpty, ?_⟩
      rw [hashPin_zero_append]
      exact sameHash
    exact zero_append_ne pin ((exactly _).mp collides)
  · rw [validatePin_valid_iff]
    exact and_iff_right formatted

/-- The hypothesis holds of a setup on an empty device. -/
theorem verifyPin_never_exact_4826 :
    ¬ (∀ q, Verifies
        { pin := some (hashPin "4826" "salt"), pinSalt := some "salt" } q ↔
          q = "4826") ∧
      ((validatePin "4826").valid = true ↔ "4826" ∉ weakPins) :=
  verifyPin_never_exact {} "salt" "4826" {}
    { secureStore :=
        { pin := some (hashPin "4826" "salt"), pinSalt := some "salt" }
      settings := some (pinSettingsText {} true none) } true
    (setupPin_eq (by decide +kernel : PinFormat "4826") {} "salt" {})

/-- Two strings verify after a setup with the weak PIN `1111`. -/
theorem verifyPin_collides :
    ∃ after, setupPin {} "salt" "1111" {} = .ok true after ∧
      Verifies after.secureStore "1111" ∧
      Verifies after.secureStore "\x001111" ∧
      (validatePin "1111").valid = false := by
  refine ⟨_, setupPin_eq (by decide +kernel) {} "salt" {}, ?_, ?_,
    by decide +kernel⟩
  · rw [verifies_iff_accepts]
    exact ⟨"salt", rfl, by decide, rfl⟩
  · rw [verifies_iff_accepts]
    refine ⟨"salt", rfl, by decide, ?_⟩
    decide +kernel

end Client
end Privachain
