import Privachain.Client.PinHash
import Privachain.Client.PinSetup
import Privachain.Foundation.Runs

/-!
# Changes of the PIN

The hash, the salt and the setting are written one after the other.  A rejected
write stops the call between them, so a change is atomic exactly when the pair
that is stored by then accepts the same strings as before.
-/

namespace Privachain
namespace Client

open Foundation
open Foundation.JavaScript
open Foundation.StatefulCall
open Foundation.StoredItem

/-! ## Calls -/

/-- A call that changes the PIN. -/
inductive PinCall
  | setupPin (pin : String)
  | changePin (oldPin newPin : String)
  | removePin

/-- A call with the salt that is drawn for it and the answers of the stores. -/
structure PinStep where
  call : PinCall
  salt : String
  writes : PinWrites := {}
  lastAuthWrite : LastAuthWrite := { dateNow := 0 }

/-- The PIN that a call sets. -/
def PinCall.newPin : PinCall -> Option String
  | .setupPin pin => some pin
  | .changePin _ newPin => some newPin
  | .removePin => none

/-- The call of a step. -/
def PinStep.perform (step : PinStep) : DeviceCall PUnit :=
  match step.call with
  | .setupPin pin => do
      let _ ← setupPin step.writes step.salt pin
      return ⟨⟩
  | .changePin oldPin newPin => do
      let _ ← changePin step.writes step.lastAuthWrite step.salt oldPin newPin
      return ⟨⟩
  | .removePin => do
      let _ ← removePin step.writes
      return ⟨⟩

/-- The device after a step. -/
def PinStep.apply (device : Device) (step : PinStep) : Device :=
  stateAfter step.perform device

/-- The device with another time of the last verification. -/
def noteAuth (device : Device) (lastAuth : Option String) : Device :=
  { device with
    secureStore := { device.secureStore with lastAuth := lastAuth } }

/-! ## Atomic calls -/

/-- Every verification reports that there is no PIN. -/
def ReportsNoPin (secureStore : SecureStore) : Prop :=
  ∀ pin lastAuthWrite, ∃ after,
    verifyPin pin { lastAuthWrite := lastAuthWrite } secureStore =
      .ok { success := false, error := some "PIN not set up" } after

/-- What a call that resolves leaves. -/
def PinCall.Fulfilled (call : PinCall) (after : Device) : Prop :=
  match call.newPin with
  | some pin =>
      Verifies after.secureStore pin ∧ pinEnabled after = .boolean true
  | none => ReportsNoPin after.secureStore ∧ pinEnabled after = .boolean false

/-- Verification and the setting are as they were. -/
def Undone (before after : Device) : Prop :=
  (∀ q, Verifies after.secureStore q ↔ Verifies before.secureStore q) ∧
    pinEnabled after = pinEnabled before

/-- The call is fulfilled when it resolves and undone when it throws. -/
def PinStep.Atomic (device : Device) (step : PinStep) : Prop :=
  Outcome step.perform device step.call.Fulfilled (Undone device)

/-- The stored pair comes from one setup of the run. -/
def StoredBySetup (steps : List PinStep) (device : Device) : Prop :=
  ∃ step ∈ steps, ∃ pin, step.call.newPin = some pin ∧
    device.secureStore.pin = some (hashPin pin step.salt) ∧
    device.secureStore.pinSalt = some step.salt

/-- The device after a list of steps, which starts with empty stores. -/
def deviceAfter (steps : List PinStep) : Device :=
  run PinStep.apply {} steps

/-- Every call of the run is atomic, and in every state an enabled PIN has its
hash and the salt of that hash stored. -/
structure AtomicRun (steps : List PinStep) : Prop where
  atomic : ∀ earlier next later, steps = earlier ++ next :: later ->
    next.Atomic (deviceAfter earlier)
  enabled : ∀ earlier later, steps = earlier ++ later ->
    pinEnabled (deviceAfter earlier) = .boolean true ->
    StoredBySetup earlier (deviceAfter earlier)

/-! ## Safe failures -/

/-- A hash alone replaces a hash safely when it is the same one, or no salt is
stored that verifies. -/
def SameHash (salt pin : String) (secureStore : SecureStore) : Prop :=
  ∀ stored, secureStore.pinSalt = some stored -> stored ≠ "" ->
    secureStore.pin = some (hashPin pin salt)

/-- A hash and its salt replace a pair safely when the stored hash is one of the
same PIN under an alike salt, or neither pair accepts anything. -/
def SamePair (salt pin : String) (secureStore : SecureStore) : Prop :=
  if salt = "" then ∀ q, ¬Accepts secureStore q
  else ∃ stored, secureStore.pinSalt = some stored ∧ stored ≠ "" ∧
    secureStore.pin = some (hashPin pin stored) ∧ SaltsAlike salt stored

/-- A setup is refused, or its first write is, or the next one that is comes after
a safe replacement, or none is and the salt is not empty. -/
def SetupSafely
    (writes : PinWrites)
    (salt pin : String)
    (device : Device) : Prop :=
  PinFormat pin -> writes.pin = none ->
    match writes.pinSalt, writes.settings.setItem with
    | some _, _ => SameHash salt pin device.secureStore
    | none, some _ => SamePair salt pin device.secureStore
    | none, none => salt ≠ ""

/-- A removal is rejected at its first write or not at all, or nothing is
accepted before. -/
def RemoveSafely (writes : PinWrites) (device : Device) : Prop :=
  writes.pin = none ->
    writes.pinSalt ≠ none ∨ writes.settings.setItem ≠ none ->
    ∀ q, ¬Accepts device.secureStore q

/-- The step does not stop at a pair that accepts other strings. -/
def PinStep.FailsSafely (device : Device) (step : PinStep) : Prop :=
  match step.call with
  | .setupPin pin => SetupSafely step.writes step.salt pin device
  | .changePin oldPin newPin =>
      Accepts device.secureStore oldPin ->
        SetupSafely step.writes step.salt newPin device
  | .removePin => RemoveSafely step.writes device

/-! ## One call -/

/-- The setting depends on its item only. -/
theorem pinEnabled_congr
    {left right : Device}
    (same : left.settings = right.settings) :
    pinEnabled left = pinEnabled right := by
  rw [pinEnabled, pinEnabled, same]

theorem undone_iff
    {before after : Device}
    (sameSettings : after.settings = before.settings) :
    Undone before after ↔
      ∀ q, Accepts after.secureStore q ↔ Accepts before.secureStore q := by
  rw [Undone, and_iff_left (pinEnabled_congr sameSettings)]
  simp only [verifies_iff_accepts]

/-- A hash alone keeps what is accepted exactly when it replaces safely. -/
theorem accepts_hash_iff
    (salt pin : String)
    (secureStore : SecureStore) :
    (∀ q,
      Accepts { secureStore with pin := some (hashPin pin salt) } q ↔
        Accepts secureStore q) ↔
      SameHash salt pin secureStore := by
  constructor
  · intro same stored isStored notEmpty
    -- the new hash has a string under the old salt, too
    obtain ⟨q, sameHash⟩ := exists_hashPin_eq pin salt stored
    obtain ⟨old, isOld, _, oldHash⟩ :=
      (same q).mp ⟨stored, isStored, notEmpty, congrArg some sameHash.symm⟩
    obtain rfl := Option.some.inj (isStored.symm.trans isOld)
    rw [oldHash, sameHash]
  · intro same q
    constructor
    · rintro ⟨stored, isStored, notEmpty, newHash⟩
      exact ⟨stored, isStored, notEmpty,
        (same stored isStored notEmpty).trans newHash⟩
    · rintro ⟨stored, isStored, notEmpty, oldHash⟩
      exact ⟨stored, isStored, notEmpty,
        (same stored isStored notEmpty).symm.trans oldHash⟩

/-- A new pair accepts the strings with its hash, if its salt is not empty. -/
theorem accepts_pair_iff
    (salt pin q : String)
    (secureStore : SecureStore) :
    Accepts
        { secureStore with
          pin := some (hashPin pin salt)
          pinSalt := some salt } q ↔
      salt ≠ "" ∧ hashPin q salt = hashPin pin salt := by
  constructor
  · rintro ⟨stored, isStored, notEmpty, sameHash⟩
    obtain rfl := Option.some.inj isStored
    exact ⟨notEmpty, (Option.some.inj sameHash).symm⟩
  · rintro ⟨notEmpty, sameHash⟩
    exact ⟨salt, rfl, notEmpty, congrArg some sameHash.symm⟩

/-- A new pair keeps what is accepted exactly when it replaces safely. -/
theorem accepts_newPair_iff
    (salt pin : String)
    (secureStore : SecureStore) :
    (∀ q,
      Accepts
          { secureStore with
            pin := some (hashPin pin salt)
            pinSalt := some salt } q ↔
        Accepts secureStore q) ↔
      SamePair salt pin secureStore := by
  simp only [accepts_pair_iff]
  rw [SamePair]
  by_cases empty : salt = ""
  · rw [if_pos empty]
    refine forall_congr' fun q => ?_
    exact iff_false_left fun accepted => accepted.1 empty
  · rw [if_neg empty]
    have hashIff : ∀ {stored}, secureStore.pinSalt = some stored -> stored ≠ "" ->
        secureStore.pin = some (hashPin pin stored) ->
        ∀ q, Accepts secureStore q ↔ hashPin q stored = hashPin pin stored := by
      intro stored isStored notEmpty sameHash q
      rw [Accepts, isStored, sameHash]
      simp [notEmpty, eq_comm]
    constructor
    · intro same
      obtain ⟨stored, isStored, notEmpty, sameHash⟩ := (same pin).mp ⟨empty, rfl⟩
      refine ⟨stored, isStored, notEmpty, sameHash, ?_⟩
      rw [← sameHashes_iff pin]
      intro q
      rw [← hashIff isStored notEmpty sameHash, ← same q, and_iff_right empty]
    · rintro ⟨stored, isStored, notEmpty, sameHash, alike⟩ q
      rw [hashIff isStored notEmpty sameHash, and_iff_right empty]
      exact (sameHashes_iff pin salt stored).mpr alike q

theorem undone_refl (device : Device) : Undone device device :=
  ⟨fun _ => Iff.rfl, rfl⟩

/-- Without a stored hash there is no PIN. -/
theorem reportsNoPin_of_none
    {secureStore : SecureStore}
    (noHash : secureStore.pin = none) :
    ReportsNoPin secureStore := by
  intro pin lastAuthWrite
  refine ⟨secureStore, ?_⟩
  have compared : comparePin pin { lastAuthWrite := lastAuthWrite } secureStore =
      .ok { success := false, error := some "PIN not set up" } secureStore := by
    change compareItems pin lastAuthWrite (secureStore.pin.filter (· ≠ "")) _
      secureStore = _
    rw [noHash]
    rfl
  exact tryCatch_of_ok compared _

/-- On a PIN of the right format the writes decide what a setup leaves. -/
theorem outcome_setupPin_cases
    {pin : String}
    (formatted : PinFormat pin)
    (writes : PinWrites)
    (salt : String)
    (device : Device)
    (returned failed : Device -> Prop) :
    Outcome (setupPin writes salt pin) device returned failed ↔
      match writes.pin, writes.pinSalt, writes.settings.setItem with
      | some _, _, _ => failed device
      | none, some _, _ => failed
          { device with
            secureStore :=
              { device.secureStore with pin := some (hashPin pin salt) } }
      | none, none, some _ => failed
          { device with
            secureStore :=
              { device.secureStore with
                pin := some (hashPin pin salt)
                pinSalt := some salt } }
      | none, none, none => returned
          { secureStore :=
              { device.secureStore with
                pin := some (hashPin pin salt)
                pinSalt := some salt }
            settings := some
              (pinSettingsText writes.settings true device.settings) } := by
  rw [Outcome, setupPin_eq formatted]
  cases writes.pin with
  | some reason => rfl
  | none =>
      cases writes.pinSalt with
      | some reason => rfl
      | none =>
          cases writes.settings.setItem with
          | some reason => rfl
          | none => rfl

/-- A setup is atomic exactly when it fails safely. -/
theorem outcome_setupPin_iff
    (writes : PinWrites)
    (salt pin : String)
    (device : Device) :
    Outcome (setupPin writes salt pin) device
        (fun after => Verifies after.secureStore pin ∧
          pinEnabled after = .boolean true)
        (Undone device) ↔
      SetupSafely writes salt pin device := by
  by_cases formatted : PinFormat pin
  · rw [outcome_setupPin_cases formatted, SetupSafely,
      forall_prop_of_true formatted]
    cases writes.pin with
    | some reason =>
        exact iff_of_true (undone_refl device) fun impossible => nomatch impossible
    | none =>
        rw [forall_prop_of_true rfl]
        cases writes.pinSalt with
        | some reason =>
            dsimp only
            rw [← accepts_hash_iff]
            exact undone_iff rfl
        | none =>
            cases writes.settings.setItem with
            | some reason =>
                dsimp only
                rw [← accepts_newPair_iff]
                exact undone_iff rfl
            | none =>
                rw [and_iff_left (pinEnabled_saved _ _ _ _), verifies_iff_accepts]
                constructor
                · rintro ⟨stored, isStored, notEmpty, _⟩
                  obtain rfl := Option.some.inj isStored
                  exact notEmpty
                · intro notEmpty
                  exact ⟨salt, rfl, notEmpty, rfl⟩
  · obtain ⟨reason, fails⟩ := setupPin_of_malformed formatted writes salt device
    rw [outcome_of_error fails]
    exact iff_of_true (undone_refl device)
      fun impossible => absurd impossible formatted

/-- Verifying a PIN notes the time at most. -/
theorem onSecureStore_verifyPin
    (pin : String)
    (lastAuthWrite : LastAuthWrite)
    (device : Device) :
    ∃ result lastAuth,
      onSecureStore (verifyPin pin { lastAuthWrite := lastAuthWrite }) device =
        .ok result (noteAuth device lastAuth) ∧
      (result.success = true ↔ Accepts device.secureStore pin) := by
  obtain ⟨result, ⟨afterPin, afterSalt, lastAuth⟩, returned, success_iff,
      samePin, sameSalt⟩ :=
    verifyPin_returns pin { lastAuthWrite := lastAuthWrite } device.secureStore
  obtain rfl : afterPin = device.secureStore.pin := samePin
  obtain rfl : afterSalt = device.secureStore.pinSalt := sameSalt
  refine ⟨result, lastAuth, ?_, ?_⟩
  · rw [onSecureStore, onPart_of_ok returned]
    rfl
  · rw [success_iff]
    exact ⟨fun matches_ => matches_.2.2, fun accepts => ⟨rfl, rfl, accepts⟩⟩

/-- A change with a PIN that is accepted is a setup. -/
theorem changePin_of_accepts
    (writes : PinWrites)
    (lastAuthWrite : LastAuthWrite)
    (salt newPin : String)
    {oldPin : String}
    {device : Device}
    (accepted : Accepts device.secureStore oldPin) :
    ∃ lastAuth,
      changePin writes lastAuthWrite salt oldPin newPin device =
        (setupPin writes salt newPin >>= fun _ => pure true)
          (noteAuth device lastAuth) := by
  obtain ⟨result, lastAuth, verified, success_iff⟩ :=
    onSecureStore_verifyPin oldPin lastAuthWrite device
  refine ⟨lastAuth, ?_⟩
  unfold changePin
  rw [bind_of_ok verified]
  exact bind_of_ok (ensure_of_true (success_iff.mpr accepted) _ _) _

/-- A change with any other PIN throws before it writes. -/
theorem changePin_of_not_accepts
    (writes : PinWrites)
    (lastAuthWrite : LastAuthWrite)
    (salt newPin : String)
    {oldPin : String}
    {device : Device}
    (refused : ¬Accepts device.secureStore oldPin) :
    ∃ lastAuth reason,
      changePin writes lastAuthWrite salt oldPin newPin device =
        .error reason (noteAuth device lastAuth) := by
  obtain ⟨result, lastAuth, verified, success_iff⟩ :=
    onSecureStore_verifyPin oldPin lastAuthWrite device
  have wrong : ¬result.success = true := fun success =>
    refused (success_iff.mp success)
  refine ⟨lastAuth, .error "Current PIN is incorrect", ?_⟩
  unfold changePin
  rw [bind_of_ok verified]
  exact bind_of_error (ensure_of_false wrong _ _) _

/-- On a removal the writes decide. -/
theorem removePin_eq (writes : PinWrites) (device : Device) :
    removePin writes device =
      match writes.pin, writes.pinSalt, writes.settings.setItem with
      | some reason, _, _ => .error reason device
      | none, some reason, _ => .error reason
          { device with
            secureStore := { device.secureStore with pin := none } }
      | none, none, some reason => .error reason
          { device with
            secureStore :=
              { device.secureStore with pin := none, pinSalt := none } }
      | none, none, none => .ok ⟨⟩
          { secureStore :=
              { device.secureStore with pin := none, pinSalt := none }
            settings := some
              (pinSettingsText writes.settings false device.settings) } := by
  obtain ⟨pinFailure, pinSaltFailure, access⟩ := writes
  unfold removePin
  cases pinFailure with
  | some reason => rfl
  | none =>
      cases pinSaltFailure with
      | some reason => rfl
      | none =>
          have saved := onSettings_savePinEnabled access false
            { device with
              secureStore :=
                { device.secureStore with pin := none, pinSalt := none } }
          cases granted : access.setItem with
          | some refusal =>
              rw [granted] at saved
              exact saved
          | none =>
              rw [granted] at saved
              exact saved

/-- The writes decide what a removal leaves. -/
theorem outcome_removePin_cases
    (writes : PinWrites)
    (device : Device)
    (returned failed : Device -> Prop) :
    Outcome (removePin writes) device returned failed ↔
      match writes.pin, writes.pinSalt, writes.settings.setItem with
      | some _, _, _ => failed device
      | none, some _, _ => failed
          { device with
            secureStore := { device.secureStore with pin := none } }
      | none, none, some _ => failed
          { device with
            secureStore :=
              { device.secureStore with pin := none, pinSalt := none } }
      | none, none, none => returned
          { secureStore :=
              { device.secureStore with pin := none, pinSalt := none }
            settings := some
              (pinSettingsText writes.settings false device.settings) } := by
  rw [Outcome, removePin_eq]
  cases writes.pin with
  | some reason => rfl
  | none =>
      cases writes.pinSalt with
      | some reason => rfl
      | none =>
          cases writes.settings.setItem with
          | some reason => rfl
          | none => rfl

theorem not_accepts_of_none
    {secureStore : SecureStore}
    (noHash : secureStore.pin = none)
    (q : String) :
    ¬Accepts secureStore q := by
  rintro ⟨salt, _, _, sameHash⟩
  rw [noHash] at sameHash
  cases sameHash

/-- Without a hash a removal that fails is undone when nothing was accepted. -/
theorem undone_iff_of_none
    {before after : Device}
    (sameSettings : after.settings = before.settings)
    (noHash : after.secureStore.pin = none) :
    Undone before after ↔ ∀ q, ¬Accepts before.secureStore q := by
  rw [undone_iff sameSettings]
  refine forall_congr' fun q => ?_
  rw [iff_false_left (not_accepts_of_none noHash q)]

/-- A removal is atomic exactly when it fails safely. -/
theorem outcome_removePin_iff (writes : PinWrites) (device : Device) :
    Outcome (removePin writes) device
        (fun after => ReportsNoPin after.secureStore ∧
          pinEnabled after = .boolean false)
        (Undone device) ↔
      RemoveSafely writes device := by
  rw [outcome_removePin_cases, RemoveSafely]
  cases writes.pin with
  | some reason =>
      exact iff_of_true (undone_refl device) fun impossible => nomatch impossible
  | none =>
      rw [forall_prop_of_true rfl]
      cases writes.pinSalt with
      | some reason =>
          rw [forall_prop_of_true (.inl (Option.some_ne_none reason))]
          exact undone_iff_of_none rfl rfl
      | none =>
          cases writes.settings.setItem with
          | some reason =>
              rw [forall_prop_of_true (.inr (Option.some_ne_none reason))]
              exact undone_iff_of_none rfl rfl
          | none =>
              refine iff_of_true ⟨reportsNoPin_of_none rfl, ?_⟩ ?_
              · exact pinEnabled_saved _ _ _ _
              · rintro (impossible | impossible)
                · exact absurd rfl impossible
                · exact absurd rfl impossible

theorem undone_noteAuth
    (before after : Device)
    (lastAuth : Option String) :
    Undone (noteAuth before lastAuth) after ↔ Undone before after := by
  simp only [Undone, verifies_iff_accepts]
  exact Iff.rfl

/-- A change is atomic exactly when the setup in it fails safely, if it comes to
the setup. -/
theorem outcome_changePin_iff
    (writes : PinWrites)
    (lastAuthWrite : LastAuthWrite)
    (salt oldPin newPin : String)
    (device : Device) :
    Outcome (changePin writes lastAuthWrite salt oldPin newPin) device
        (fun after => Verifies after.secureStore newPin ∧
          pinEnabled after = .boolean true)
        (Undone device) ↔
      (Accepts device.secureStore oldPin ->
        SetupSafely writes salt newPin device) := by
  by_cases accepted : Accepts device.secureStore oldPin
  · obtain ⟨lastAuth, changed⟩ :=
      changePin_of_accepts writes lastAuthWrite salt newPin accepted
    rw [forall_prop_of_true accepted, Outcome, changed]
    have setup := outcome_setupPin_iff writes salt newPin
      (noteAuth device lastAuth)
    rw [← outcome_bind_pure _ true, Outcome] at setup
    simp only [undone_noteAuth] at setup
    exact setup
  · obtain ⟨lastAuth, reason, thrown⟩ :=
      changePin_of_not_accepts writes lastAuthWrite salt newPin accepted
    rw [outcome_of_error thrown]
    refine iff_of_true ?_ fun impossible => absurd impossible accepted
    have sameSettings : (noteAuth device lastAuth).settings = device.settings :=
      rfl
    exact (undone_iff sameSettings).mpr fun _ => Iff.rfl

/-- **One call.**  A call is atomic exactly when it fails safely. -/
theorem PinStep.atomic_iff_failsSafely (device : Device) (step : PinStep) :
    step.Atomic device ↔ step.FailsSafely device := by
  obtain ⟨call, salt, writes, lastAuthWrite⟩ := step
  unfold PinStep.Atomic PinStep.perform
  cases call with
  | setupPin pin =>
      exact (outcome_bind_pure _ _ _ _ _).trans (outcome_setupPin_iff _ _ _ _)
  | changePin oldPin newPin =>
      exact (outcome_bind_pure _ _ _ _ _).trans
        (outcome_changePin_iff _ _ _ _ _ _)
  | removePin =>
      exact (outcome_bind_pure _ _ _ _ _).trans (outcome_removePin_iff _ _)

/-! ## Runs -/

/-- An enabled PIN has its hash and the salt of that hash stored, and the salt is
not empty. -/
def Sound (steps : List PinStep) (device : Device) : Prop :=
  pinEnabled device = .boolean true ->
    StoredBySetup steps device ∧ ∃ q, Accepts device.secureStore q

/-- The stored pair still comes from a setup when there are more steps. -/
theorem StoredBySetup.append
    {earlier : List PinStep}
    {device : Device}
    (stored : StoredBySetup earlier device)
    (later : List PinStep) :
    StoredBySetup (earlier ++ later) device := by
  obtain ⟨step, member, rest⟩ := stored
  exact ⟨step, List.mem_append_left later member, rest⟩

theorem Sound.append
    {earlier : List PinStep}
    {device : Device}
    (sound : Sound earlier device)
    (later : List PinStep) :
    Sound (earlier ++ later) device := by
  intro enabled
  obtain ⟨stored, accepts⟩ := sound enabled
  exact ⟨stored.append later, accepts⟩

/-- A setup that fails safely keeps an enabled PIN stored. -/
theorem sound_setupPin
    {earlier : List PinStep}
    {next : PinStep}
    {pin : String}
    {device : Device}
    (isNew : next.call.newPin = some pin)
    (safely : SetupSafely next.writes next.salt pin device)
    (sound : Sound earlier device) :
    Outcome (setupPin next.writes next.salt pin) device
      (Sound (earlier ++ [next])) (Sound (earlier ++ [next])) := by
  have fromNext : ∀ after : Device,
      after.secureStore.pin = some (hashPin pin next.salt) ->
      after.secureStore.pinSalt = some next.salt ->
      StoredBySetup (earlier ++ [next]) after :=
    fun after hash salt => ⟨next, by simp, pin, isNew, hash, salt⟩
  by_cases formatted : PinFormat pin
  · rw [SetupSafely, forall_prop_of_true formatted] at safely
    rw [outcome_setupPin_cases formatted]
    cases pinFailure : next.writes.pin with
    | some reason => exact sound.append [next]
    | none =>
        have safe := safely pinFailure
        cases pinSaltFailure : next.writes.pinSalt with
        | some reason =>
            rw [pinSaltFailure] at safe
            intro enabled
            obtain ⟨stored, q, accepted⟩ := sound enabled
            refine ⟨?_, q, ((accepts_hash_iff _ _ _).mpr safe q).mpr accepted⟩
            -- the new hash is the one that was stored, so the pair is the old one
            obtain ⟨storedSalt, isSalt, notEmpty, _⟩ := accepted
            have sameHash := safe storedSalt isSalt notEmpty
            obtain ⟨step, member, old, isOld, oldHash, oldSalt⟩ :=
              stored.append [next]
            exact ⟨step, member, old, isOld, sameHash.symm.trans oldHash, oldSalt⟩
        | none =>
            rw [pinSaltFailure] at safe
            cases granted : next.writes.settings.setItem with
            | some reason =>
                rw [granted] at safe
                intro enabled
                obtain ⟨_, q, accepted⟩ := sound enabled
                exact ⟨fromNext _ rfl rfl, q,
                  ((accepts_newPair_iff _ _ _).mpr safe q).mpr accepted⟩
            | none =>
                rw [granted] at safe
                intro _
                exact ⟨fromNext _ rfl rfl, pin, next.salt, rfl, safe, rfl⟩
  · obtain ⟨reason, fails⟩ :=
      setupPin_of_malformed formatted next.writes next.salt device
    exact (outcome_of_error fails _ _).mpr (sound.append [next])

/-- A removal that fails safely fails with a disabled PIN or at its first
write. -/
theorem sound_removePin
    {earlier : List PinStep}
    {next : PinStep}
    {device : Device}
    (safely : RemoveSafely next.writes device)
    (sound : Sound earlier device) :
    Outcome (removePin next.writes) device
      (Sound (earlier ++ [next])) (Sound (earlier ++ [next])) := by
  have disabled : (∀ q, ¬Accepts device.secureStore q) ->
      pinEnabled device ≠ .boolean true := by
    intro nothing enabled
    obtain ⟨_, q, accepted⟩ := sound enabled
    exact nothing q accepted
  rw [outcome_removePin_cases]
  cases pinFailure : next.writes.pin with
  | some reason => exact sound.append [next]
  | none =>
      have safe := safely pinFailure
      cases pinSaltFailure : next.writes.pinSalt with
      | some reason =>
          rw [pinSaltFailure] at safe
          have nothing := safe (.inl (Option.some_ne_none reason))
          exact fun enabled => absurd enabled (disabled nothing)
      | none =>
          cases granted : next.writes.settings.setItem with
          | some reason =>
              rw [granted] at safe
              have nothing := safe (.inr (Option.some_ne_none reason))
              exact fun enabled => absurd enabled (disabled nothing)
          | none =>
              intro enabled
              rw [pinEnabled_saved] at enabled
              cases enabled

/-- A step that fails safely keeps an enabled PIN stored. -/
theorem Sound.apply
    {earlier : List PinStep}
    {device : Device}
    (sound : Sound earlier device)
    (next : PinStep)
    (safely : next.FailsSafely device) :
    Sound (earlier ++ [next]) (next.apply device) := by
  apply stateAfter_of_outcome
  unfold PinStep.FailsSafely at safely
  unfold PinStep.perform
  cases called : next.call with
  | setupPin pin =>
      rw [called] at safely
      rw [outcome_bind_pure]
      exact sound_setupPin (by rw [called]; rfl) safely sound
  | changePin oldPin newPin =>
      rw [called] at safely
      rw [outcome_bind_pure]
      by_cases accepted : Accepts device.secureStore oldPin
      · obtain ⟨lastAuth, changed⟩ := changePin_of_accepts next.writes
          next.lastAuthWrite next.salt newPin accepted
        rw [Outcome, changed]
        have noted : Sound earlier (noteAuth device lastAuth) := sound
        exact (outcome_bind_pure _ _ _ _ _).mpr
          (sound_setupPin (by rw [called]; rfl) (safely accepted) noted)
      · obtain ⟨lastAuth, reason, thrown⟩ := changePin_of_not_accepts next.writes
          next.lastAuthWrite next.salt newPin accepted
        exact (outcome_of_error thrown _ _).mpr (sound.append [next])
  | removePin =>
      rw [called] at safely
      rw [outcome_bind_pure]
      exact sound_removePin safely sound

/-- After steps that fail safely an enabled PIN is stored. -/
theorem sound_deviceAfter
    {steps : List PinStep}
    (safely : Allowed PinStep.apply PinStep.FailsSafely {} steps) :
    Sound steps (deviceAfter steps) := by
  have initially : Sound [] {} := by
    intro enabled
    cases enabled
  have preserved := run_history_invariant
    (fun device past => Sound past device)
    (fun device past next nextSafely sound => sound.apply next nextSafely)
    initially safely
  rw [history_steps] at preserved
  exact preserved

theorem AtomicRun.failsSafely
    {earlier later : List PinStep}
    {next : PinStep}
    (atomicRun : AtomicRun (earlier ++ next :: later)) :
    next.FailsSafely (deviceAfter earlier) :=
  (next.atomic_iff_failsSafely _).mp (atomicRun.atomic earlier next later rfl)

/-- **Changes of the PIN.**  In a run from empty stores every call is atomic, and
an enabled PIN always has its hash and the salt of that hash stored, exactly when
every step fails safely. -/
theorem atomicRun_iff (steps : List PinStep) :
    AtomicRun steps ↔ Allowed PinStep.apply PinStep.FailsSafely {} steps := by
  constructor
  · intro atomicRun
    rw [allowed_iff_forall_split]
    rintro earlier next later rfl
    exact atomicRun.failsSafely
  · intro safely
    constructor
    · intro earlier next later split
      exact (next.atomic_iff_failsSafely _).mpr
        ((allowed_iff_forall_split _ _ _ _).mp safely earlier next later split)
    · rintro earlier later rfl enabled
      exact (sound_deviceAfter ((allowed_append _ _ _ _ _).mp safely).1
        enabled).1

/-- A change of the PIN whose second write is rejected leaves the new hash with
the old salt. -/
theorem changePin_not_atomic :
    ¬AtomicRun [
      { call := .setupPin "4826", salt := "salt" },
      { call := .changePin "4826" "7391"
        salt := "pepper"
        writes := { pinSalt := some (.error "rejected") } }] := by
  intro atomicRun
  have safely := @AtomicRun.failsSafely
    [{ call := .setupPin "4826", salt := "salt" }] [] _ atomicRun
  have isSetUp : deviceAfter [{ call := .setupPin "4826", salt := "salt" }] =
      { secureStore :=
          { pin := some (hashPin "4826" "salt"), pinSalt := some "salt" }
        settings := some (pinSettingsText {} true none) } := by
    have formatted : PinFormat "4826" := by decide +kernel
    have returns := bind_of_ok (setupPin_eq formatted {} "salt" {})
      fun _ => (pure ⟨⟩ : DeviceCall PUnit)
    rw [deviceAfter, run_cons, run_nil, PinStep.apply, PinStep.perform]
    dsimp only
    rw [stateAfter, returns]
    rfl
  rw [isSetUp] at safely
  have accepted : Accepts
      { pin := some (hashPin "4826" "salt"), pinSalt := some "salt" } "4826" :=
    ⟨"salt", rfl, by decide, rfl⟩
  have sameHash : SameHash "pepper" "7391"
      { pin := some (hashPin "4826" "salt"), pinSalt := some "salt" } :=
    safely accepted (by decide +kernel) rfl
  have collides := Option.some.inj (sameHash "salt" rfl (by decide))
  revert collides
  decide +kernel

end Client
end Privachain
