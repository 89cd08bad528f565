import Privachain.Client.Settings
import Privachain.Foundation.Numbers

/-!
# When the wallet is to be locked

`shouldLock` compares the time since the last authentication with the timeout of
the settings.  It answers a thrown exception with a lock, but a comparison with
what is not a number, or with a time that has not come, is false.
-/

namespace Privachain
namespace Client

open Foundation
open Foundation.JavaScript
open DatabaseTexts

/-! ## The decision -/

/-- `getLastAuthTime()`, on the outcome of its read. -/
def getLastAuthTime (read : Except Exception (Option String)) : Number :=
  match read with
  | .ok (some time) => if time = "" then .finite 0 else parseInt time
  | .ok none => .finite 0
  | .error _ => .finite 0

/-- `autoLockTimeout * 60 * 1000` -/
def timeoutMs (autoLockTimeout : Number) : Number :=
  (autoLockTimeout.mul (.finite 60)).mul (.finite 1000)

/-- What a decision reads: the outcomes of the two reads and the time. -/
structure LockReads where
  settings : Except Exception (Option String)
  lastAuth : Except Exception (Option String)
  dateNow : Int

namespace LockReads

variable (reads : LockReads)

/-- `settings.autoLock` -/
def autoLock : Value :=
  propertyOf (getSettings reads.settings) "autoLock"

/-- `settings.autoLockTimeout` -/
def autoLockTimeout : Value :=
  propertyOf (getSettings reads.settings) "autoLockTimeout"

/-- `now` -/
def now : Number := .finite reads.dateNow

/-- `now - lastAuth` -/
def elapsed : Number := reads.now.sub (getLastAuthTime reads.lastAuth)

end LockReads

/-- The `try` block of `shouldLock`. -/
def compareLastAuth (reads : LockReads) : Except Exception Bool := do
  if !reads.autoLock.truthy then
    return false
  let timeout := timeoutMs (← numberOf reads.autoLockTimeout)
  return timeout.less reads.elapsed

/-- `shouldLock()` -/
def shouldLock (reads : LockReads) : Bool :=
  match compareLastAuth reads with
  | .ok locked => locked
  | .error _ => true

/-! ## Failing secure -/

/-- The stored settings parse, and their own `autoLock` is falsy. -/
def AutoLockDisabled (settings : Except Exception (Option String)) : Prop :=
  ∃ parsed value, readContent settings = .ok (some parsed) ∧
    (ownFields parsed).lookup "autoLock" = some value ∧ value.truthy = false

/-- The stored value denotes a time. -/
def DenotesTime
    (lastAuth : Except Exception (Option String))
    (time : Number) : Prop :=
  ∃ text, lastAuth = .ok (some text) ∧ parseInt text = time ∧
    time ≠ .notANumber

/-- The wallet stays open only when the settings disable the lock, or no more than
the timeout has passed since the time that is stored. -/
def FailsSecure (reads : LockReads) : Prop :=
  shouldLock reads = false ->
    AutoLockDisabled reads.settings ∨
    ∃ time minutes, DenotesTime reads.lastAuth time ∧
      numericValue reads.autoLockTimeout = some minutes ∧
      time.lessEq reads.now = true ∧
      (reads.now.sub time).lessEq (timeoutMs minutes) = true

/-- The settings disable the lock; or their timeout throws in the conversion to a
number, or is converted to one that has passed; or it is a number, and the stored
value denotes a time that is not in the future. -/
def ReadsSecurely (reads : LockReads) : Prop :=
  AutoLockDisabled reads.settings ∨
    (∃ error, numberOf reads.autoLockTimeout = .error error) ∨
    (∃ minutes, numberOf reads.autoLockTimeout = .ok minutes ∧
      (timeoutMs minutes).less reads.elapsed = true) ∨
    ∃ time, DenotesTime reads.lastAuth time ∧
      time.lessEq reads.now = true ∧
      (numericValue reads.autoLockTimeout).isSome = true

/-! ## The lock is disabled by what is stored -/

/-- A setting is the stored one, or its default. -/
theorem propertyOf_getSettings
    (settings : Except Exception (Option String))
    (name : String) :
    propertyOf (getSettings settings) name =
      match readContent settings with
      | .ok (some parsed) =>
          ((ownFields parsed).lookup name).getD
            (propertyOf (.object defaultSettings) name)
      | _ => propertyOf (.object defaultSettings) name := by
  unfold getSettings getStored
  cases reads : readContent settings with
  | error reason => rfl
  | ok content =>
      cases content with
      | none => rfl
      | some parsed =>
          have own := isOwn_ownFields (isParsed_of_readContent reads)
          rw [propertyOf, Value.property]
          dsimp only
          rw [lookup_spread_of_nodup _ own.nodup]
          cases (ownFields parsed).lookup name with
          | none => rfl
          | some value => rfl

theorem autoLock_falsy_iff (reads : LockReads) :
    reads.autoLock.truthy = false ↔ AutoLockDisabled reads.settings := by
  have enabled :
      (propertyOf (.object defaultSettings) "autoLock").truthy = true := rfl
  rw [LockReads.autoLock, propertyOf_getSettings, AutoLockDisabled]
  cases reading : readContent reads.settings with
  | error reason => simp [enabled]
  | ok content =>
      cases content with
      | none => simp [enabled]
      | some parsed =>
          cases found : (ownFields parsed).lookup "autoLock" with
          | none => simp [found, enabled]
          | some value => simp [found]

/-! ## When the wallet stays open -/

/-- The wallet stays open exactly when the lock is disabled, or its timeout is
converted and does not compare as passed. -/
theorem shouldLock_eq_false_iff (reads : LockReads) :
    shouldLock reads = false ↔
      AutoLockDisabled reads.settings ∨
      ∃ minutes, numberOf reads.autoLockTimeout = .ok minutes ∧
        (timeoutMs minutes).less reads.elapsed = false := by
  rw [← autoLock_falsy_iff, shouldLock, compareLastAuth]
  cases enabled : reads.autoLock.truthy with
  | false => exact iff_of_true rfl (.inl rfl)
  | true =>
      cases converted : numberOf reads.autoLockTimeout with
      | error reason =>
          refine iff_of_false (fun impossible => nomatch impossible) ?_
          rintro (impossible | ⟨minutes, impossible, _⟩)
          · cases impossible
          · cases impossible
      | ok minutes =>
          change (timeoutMs minutes).less reads.elapsed = false ↔ _
          simp

/-- A value that is not a number keeps the wallet open, whatever the timeout. -/
theorem shouldLock_of_notANumber
    {reads : LockReads}
    (unreadable : getLastAuthTime reads.lastAuth = .notANumber)
    {minutes : Number}
    (converted : numberOf reads.autoLockTimeout = .ok minutes) :
    shouldLock reads = false := by
  refine (shouldLock_eq_false_iff reads).mpr (.inr ⟨minutes, converted, ?_⟩)
  rw [LockReads.elapsed, unreadable, Number.sub_notANumber,
    Number.less_notANumber]

/-! ## When it stays open securely -/

/-- A value that denotes a time is read as that time. -/
theorem DenotesTime.getLastAuthTime_eq
    {lastAuth : Except Exception (Option String)}
    {time : Number}
    (denotes : DenotesTime lastAuth time) :
    getLastAuthTime lastAuth = time := by
  obtain ⟨text, rfl, parsed, isNumber⟩ := denotes
  have notEmpty : text ≠ "" := by
    rintro rfl
    exact isNumber (parsed.symm.trans rfl)
  rw [getLastAuthTime, if_neg notEmpty, parsed]

/-- The timeout of a number is one. -/
theorem timeoutMs_ne_notANumber
    {minutes : Number}
    (isNumber : minutes ≠ .notANumber) :
    timeoutMs minutes ≠ .notANumber :=
  Number.mul_ne_notANumber
    (Number.mul_ne_notANumber isNumber (by decide)) (by decide)

/-- The timeout of the settings is a number if it is of that type. -/
theorem LockReads.minutes_ne_notANumber
    {reads : LockReads}
    {minutes : Number}
    (numeric : numericValue reads.autoLockTimeout = some minutes) :
    minutes ≠ .notANumber := by
  have byDefault : numericValue
      (propertyOf (.object defaultSettings) "autoLockTimeout") = some 5 := rfl
  have notDefault : (5 : Number) ≠ .notANumber := nofun
  rw [autoLockTimeout, propertyOf_getSettings] at numeric
  split at numeric
  · rename_i parsed isRead
    cases found : (ownFields parsed).lookup "autoLockTimeout" with
    | none =>
        rw [found, Option.getD_none, byDefault] at numeric
        exact Option.some.inj numeric ▸ notDefault
    | some value =>
        rw [found, Option.getD_some] at numeric
        exact numericValue_ne_notANumber (isData_of_mem_ownFields
          (isParsed_of_readContent isRead) (mem_of_lookup found)) numeric
  · rw [byDefault] at numeric
    exact Option.some.inj numeric ▸ notDefault

/-- A timeout that does not compare as passed since a time has not. -/
theorem DenotesTime.within_timeout
    {reads : LockReads}
    {time minutes : Number}
    (denotes : DenotesTime reads.lastAuth time)
    (numeric : numericValue reads.autoLockTimeout = some minutes)
    (notPassed : (timeoutMs minutes).less reads.elapsed = false) :
    (reads.now.sub time).lessEq (timeoutMs minutes) = true := by
  have elapsed : reads.elapsed = reads.now.sub time := by
    rw [LockReads.elapsed, denotes.getLastAuthTime_eq]
  have isNumber : reads.now.sub time ≠ .notANumber := by
    obtain ⟨_, _, _, timeIsNumber⟩ := denotes
    exact Number.sub_ne_notANumber _ timeIsNumber
  rw [Number.lessEq_iff_not_less isNumber
    (timeoutMs_ne_notANumber (LockReads.minutes_ne_notANumber numeric)),
    ← elapsed, notPassed]
  exact Bool.false_ne_true

/-- **Locking.**  The decision fails secure exactly on what is read securely. -/
theorem failsSecure_iff (reads : LockReads) :
    FailsSecure reads ↔ ReadsSecurely reads := by
  rw [FailsSecure, shouldLock_eq_false_iff, ReadsSecurely]
  constructor
  · intro secure
    by_cases disabled : AutoLockDisabled reads.settings
    · exact .inl disabled
    right
    cases converted : numberOf reads.autoLockTimeout with
    | error reason => exact .inl ⟨reason, rfl⟩
    | ok minutes =>
        right
        cases passed : (timeoutMs minutes).less reads.elapsed with
        | true => exact .inl ⟨minutes, rfl, passed⟩
        | false =>
            right
            obtain impossible | ⟨time, stated, denotes, numeric, past, _⟩ :=
              secure (.inr ⟨minutes, converted, passed⟩)
            · exact absurd impossible disabled
            · exact ⟨time, denotes, past, by rw [numeric]; rfl⟩
  · rintro secure (disabled | ⟨minutes, converted, notPassed⟩)
    · exact .inl disabled
    rcases secure with disabled | ⟨reason, fails⟩ | ⟨other, same, passed⟩ |
      ⟨time, denotes, past, isNumeric⟩
    · exact .inl disabled
    · rw [converted] at fails
      cases fails
    · obtain rfl := Except.ok.inj (converted.symm.trans same)
      rw [notPassed] at passed
      cases passed
    · right
      obtain ⟨number, numeric⟩ := Option.isSome_iff_exists.mp isNumeric
      obtain rfl := Except.ok.inj
        (converted.symm.trans (numberOf_of_numericValue numeric))
      exact ⟨time, minutes, denotes, numeric, past,
        denotes.within_timeout numeric notPassed⟩

/-- A last authentication that is not a number leaves the wallet open. -/
theorem shouldLock_fails_open :
    ¬FailsSecure
      { settings := .ok none
        lastAuth := .ok (some "never")
        dateNow := 1700000000000 } := by
  intro secure
  have unreadable : parseInt "never" = .notANumber := by rfl
  have stays := @shouldLock_of_notANumber
    { settings := .ok none
      lastAuth := .ok (some "never")
      dateNow := 1700000000000 }
    unreadable 5 rfl
  obtain ⟨parsed, value, impossible, _⟩ | ⟨time, _, denotes, _⟩ := secure stays
  · cases impossible
  · obtain ⟨text, same, parsed, isNumber⟩ := denotes
    obtain rfl := Option.some.inj (Except.ok.inj same)
    exact isNumber (parsed.symm.trans unreadable)

end Client
end Privachain
