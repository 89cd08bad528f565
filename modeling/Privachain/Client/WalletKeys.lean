import Privachain.Client.NoteEncryption
import Privachain.Foundation.StatefulCall
import Mathlib.Logic.Function.Basic

/-!
# Wallet keys

The keys of a wallet are derived from the seed of its mnemonic.  The keychain holds
the mnemonic with three of the keys as hex texts, and the others are derived again
when the wallet is loaded.  A backup holds the mnemonic only.
-/

namespace Privachain
namespace Client
namespace Key

open Foundation
open Foundation.JavaScript
open Foundation.StatefulCall

/-! ## Derivation -/

/-- The libraries of the wallet keys.  Code that is not checked against the types
passes on what a text holds, so the functions are defined on all values; those of
`hexToU8a` on other values than strings are apart. -/
structure WalletCrypto extends UtilCrypto where
  hexToU8aOther : Value -> Except Exception Uint8Array
  mnemonicValidate : Value -> Except Exception Bool
  mnemonicToMiniSecret : Value -> Except Exception Uint8Array
  addressFromSeed : (type : String) -> (ss58Format : Nat) -> (seed : Uint8Array) ->
    Except Exception String

section Derivation

variable (crypto : WalletCrypto)

/-- `hexToU8a(value)` -/
def hexToU8a : Value -> Except Exception Uint8Array
  | .string text => .ok (crypto.hexToU8a text)
  | other => crypto.hexToU8aOther other

/-- `interface KeyDerivationPath` -/
structure KeyDerivationPath where
  spending : String
  viewing : String
  nullifier : String

/-- `KEY_DERIVATION_PATHS` -/
def keyDerivationPaths : KeyDerivationPath where
  spending := "m/44'/354'/0'/0/0"
  viewing := "m/44'/354'/0'/1/0"
  nullifier := "m/44'/354'/0'/2/0"

/-- `deriveKey(seed, path)` -/
def deriveKey (seed : Uint8Array) (path : String) : Uint8Array :=
  let pathBytes := Encryption.textEncode path
  crypto.blake2AsU8a (seed ++ pathBytes)

/-- `derivePublicKey(privateKey)` -/
def derivePublicKey (privateKey : Uint8Array) : String :=
  let publicKey := crypto.blake2AsU8a privateKey
  crypto.u8aToHex publicKey

/-- What `createKeysFromSeed` returns. -/
structure SeedKeys where
  spendingKey : Uint8Array
  viewingKey : Uint8Array
  nullifierKey : Uint8Array
  publicSpendingKey : String
  deriving DecidableEq

/-- `createKeysFromSeed(seed)` -/
def createKeysFromSeed (seed : Uint8Array) : SeedKeys :=
  let spendingKey := deriveKey crypto seed keyDerivationPaths.spending
  let viewingKey := deriveKey crypto seed keyDerivationPaths.viewing
  let nullifierKey := deriveKey crypto seed keyDerivationPaths.nullifier
  let publicSpendingKey := derivePublicKey crypto spendingKey
  { spendingKey, viewingKey, nullifierKey, publicSpendingKey }

/-- `getAddressFromSeed(seed)` -/
def getAddressFromSeed (seed : Uint8Array) : Except Exception String :=
  crypto.addressFromSeed "sr25519" 42 seed

/-- `serializeWalletData(mnemonic, spendingKey, viewingKey, nullifierKey)` -/
def serializeWalletData
    (dateNow : Int)
    (mnemonic : Value)
    (spendingKey viewingKey nullifierKey : Uint8Array) :
    Except Exception String :=
  JSON.stringifyValue (.object
    [("mnemonic", mnemonic),
      ("spendingKey", .string (crypto.u8aToHex spendingKey)),
      ("viewingKey", .string (crypto.u8aToHex viewingKey)),
      ("nullifierKey", .string (crypto.u8aToHex nullifierKey)),
      ("createdAt", .ofInt dateNow)])

/-- `interface WalletKeys`; the properties that are read from a parsed text need
not be strings. -/
structure WalletKeys where
  mnemonic : Value
  address : String
  spendingKey : Value
  viewingKey : Value
  nullifierKey : Value
  publicSpendingKey : String

/-- The keys of a mnemonic, and the text that the keychain is to hold. -/
def deriveWallet (dateNow : Int) (mnemonic : Value) :
    Except Exception (WalletKeys × String) := do
  let seed ← crypto.mnemonicToMiniSecret mnemonic
  let keys := createKeysFromSeed crypto seed
  let address ← getAddressFromSeed crypto seed
  let serializedData ← serializeWalletData crypto dateNow mnemonic
    keys.spendingKey keys.viewingKey keys.nullifierKey
  return (
    { mnemonic := mnemonic
      address := address
      spendingKey := .string (crypto.u8aToHex keys.spendingKey)
      viewingKey := .string (crypto.u8aToHex keys.viewingKey)
      nullifierKey := .string (crypto.u8aToHex keys.nullifierKey)
      publicSpendingKey := keys.publicSpendingKey },
    serializedData)

/-- The keys of the wallet data of a parsed text. -/
def loadedKeys (walletData : Value) : Except Exception WalletKeys := do
  let mnemonic ← readProperty walletData "mnemonic"
  let seed ← crypto.mnemonicToMiniSecret mnemonic
  let address ← getAddressFromSeed crypto seed
  let spendingKey ← readProperty walletData "spendingKey"
  let publicSpendingKey := derivePublicKey crypto (← hexToU8a crypto spendingKey)
  return {
    mnemonic := mnemonic
    address := address
    spendingKey := spendingKey
    viewingKey := ← readProperty walletData "viewingKey"
    nullifierKey := ← readProperty walletData "nullifierKey"
    publicSpendingKey := publicSpendingKey }

end Derivation

/-! ## The keychain -/

/-- An entry of the keychain. -/
structure Credentials where
  username : String
  password : String
  deriving DecidableEq

/-- The keychain by services, and the calls of `setGenericPassword` so far. -/
structure Device where
  keychain : String -> Option Credentials := fun _ => none
  writes : Nat := 0

/-- A call of the wallet, with exceptions. -/
abbrev DeviceCall (α : Type) := EStateM Exception Device α

/-- How the keychain answers a write.  A rejected one may leave anything of the
entry. -/
inductive WriteAnswer
  | stored
  | rejected (reason : Exception) (left : Option Credentials)

/-- `KEYCHAIN_CONFIG.service` -/
def keychainService : String := "zkprivacy.wallet"

/-- The device after a call of `setGenericPassword`, with the entry that it
leaves. -/
def Device.written (device : Device) (entry : Option Credentials) : Device where
  keychain := Function.update device.keychain keychainService entry
  writes := device.writes + 1

/-- `Keychain.setGenericPassword(username, password, KEYCHAIN_CONFIG)` -/
def setGenericPassword
    (answer : WriteAnswer)
    (username password : String) : DeviceCall PUnit :=
  match answer with
  | .stored =>
      modify fun device =>
        device.written (some { username := username, password := password })
  | .rejected reason left => do
      modify fun device => device.written left
      throw reason

/-- `Keychain.getGenericPassword({ service })`, which may be rejected. -/
def getGenericPassword
    (refusal : Option Exception) : DeviceCall (Option Credentials) :=
  match refusal with
  | some reason => throw reason
  | none => return (← get).keychain keychainService

/-- `storeInKeychain(serializedData)` -/
def storeInKeychain
    (answer : WriteAnswer)
    (serializedData : String) : DeviceCall Bool := do
  setGenericPassword answer "wallet" serializedData
  return true

/-- `retrieveFromKeychain()` -/
def retrieveFromKeychain
    (refusal : Option Exception) : DeviceCall (Option String) := do
  let credentials ← getGenericPassword refusal
  return credentials.map Credentials.password

/-! ## The wallet -/

section Wallet

variable (crypto : WalletCrypto)

/-- Stores what was derived, and returns the keys. -/
def storeWallet
    (answer : WriteAnswer)
    (wallet : Except Exception (WalletKeys × String)) :
    DeviceCall WalletKeys := do
  let (keys, serializedData) ← MonadExcept.ofExcept wallet
  let _ ← storeInKeychain answer serializedData
  return keys

/-- `generateWallet()`, with the draw of `mnemonicGenerate(12)`. -/
def generateWallet
    (answer : WriteAnswer)
    (dateNow : Int)
    (mnemonic : String) : DeviceCall WalletKeys :=
  storeWallet answer (deriveWallet crypto dateNow (.string mnemonic))

/-- `restoreWallet(mnemonic)` -/
def restoreWallet
    (answer : WriteAnswer)
    (dateNow : Int)
    (mnemonic : Value) : DeviceCall WalletKeys := do
  let valid ← MonadExcept.ofExcept (crypto.mnemonicValidate mnemonic)
  ensure (valid = true) (.error "Invalid mnemonic phrase")
  storeWallet answer (deriveWallet crypto dateNow mnemonic)

/-- The part of `getWalletKeys` whose exceptions are caught. -/
def loadWalletKeys
    (refusal : Option Exception) : DeviceCall (Option WalletKeys) := do
  match ← retrieveFromKeychain refusal with
  | none => return none
  | some serializedData =>
      if serializedData = "" then return none
      let walletData ← MonadExcept.ofExcept (JSON.parseText serializedData)
      let keys ← MonadExcept.ofExcept (loadedKeys crypto walletData)
      return some keys

/-- `getWalletKeys()` -/
def getWalletKeys
    (refusal : Option Exception) : DeviceCall (Option WalletKeys) :=
  tryCatch (loadWalletKeys crypto refusal) fun _ => return none

/-- The text of a backup. -/
def backupText (dateNow : Int) (mnemonic : Value) : Except Exception String :=
  JSON.stringifyValue (.object
    [("version", .number 1), ("mnemonic", mnemonic),
      ("createdAt", .ofInt dateNow)])

/-- `exportWallet()` -/
def exportWallet
    (refusal : Option Exception)
    (dateNow : Int) : DeviceCall String := do
  match ← getWalletKeys crypto refusal with
  | none => throw (.error "No wallet found")
  | some keys => MonadExcept.ofExcept (backupText dateNow keys.mnemonic)

/-- The mnemonic of a backup of version 1. -/
def backupMnemonic (backup : Value) : Except Exception Value := do
  let version ← readProperty backup "version"
  throwIf (version.isNumber 1 = false) (.error "Unsupported backup version")
  readProperty backup "mnemonic"

/-- `importWallet(backupData)` -/
def importWallet
    (answer : WriteAnswer)
    (dateNow : Int)
    (backupData : String) : DeviceCall WalletKeys := do
  let backup ← MonadExcept.ofExcept (JSON.parseText backupData)
  let mnemonic ← MonadExcept.ofExcept (backupMnemonic backup)
  restoreWallet crypto answer dateNow mnemonic

end Wallet

/-! ## What is stored -/

section Stored

variable {crypto : WalletCrypto}

/-- The data that the keychain holds of a mnemonic. -/
def walletData
    (crypto : WalletCrypto)
    (dateNow : Int)
    (mnemonic : String)
    (seed : Uint8Array) : Value :=
  let keys := createKeysFromSeed crypto seed
  .object
    [("mnemonic", .string mnemonic),
      ("spendingKey", .string (crypto.u8aToHex keys.spendingKey)),
      ("viewingKey", .string (crypto.u8aToHex keys.viewingKey)),
      ("nullifierKey", .string (crypto.u8aToHex keys.nullifierKey)),
      ("createdAt", .ofInt dateNow)]

theorem isJson_walletData
    (crypto : WalletCrypto)
    (dateNow : Int)
    (mnemonic : String)
    (seed : Uint8Array) :
    JSON.IsJson (walletData crypto dateNow mnemonic seed) :=
  ⟨JSON.isOwn_of_names ["mnemonic", "spendingKey", "viewingKey", "nullifierKey",
      "createdAt"] rfl (by decide +kernel),
    trivial, trivial, trivial, trivial, JSON.isJson_ofInt dateNow, trivial⟩

/-- The keys of a seed with its mnemonic and address. -/
def walletKeys
    (crypto : WalletCrypto)
    (mnemonic address : String)
    (seed : Uint8Array) : WalletKeys :=
  let keys := createKeysFromSeed crypto seed
  { mnemonic := .string mnemonic
    address := address
    spendingKey := .string (crypto.u8aToHex keys.spendingKey)
    viewingKey := .string (crypto.u8aToHex keys.viewingKey)
    nullifierKey := .string (crypto.u8aToHex keys.nullifierKey)
    publicSpendingKey := keys.publicSpendingKey }

/-- A wallet is derived exactly when its mnemonic has a seed and the seed an
address. -/
theorem deriveWallet_eq_ok_iff
    (dateNow : Int)
    (mnemonic : String)
    (keys : WalletKeys)
    (serializedData : String) :
    deriveWallet crypto dateNow (.string mnemonic) =
        .ok (keys, serializedData) ↔
      ∃ seed address,
        crypto.mnemonicToMiniSecret (.string mnemonic) = .ok seed ∧
        getAddressFromSeed crypto seed = .ok address ∧
        keys = walletKeys crypto mnemonic address seed ∧
        serializedData = JSON.stringifyReplaced
          (walletData crypto dateNow mnemonic seed) := by
  unfold deriveWallet
  rw [bind_eq_ok_iff]
  refine exists_congr fun seed => ?_
  have serialized := JSON.stringifyValue_of_isJson
    (isJson_walletData crypto dateNow mnemonic seed)
  constructor
  · rintro ⟨hasSeed, derived⟩
    obtain ⟨address, hasAddress, derived⟩ := (bind_eq_ok_iff _ _ _).mp derived
    obtain ⟨text, isText, returned⟩ := (bind_eq_ok_iff _ _ _).mp derived
    cases returned
    have sameText := Except.ok.inj (isText.symm.trans serialized)
    exact ⟨address, hasSeed, hasAddress, rfl, sameText⟩
  · rintro ⟨address, hasSeed, hasAddress, rfl, rfl⟩
    refine ⟨hasSeed, (bind_eq_ok_iff _ _ _).mpr ⟨address, hasAddress, ?_⟩⟩
    exact (bind_eq_ok_iff _ _ _).mpr ⟨_, serialized, rfl⟩

/-- The keys that are read from the data of a mnemonic are the derived ones: the
public key is the one of the decoded spending key, and the address the one of the
mnemonic. -/
theorem loadedKeys_walletData
    (hex : crypto.HexRoundTrips)
    {mnemonic address : String}
    {seed : Uint8Array}
    (hasSeed : crypto.mnemonicToMiniSecret (.string mnemonic) = .ok seed)
    (hasAddress : getAddressFromSeed crypto seed = .ok address)
    (dateNow : Int) :
    loadedKeys crypto (walletData crypto dateNow mnemonic seed) =
      .ok (walletKeys crypto mnemonic address seed) := by
  let data := walletData crypto dateNow mnemonic seed
  let keys := createKeysFromSeed crypto seed
  have mnemonicRead : readProperty data "mnemonic" = .ok (.string mnemonic) := rfl
  have spendingRead : readProperty data "spendingKey" =
      .ok (.string (crypto.u8aToHex keys.spendingKey)) := rfl
  have viewingRead : readProperty data "viewingKey" =
      .ok (.string (crypto.u8aToHex keys.viewingKey)) := rfl
  have nullifierRead : readProperty data "nullifierKey" =
      .ok (.string (crypto.u8aToHex keys.nullifierKey)) := rfl
  have decoded : hexToU8a crypto (.string (crypto.u8aToHex keys.spendingKey)) =
      .ok keys.spendingKey := congrArg Except.ok (hex keys.spendingKey)
  change loadedKeys crypto data = _
  unfold loadedKeys
  rw [bind_eq_ok_iff]
  refine ⟨_, mnemonicRead, (bind_eq_ok_iff _ _ _).mpr ⟨seed, hasSeed, ?_⟩⟩
  refine (bind_eq_ok_iff _ _ _).mpr ⟨address, hasAddress, ?_⟩
  refine (bind_eq_ok_iff _ _ _).mpr ⟨_, spendingRead, ?_⟩
  refine (bind_eq_ok_iff _ _ _).mpr ⟨_, decoded, ?_⟩
  refine (bind_eq_ok_iff _ _ _).mpr ⟨_, viewingRead, ?_⟩
  exact (bind_eq_ok_iff _ _ _).mpr ⟨_, nullifierRead, rfl⟩

/-- A device whose keychain holds the data of a mnemonic. -/
def HoldsWallet
    (crypto : WalletCrypto)
    (mnemonic : String)
    (seed : Uint8Array)
    (device : Device) : Prop :=
  ∃ dateNow, (device.keychain keychainService).map Credentials.password =
    some (JSON.stringifyReplaced (walletData crypto dateNow mnemonic seed))

/-- A held wallet is loaded. -/
theorem getWalletKeys_of_holdsWallet
    (hex : crypto.HexRoundTrips)
    {mnemonic address : String}
    {seed : Uint8Array}
    (hasSeed : crypto.mnemonicToMiniSecret (.string mnemonic) = .ok seed)
    (hasAddress : getAddressFromSeed crypto seed = .ok address)
    {device : Device}
    (holds : HoldsWallet crypto mnemonic seed device) :
    getWalletKeys crypto none device =
      .ok (some (walletKeys crypto mnemonic address seed)) device := by
  obtain ⟨dateNow, password⟩ := holds
  have parses := JSON.parseText_stringifyValue
    (isJson_walletData crypto dateNow mnemonic seed)
    (JSON.stringifyValue_of_isJson
      (isJson_walletData crypto dateNow mnemonic seed))
  have notEmpty : JSON.stringifyReplaced
      (walletData crypto dateNow mnemonic seed) ≠ "" := by
    intro empty
    rw [empty] at parses
    cases parses
  have loads := loadedKeys_walletData hex hasSeed hasAddress dateNow
  have retrieves : retrieveFromKeychain none device =
      .ok (some (JSON.stringifyReplaced
        (walletData crypto dateNow mnemonic seed))) device := by
    change EStateM.Result.ok ((device.keychain keychainService).map
      Credentials.password) device = _
    rw [password]
  apply tryCatch_of_ok
  rw [loadWalletKeys, bind_of_ok retrieves]
  dsimp only
  rw [if_neg notEmpty, bind_of_ok (ofExcept_of_ok parses device),
    bind_of_ok (ofExcept_of_ok loads device)]
  rfl

/-! ## Storing -/

/-- A wallet is stored exactly when it is derived and its write is not
rejected. -/
theorem storeWallet_eq_ok_iff
    (answer : WriteAnswer)
    (wallet : Except Exception (WalletKeys × String))
    (keys : WalletKeys)
    (before after : Device) :
    storeWallet answer wallet before = .ok keys after ↔
      ∃ serializedData, wallet = .ok (keys, serializedData) ∧
        answer = .stored ∧
        after = before.written
          (some { username := "wallet", password := serializedData }) := by
  unfold storeWallet
  rw [call_bind_eq_ok_iff]
  constructor
  · rintro ⟨⟨derived, serializedData⟩, middle, computed, stores⟩
    obtain ⟨isDerived, rfl⟩ := (ofExcept_eq_ok_iff _ _ _ _).mp computed
    cases answer with
    | stored =>
        cases stores
        exact ⟨serializedData, isDerived, rfl, rfl⟩
    | rejected reason left => cases stores
  · rintro ⟨serializedData, rfl, rfl, rfl⟩
    exact ⟨(keys, serializedData), before, ofExcept_of_ok rfl before, rfl⟩

/-- A wallet that is not stored was not derived, or the rejected write was
counted. -/
theorem storeWallet_eq_error
    {answer : WriteAnswer}
    {wallet : Except Exception (WalletKeys × String)}
    {error : Exception}
    {before after : Device}
    (fails : storeWallet answer wallet before = .error error after) :
    after = before ∨ after.writes = before.writes + 1 := by
  unfold storeWallet at fails
  rcases (call_bind_eq_error_iff _ _ _ _ _).mp fails with
    notDerived | ⟨⟨keys, serializedData⟩, middle, computed, rejects⟩
  · exact .inl ((ofExcept_eq_error_iff _ _ _ _).mp notDerived).2
  · obtain ⟨_, rfl⟩ := (ofExcept_eq_ok_iff _ _ _ _).mp computed
    cases answer with
    | stored => cases rejects
    | rejected reason left =>
        cases rejects
        exact .inr rfl

/-- A mnemonic is restored exactly when it is valid and its wallet is stored. -/
theorem restoreWallet_eq_ok_iff
    (answer : WriteAnswer)
    (dateNow : Int)
    (mnemonic : Value)
    (keys : WalletKeys)
    (before after : Device) :
    restoreWallet crypto answer dateNow mnemonic before = .ok keys after ↔
      crypto.mnemonicValidate mnemonic = .ok true ∧
        storeWallet answer (deriveWallet crypto dateNow mnemonic) before =
          .ok keys after := by
  unfold restoreWallet
  rw [call_bind_eq_ok_iff]
  constructor
  · rintro ⟨valid, middle, validated, restores⟩
    obtain ⟨isValid, rfl⟩ := (ofExcept_eq_ok_iff _ _ _ _).mp validated
    obtain ⟨_, _, ensured, stores⟩ := (call_bind_eq_ok_iff _ _ _ _ _).mp restores
    obtain ⟨rfl, rfl⟩ := (ensure_eq_ok_iff _ _ _ _ _).mp ensured
    exact ⟨isValid, stores⟩
  · rintro ⟨isValid, stores⟩
    refine ⟨true, before, ofExcept_of_ok isValid before, ?_⟩
    rw [bind_of_ok (ensure_of_true rfl _ before)]
    exact stores

/-- A mnemonic that is not restored has changed nothing, or the rejected write was
counted. -/
theorem restoreWallet_eq_error
    {answer : WriteAnswer}
    {dateNow : Int}
    {mnemonic : Value}
    {error : Exception}
    {before after : Device}
    (fails : restoreWallet crypto answer dateNow mnemonic before =
      .error error after) :
    after = before ∨ after.writes = before.writes + 1 := by
  unfold restoreWallet at fails
  rcases (call_bind_eq_error_iff _ _ _ _ _).mp fails with
    notValidated | ⟨valid, middle, validated, notRestored⟩
  · exact .inl ((ofExcept_eq_error_iff _ _ _ _).mp notValidated).2
  obtain ⟨_, rfl⟩ := (ofExcept_eq_ok_iff _ _ _ _).mp validated
  rcases (call_bind_eq_error_iff _ _ _ _ _).mp notRestored with
    invalid | ⟨_, between, ensured, notStored⟩
  · exact .inl ((ensure_eq_error_iff _ _ _ _ _).mp invalid).2.2
  · obtain ⟨_, rfl⟩ := (ensure_eq_ok_iff _ _ _ _ _).mp ensured
    exact storeWallet_eq_error notStored

/-- The entry that a stored wallet leaves. -/
theorem holdsWallet_written
    (crypto : WalletCrypto)
    (mnemonic : String)
    (seed : Uint8Array)
    (dateNow : Int)
    (before : Device) :
    HoldsWallet crypto mnemonic seed
      (before.written (some
        { username := "wallet"
          password := JSON.stringifyReplaced
            (walletData crypto dateNow mnemonic seed) })) := by
  refine ⟨dateNow, ?_⟩
  change (Function.update before.keychain keychainService _
    keychainService).map _ = _
  rw [Function.update_self]
  rfl

/-- What a restored mnemonic leaves: its keys, on a device that holds its
wallet. -/
theorem restoreWallet_returns
    {answer : WriteAnswer}
    {dateNow : Int}
    {mnemonic : String}
    {keys : WalletKeys}
    {before after : Device}
    (restored : restoreWallet crypto answer dateNow (.string mnemonic) before =
      .ok keys after) :
    crypto.mnemonicValidate (.string mnemonic) = .ok true ∧
      ∃ seed address,
        crypto.mnemonicToMiniSecret (.string mnemonic) = .ok seed ∧
        getAddressFromSeed crypto seed = .ok address ∧
        keys = walletKeys crypto mnemonic address seed ∧
        HoldsWallet crypto mnemonic seed after := by
  obtain ⟨valid, stores⟩ := (restoreWallet_eq_ok_iff _ _ _ _ _ _).mp restored
  obtain ⟨serializedData, derived, -, rfl⟩ :=
    (storeWallet_eq_ok_iff _ _ _ _ _).mp stores
  obtain ⟨seed, address, hasSeed, hasAddress, rfl, rfl⟩ :=
    (deriveWallet_eq_ok_iff _ _ _ _).mp derived
  exact ⟨valid, seed, address, hasSeed, hasAddress, rfl,
    holdsWallet_written crypto mnemonic seed dateNow before⟩

/-- A valid mnemonic with a seed and an address is restored by every granted
write. -/
theorem restoreWallet_of_valid
    {mnemonic address : String}
    {seed : Uint8Array}
    (valid : crypto.mnemonicValidate (.string mnemonic) = .ok true)
    (hasSeed : crypto.mnemonicToMiniSecret (.string mnemonic) = .ok seed)
    (hasAddress : getAddressFromSeed crypto seed = .ok address)
    (dateNow : Int)
    (before : Device) :
    ∃ after,
      restoreWallet crypto .stored dateNow (.string mnemonic) before =
        .ok (walletKeys crypto mnemonic address seed) after ∧
      HoldsWallet crypto mnemonic seed after := by
  have derived := (deriveWallet_eq_ok_iff dateNow mnemonic _ _).mpr
    ⟨seed, address, hasSeed, hasAddress, rfl, rfl⟩
  have stores := (storeWallet_eq_ok_iff .stored _ _ before _).mpr
    ⟨_, derived, rfl, rfl⟩
  exact ⟨_, (restoreWallet_eq_ok_iff _ _ _ _ _ _).mpr ⟨valid, stores⟩,
    holdsWallet_written crypto mnemonic seed dateNow before⟩

/-- Generating a wallet is restoring its mnemonic, if that is valid. -/
theorem generateWallet_eq_restoreWallet
    {mnemonic : String}
    (valid : crypto.mnemonicValidate (.string mnemonic) = .ok true)
    (answer : WriteAnswer)
    (dateNow : Int)
    (before : Device) :
    generateWallet crypto answer dateNow mnemonic before =
      restoreWallet crypto answer dateNow (.string mnemonic) before := by
  rw [restoreWallet, bind_of_ok (ofExcept_of_ok valid before),
    bind_of_ok (ensure_of_true rfl _ before)]
  rfl

/-! ## Backups -/

/-- The data of a backup. -/
def backupData (dateNow : Int) (mnemonic : String) : Value :=
  .object
    [("version", .number 1), ("mnemonic", .string mnemonic),
      ("createdAt", .ofInt dateNow)]

theorem isJson_backupData (dateNow : Int) (mnemonic : String) :
    JSON.IsJson (backupData dateNow mnemonic) :=
  ⟨JSON.isOwn_of_names ["version", "mnemonic", "createdAt"] rfl
      (by decide +kernel),
    (by decide +kernel : Number.IsDouble 1), trivial, JSON.isJson_ofInt dateNow,
    trivial⟩

/-- The text that is exported of a held wallet. -/
theorem exportWallet_of_holdsWallet
    (hex : crypto.HexRoundTrips)
    {mnemonic address : String}
    {seed : Uint8Array}
    (hasSeed : crypto.mnemonicToMiniSecret (.string mnemonic) = .ok seed)
    (hasAddress : getAddressFromSeed crypto seed = .ok address)
    {device : Device}
    (holds : HoldsWallet crypto mnemonic seed device)
    (dateNow : Int) :
    exportWallet crypto none dateNow device =
      .ok (JSON.stringifyReplaced (backupData dateNow mnemonic)) device := by
  have loads := getWalletKeys_of_holdsWallet hex hasSeed hasAddress holds
  have written := JSON.stringifyValue_of_isJson
    (isJson_backupData dateNow mnemonic)
  rw [exportWallet, bind_of_ok loads]
  exact ofExcept_of_ok written device

/-- Importing the text of a backup restores its mnemonic. -/
theorem importWallet_backupData
    (answer : WriteAnswer)
    (dateNow exportedAt : Int)
    (mnemonic : String)
    (device : Device) :
    importWallet crypto answer dateNow
        (JSON.stringifyReplaced (backupData exportedAt mnemonic)) device =
      restoreWallet crypto answer dateNow (.string mnemonic) device := by
  have isJson := isJson_backupData exportedAt mnemonic
  have parses := JSON.parseText_stringifyValue isJson
    (JSON.stringifyValue_of_isJson isJson)
  have found : backupMnemonic (backupData exportedAt mnemonic) =
      .ok (.string mnemonic) := rfl
  rw [importWallet, bind_of_ok (ofExcept_of_ok parses device),
    bind_of_ok (ofExcept_of_ok found device)]

/-- The texts that are refused before the keychain is written: those that are not
JSON, those of another version and those of an invalid mnemonic. -/
inductive RefusedBackup (crypto : WalletCrypto) (text : String) : Prop
  | unparsable
      (error : Exception)
      (fails : JSON.parseText text = .error error)
  | wrongVersion
      (backup : Value)
      (parses : JSON.parseText text = .ok backup)
      (notOne : ∀ version, readProperty backup "version" = .ok version ->
        version.isNumber 1 = false)
  | invalidMnemonic
      (backup mnemonic : Value)
      (parses : JSON.parseText text = .ok backup)
      (found : backupMnemonic backup = .ok mnemonic)
      (invalid : crypto.mnemonicValidate mnemonic ≠ .ok true)

/-- Without version 1 no mnemonic is found. -/
theorem exists_backupMnemonic_eq_error
    {backup : Value}
    (notOne : ∀ version, readProperty backup "version" = .ok version ->
      version.isNumber 1 = false) :
    ∃ error, backupMnemonic backup = .error error := by
  unfold backupMnemonic
  cases reads : readProperty backup "version" with
  | error error => exact ⟨error, rfl⟩
  | ok version =>
      refine ⟨.error "Unsupported backup version", ?_⟩
      change (throwIf (version.isNumber 1 = false) _ >>= _) = _
      rw [throwIf, if_pos (notOne version reads)]
      rfl

/-- A mnemonic that is not valid changes nothing. -/
theorem exists_restoreWallet_eq_error
    {mnemonic : Value}
    (invalid : crypto.mnemonicValidate mnemonic ≠ .ok true)
    (answer : WriteAnswer)
    (dateNow : Int)
    (before : Device) :
    ∃ error,
      restoreWallet crypto answer dateNow mnemonic before =
        .error error before := by
  unfold restoreWallet
  cases validated : crypto.mnemonicValidate mnemonic with
  | error error =>
      exact ⟨error, bind_of_error (ofExcept_of_error rfl before) _⟩
  | ok valid =>
      refine ⟨.error "Invalid mnemonic phrase", ?_⟩
      rw [bind_of_ok (ofExcept_of_ok rfl before)]
      have notTrue : ¬valid = true := by
        rintro rfl
        exact invalid validated
      exact bind_of_error (ensure_of_false notTrue _ before) _

/-- A refused text changes nothing. -/
theorem RefusedBackup.importWallet_eq_error
    {text : String}
    (refused : RefusedBackup crypto text)
    (answer : WriteAnswer)
    (dateNow : Int)
    (before : Device) :
    ∃ error,
      importWallet crypto answer dateNow text before = .error error before := by
  unfold importWallet
  cases refused with
  | unparsable error fails =>
      exact ⟨error, bind_of_error (ofExcept_of_error fails before) _⟩
  | wrongVersion backup parses notOne =>
      obtain ⟨error, noMnemonic⟩ := exists_backupMnemonic_eq_error notOne
      refine ⟨error, ?_⟩
      rw [bind_of_ok (ofExcept_of_ok parses before)]
      exact bind_of_error (ofExcept_of_error noMnemonic before) _
  | invalidMnemonic backup mnemonic parses found invalid =>
      rw [bind_of_ok (ofExcept_of_ok parses before),
        bind_of_ok (ofExcept_of_ok found before)]
      exact exists_restoreWallet_eq_error invalid answer dateNow before

/-- An import that throws has changed nothing, or the rejected write was
counted. -/
theorem importWallet_eq_error
    {answer : WriteAnswer}
    {dateNow : Int}
    {text : String}
    {error : Exception}
    {before after : Device}
    (fails : importWallet crypto answer dateNow text before =
      .error error after) :
    after = before ∨ after.writes = before.writes + 1 := by
  unfold importWallet at fails
  rcases (call_bind_eq_error_iff _ _ _ _ _).mp fails with
    unparsable | ⟨backup, middle, parsed, notImported⟩
  · exact .inl ((ofExcept_eq_error_iff _ _ _ _).mp unparsable).2
  obtain ⟨_, rfl⟩ := (ofExcept_eq_ok_iff _ _ _ _).mp parsed
  rcases (call_bind_eq_error_iff _ _ _ _ _).mp notImported with
    notFound | ⟨mnemonic, between, found, notRestored⟩
  · exact .inl ((ofExcept_eq_error_iff _ _ _ _).mp notFound).2
  obtain ⟨_, rfl⟩ := (ofExcept_eq_ok_iff _ _ _ _).mp found
  exact restoreWallet_eq_error notRestored

/-- **Wallet keys.**  Where hex texts round trip, a restored wallet is loaded with the
keys that were returned; its backup, imported on any other device, returns them too
and is loaded with them; and an import that throws before it writes to the keychain,
as every refused text does, leaves the device as it was. -/
theorem walletKeys_survive
    (crypto : WalletCrypto)
    (hex : crypto.HexRoundTrips) :
    (∀ answer dateNow mnemonic keys before after,
      restoreWallet crypto answer dateNow (.string mnemonic) before =
          .ok keys after ->
        getWalletKeys crypto none after = .ok (some keys) after ∧
        ∀ exportedAt, ∃ backup,
          exportWallet crypto none exportedAt after = .ok backup after ∧
          ∀ importedAt other, ∃ otherAfter,
            importWallet crypto .stored importedAt backup other =
              .ok keys otherAfter ∧
            getWalletKeys crypto none otherAfter =
              .ok (some keys) otherAfter) ∧
    (∀ answer dateNow text error before after,
      importWallet crypto answer dateNow text before = .error error after ->
        after.writes = before.writes -> after = before) ∧
    ∀ text, RefusedBackup crypto text -> ∀ answer dateNow before,
      ∃ error,
        importWallet crypto answer dateNow text before =
          .error error before := by
  refine ⟨?_, ?_, ?_⟩
  · intro answer dateNow mnemonic keys before after restored
    obtain ⟨valid, seed, address, hasSeed, hasAddress, rfl, holds⟩ :=
      restoreWallet_returns restored
    refine ⟨getWalletKeys_of_holdsWallet hex hasSeed hasAddress holds, ?_⟩
    intro exportedAt
    refine ⟨_, exportWallet_of_holdsWallet hex hasSeed hasAddress holds exportedAt,
      ?_⟩
    intro importedAt other
    obtain ⟨otherAfter, imported, otherHolds⟩ :=
      restoreWallet_of_valid valid hasSeed hasAddress importedAt other
    exact ⟨otherAfter, (importWallet_backupData _ _ _ _ _).trans imported,
      getWalletKeys_of_holdsWallet hex hasSeed hasAddress otherHolds⟩
  · intro answer dateNow text error before after fails sameWrites
    rcases importWallet_eq_error fails with unchanged | counted
    · exact unchanged
    · rw [counted] at sameWrites
      exact absurd sameWrites (Nat.succ_ne_self _)
  · intro text refused answer dateNow before
    exact refused.importWallet_eq_error answer dateNow before

end Stored

/-! ## A sample wallet -/

/-- A development phrase. -/
def samplePhrase : String :=
  "bottom drive obey lake curtain smoke basket hold race lonely fit walk"

/-- The sample library with the one phrase, its seed and its address. -/
def sampleWalletCrypto : WalletCrypto where
  toUtilCrypto := sampleCrypto
  hexToU8aOther value :=
    if value.truthy then .error (.typeError "value.startsWith is not a function")
    else .ok []
  mnemonicValidate mnemonic := .ok (isText mnemonic samplePhrase)
  mnemonicToMiniSecret mnemonic :=
    if isText mnemonic samplePhrase then
      .ok (sampleCrypto.hexToU8a
        "0xfac7959dbfe72f052e5a0c3c8d6530f202b02fd8f9f5ca3580ec8deb7797479e")
    else .error (.error "Invalid bip39 mnemonic specified")
  addressFromSeed _ _ _ :=
    .ok "5DfhGyQdFobKM8NsWvEeAKk5EQQgYe9AydgJ7rMB6E1EqRzV"

theorem sampleWallet_survives :
    ∃ keys after,
      restoreWallet sampleWalletCrypto .stored 0 (.string samplePhrase) {} =
        .ok keys after ∧
      getWalletKeys sampleWalletCrypto none after = .ok (some keys) after := by
  obtain ⟨after, restored, -⟩ := @restoreWallet_of_valid sampleWalletCrypto
    samplePhrase _ _ rfl rfl rfl 0 {}
  exact ⟨_, after, restored,
    ((walletKeys_survive sampleWalletCrypto sampleCrypto_hexRoundTrips).1
      _ _ _ _ _ _ restored).1⟩

end Key
end Client
end Privachain
