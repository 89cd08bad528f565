import Privachain.Client.UtilCrypto

/-!
# Stealth addresses

The sender derives a one-time address from the spend key of the recipient and a
secret shared with it; the recipient derives the address again and compares.
Sender and recipient hash different byte strings for the shared secret, and this
module says for which keys these are the same.
-/

namespace Privachain
namespace Client

open Foundation
open Foundation.JavaScript

/-- `interface StealthAddress` -/
structure StealthAddress where
  stealthAddress : String
  ephemeralKey : String
  deriving DecidableEq

variable (crypto : UtilCrypto)

/-- `computeSharedSecret(privateKey, publicKey)` -/
def computeSharedSecret (privateKey publicKey : Uint8Array) : Uint8Array :=
  crypto.blake2AsU8a (privateKey ++ publicKey)

/-- `deriveStealthAddress(spendPubKey, sharedSecret)` -/
def deriveStealthAddress (spendPubKey sharedSecret : Uint8Array) : Uint8Array :=
  crypto.blake2AsU8a (spendPubKey ++ sharedSecret)

/-- `generateStealthAddress(recipientSpendKey, recipientViewKey)`, with the draw
of `randomAsU8a(32)`.  The view key is not used. -/
def generateStealthAddress
    (ephemeralSecret : Uint8Array)
    (recipientSpendKey _recipientViewKey : String) :
    Except Exception StealthAddress := do
  let ephemeralKeypair ← crypto.generateEphemeralKeypair ephemeralSecret
  let recipientSpendPubKey := crypto.hexToU8a recipientSpendKey
  let sharedSecret :=
    computeSharedSecret crypto ephemeralSecret recipientSpendPubKey
  let stealthAddress :=
    deriveStealthAddress crypto recipientSpendPubKey sharedSecret
  return {
    stealthAddress := crypto.u8aToHex stealthAddress
    ephemeralKey := crypto.u8aToHex ephemeralKeypair.publicKey }

/-- `checkStealthAddress(stealthAddress, ephemeralKey, recipientViewKey,
recipientSpendKey)` -/
def checkStealthAddress
    (stealthAddress ephemeralKey recipientViewKey recipientSpendKey : String) :
    Bool :=
  let sharedSecret :=
    computeSharedSecret crypto (crypto.hexToU8a recipientViewKey)
      (crypto.hexToU8a ephemeralKey)
  let expectedAddress :=
    deriveStealthAddress crypto (crypto.hexToU8a recipientSpendKey) sharedSecret
  crypto.u8aToHex expectedAddress == stealthAddress

/-! ## Recognition -/

/-- The owner of the keys recognises every address generated for them. -/
def RecognizedByOwner
    (ephemeralSecret : Uint8Array)
    (viewKey spendKey : String) : Prop :=
  ∀ address,
    generateStealthAddress crypto ephemeralSecret spendKey viewKey =
      .ok address ->
    checkStealthAddress crypto address.stealthAddress address.ephemeralKey
      viewKey spendKey = true

/-- Whoever has another spend key recognises an address generated for the keys
only by a collision of the digest. -/
def RejectedByOthers
    (ephemeralSecret : Uint8Array)
    (viewKey spendKey : String) : Prop :=
  ∀ address,
    generateStealthAddress crypto ephemeralSecret spendKey viewKey =
      .ok address ->
    ∀ otherViewKey otherSpendKey,
      crypto.hexToU8a otherSpendKey ≠ crypto.hexToU8a spendKey ->
      checkStealthAddress crypto address.stealthAddress address.ephemeralKey
        otherViewKey otherSpendKey = true ->
      crypto.Collision
        (crypto.hexToU8a otherSpendKey ++
          computeSharedSecret crypto (crypto.hexToU8a otherViewKey)
            (crypto.hexToU8a address.ephemeralKey))
        (crypto.hexToU8a spendKey ++
          computeSharedSecret crypto ephemeralSecret
            (crypto.hexToU8a spendKey))

/-- The bytes that the recipient hashes for the shared secret are those that the
sender hashes, or the digest does not tell them apart. -/
def SharedSecretsMeet
    (ephemeralSecret publicKey viewKey spendKey : Uint8Array) : Prop :=
  viewKey ++ publicKey = ephemeralSecret ++ spendKey ∨
    crypto.Collision (viewKey ++ publicKey) (ephemeralSecret ++ spendKey) ∨
    crypto.Collision
      (spendKey ++ crypto.blake2AsU8a (viewKey ++ publicKey))
      (spendKey ++ crypto.blake2AsU8a (ephemeralSecret ++ spendKey))

variable {crypto}

/-- For keys of one length the hashed bytes agree only when the view key is the
ephemeral secret and the spend key is the ephemeral public key. -/
theorem hashed_bytes_eq_iff
    {ephemeralSecret publicKey viewKey spendKey : Uint8Array}
    (sameLength : viewKey.length = ephemeralSecret.length) :
    viewKey ++ publicKey = ephemeralSecret ++ spendKey ↔
      viewKey = ephemeralSecret ∧ publicKey = spendKey := by
  constructor
  · intro same
    exact List.append_inj same sameLength
  · rintro ⟨rfl, rfl⟩
    rfl

/-- A generated address holds the hex texts of the derived address and of the
ephemeral public key. -/
theorem generateStealthAddress_eq_ok_iff
    (ephemeralSecret : Uint8Array)
    (spendKey viewKey : String)
    (address : StealthAddress) :
    generateStealthAddress crypto ephemeralSecret spendKey viewKey =
        .ok address ↔
      ∃ pair, crypto.generateEphemeralKeypair ephemeralSecret = .ok pair ∧
        address =
          { stealthAddress :=
              crypto.u8aToHex
                (deriveStealthAddress crypto (crypto.hexToU8a spendKey)
                  (computeSharedSecret crypto ephemeralSecret
                    (crypto.hexToU8a spendKey)))
            ephemeralKey := crypto.u8aToHex pair.publicKey } := by
  unfold generateStealthAddress
  rw [bind_eq_ok_iff]
  refine exists_congr fun pair => and_congr_right fun _ => ?_
  exact returned_eq_ok_iff _ _

/-- A check compares the derived addresses. -/
theorem checkStealthAddress_eq_true_iff
    (hex : crypto.HexRoundTrips)
    (address publicKey : Uint8Array)
    (viewKey spendKey : String) :
    checkStealthAddress crypto (crypto.u8aToHex address)
        (crypto.u8aToHex publicKey) viewKey spendKey = true ↔
      deriveStealthAddress crypto (crypto.hexToU8a spendKey)
        (computeSharedSecret crypto (crypto.hexToU8a viewKey) publicKey) =
          address := by
  rw [checkStealthAddress, hex, beq_iff_eq, hex.u8aToHex_inj]

/-- The owner recognises the generated addresses exactly when the shared secrets
meet. -/
theorem recognizedByOwner_iff
    (hex : crypto.HexRoundTrips)
    (ephemeralSecret : Uint8Array)
    (viewKey spendKey : String) :
    RecognizedByOwner crypto ephemeralSecret viewKey spendKey ↔
      ∀ pair, crypto.generateEphemeralKeypair ephemeralSecret = .ok pair ->
        SharedSecretsMeet crypto ephemeralSecret pair.publicKey
          (crypto.hexToU8a viewKey) (crypto.hexToU8a spendKey) := by
  have recognized_iff : ∀ pair : Keypair,
      checkStealthAddress crypto
          (crypto.u8aToHex
            (deriveStealthAddress crypto (crypto.hexToU8a spendKey)
              (computeSharedSecret crypto ephemeralSecret
                (crypto.hexToU8a spendKey))))
          (crypto.u8aToHex pair.publicKey) viewKey spendKey = true ↔
        SharedSecretsMeet crypto ephemeralSecret pair.publicKey
          (crypto.hexToU8a viewKey) (crypto.hexToU8a spendKey) := by
    intro pair
    rw [checkStealthAddress_eq_true_iff hex, deriveStealthAddress,
      deriveStealthAddress, UtilCrypto.blake2AsU8a_eq_iff,
      List.append_cancel_left_eq, computeSharedSecret, computeSharedSecret,
      UtilCrypto.blake2AsU8a_eq_iff, or_assoc]
    rfl
  constructor
  · intro recognized pair generated
    exact (recognized_iff pair).mp (recognized _
      ((generateStealthAddress_eq_ok_iff _ _ _ _).mpr ⟨pair, generated, rfl⟩))
  · intro meet address generated
    obtain ⟨pair, pairGenerated, rfl⟩ :=
      (generateStealthAddress_eq_ok_iff _ _ _ _).mp generated
    exact (recognized_iff pair).mpr (meet pair pairGenerated)

/-- Others recognise a generated address only by a collision. -/
theorem rejectedByOthers
    (hex : crypto.HexRoundTrips)
    (digests : crypto.DigestsHave32Bytes)
    (ephemeralSecret : Uint8Array)
    (viewKey spendKey : String) :
    RejectedByOthers crypto ephemeralSecret viewKey spendKey := by
  intro address generated otherViewKey otherSpendKey different accepted
  obtain ⟨pair, -, rfl⟩ :=
    (generateStealthAddress_eq_ok_iff _ _ _ _).mp generated
  rw [checkStealthAddress_eq_true_iff hex] at accepted
  refine ⟨fun same => different ?_, by rw [hex]; exact accepted⟩
  -- digests have one length, so equal strings end in equal digests
  refine (List.append_inj' same ?_).1
  rw [computeSharedSecret, computeSharedSecret, digests, digests]

/-- **Recognition.**  Generated addresses are recognised by their owner and, up
to a collision, by nobody with another spend key exactly when the bytes hashed
for the shared secret by sender and recipient agree or collide. -/
theorem stealthAddress_recognized_iff
    (crypto : UtilCrypto)
    (hex : crypto.HexRoundTrips)
    (digests : crypto.DigestsHave32Bytes)
    (ephemeralSecret : Uint8Array)
    (viewKey spendKey : String) :
    (RecognizedByOwner crypto ephemeralSecret viewKey spendKey ∧
        RejectedByOthers crypto ephemeralSecret viewKey spendKey) ↔
      ∀ pair, crypto.generateEphemeralKeypair ephemeralSecret = .ok pair ->
        SharedSecretsMeet crypto ephemeralSecret pair.publicKey
          (crypto.hexToU8a viewKey) (crypto.hexToU8a spendKey) := by
  rw [recognizedByOwner_iff hex]
  exact and_iff_left (rejectedByOthers hex digests _ _ _)

/-- The condition at sample keys. -/
theorem sampleKeys_recognized_iff :
    (RecognizedByOwner sampleCrypto (sampleKey 3)
          (sampleCrypto.u8aToHex (sampleKey 2))
          (sampleCrypto.u8aToHex (sampleKey 1)) ∧
        RejectedByOthers sampleCrypto (sampleKey 3)
          (sampleCrypto.u8aToHex (sampleKey 2))
          (sampleCrypto.u8aToHex (sampleKey 1))) ↔
      ∀ pair,
        sampleCrypto.generateEphemeralKeypair (sampleKey 3) = .ok pair ->
        SharedSecretsMeet sampleCrypto (sampleKey 3) pair.publicKey
          (sampleCrypto.hexToU8a (sampleCrypto.u8aToHex (sampleKey 2)))
          (sampleCrypto.hexToU8a (sampleCrypto.u8aToHex (sampleKey 1))) :=
  stealthAddress_recognized_iff sampleCrypto sampleCrypto_hexRoundTrips
    sampleCrypto_digestsHave32Bytes _ _ _

/-- The owner of the keys does not recognise an address generated for them. -/
theorem sampleKeys_notRecognized :
    ¬∀ (crypto : UtilCrypto), crypto.HexRoundTrips ->
      crypto.DigestsHave32Bytes ->
      ∀ ephemeralSecret viewKey spendKey,
        RecognizedByOwner crypto ephemeralSecret viewKey spendKey ∧
          RejectedByOthers crypto ephemeralSecret viewKey spendKey := by
  intro always
  have recognized := (always sampleCrypto sampleCrypto_hexRoundTrips
    sampleCrypto_digestsHave32Bytes (sampleKey 3)
    (sampleCrypto.u8aToHex (sampleKey 2))
    (sampleCrypto.u8aToHex (sampleKey 1))).1
  rw [recognizedByOwner_iff sampleCrypto_hexRoundTrips,
    sampleCrypto_hexRoundTrips, sampleCrypto_hexRoundTrips] at recognized
  rcases recognized ⟨sampleKey 4, sampleKey 3⟩ rfl with
    same | collision | collision
  · have sameLength : (sampleKey 2).length = (sampleKey 3).length := by decide
    exact absurd ((hashed_bytes_eq_iff sameLength).mp same).1 (by decide)
  · exact absurd collision.2 (by decide)
  · exact absurd collision.2 (by decide)

end Client
end Privachain
