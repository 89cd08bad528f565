import Privachain.Foundation.JavaScript

/-!
# The cryptographic library of the wallet

The functions of `@polkadot/util` and `@polkadot/util-crypto` that the encryption
code calls are parameters.  What the code relies on is stated as laws: hex texts
decode to the bytes they encode, digests have 32 bytes, and the secret box
opens exactly for the secret and the nonce it was closed with.
-/

namespace Privachain
namespace Client

open Foundation
open Foundation.JavaScript

/-- `Uint8Array` -/
abbrev Uint8Array := List UInt8

/-- A key pair of the library. -/
structure Keypair where
  publicKey : Uint8Array
  secretKey : Uint8Array
  deriving DecidableEq

/-- What `naclEncrypt` returns. -/
structure Encrypted where
  encrypted : Uint8Array
  nonce : Uint8Array
  deriving DecidableEq

/-- The library.  Of the functions that derive a key pair an installed version
exports some; `blake2AsU8a` is the one for 256 bits. -/
structure UtilCrypto where
  hexToU8a : String -> Uint8Array
  u8aToHex : Uint8Array -> String
  blake2AsU8a : Uint8Array -> Uint8Array
  naclBoxPairFromSecret : Option (Uint8Array -> Keypair) := none
  naclKeypairFromSeed : Option (Uint8Array -> Keypair) := none
  naclKeypairFromSecret : Option (Uint8Array -> Keypair) := none
  naclKeyPairFromSeed : Option (Uint8Array -> Keypair) := none
  naclKeypairFromSeedRaw : Option (Uint8Array -> Keypair) := none
  naclBoxPair : Option (Uint8Array -> Keypair) := none
  naclEncrypt : (message secret nonce : Uint8Array) -> Encrypted
  naclDecrypt : (encrypted nonce secret : Uint8Array) -> Option Uint8Array

namespace UtilCrypto

/-! ## Ephemeral key pairs -/

/-- The first exported function that derives a key pair from a secret. -/
def keypairFromSecret (crypto : UtilCrypto) :
    Option (Uint8Array -> Keypair) :=
  crypto.naclBoxPairFromSecret <|> crypto.naclKeypairFromSeed <|>
    crypto.naclKeypairFromSecret <|> crypto.naclKeyPairFromSeed <|>
    crypto.naclKeypairFromSeedRaw

/-- `generateEphemeralKeypair()`, with the draw of `randomAsU8a(32)`. -/
def generateEphemeralKeypair
    (crypto : UtilCrypto)
    (ephemeralSecret : Uint8Array) : Except Exception Keypair :=
  match crypto.keypairFromSecret, crypto.naclBoxPair with
  | some keypairFromSecret, _ => .ok (keypairFromSecret ephemeralSecret)
  | none, some naclBoxPair => .ok (naclBoxPair ephemeralSecret)
  | none, none =>
      .error (.error
        "No nacl keypair-from-secret function available in @polkadot/util-crypto")

/-! ## Laws -/

section Laws

variable (crypto : UtilCrypto)

/-- Decoding inverts encoding. -/
def HexRoundTrips : Prop :=
  ∀ bytes, crypto.hexToU8a (crypto.u8aToHex bytes) = bytes

/-- A digest of 256 bits has 32 bytes. -/
def DigestsHave32Bytes : Prop :=
  ∀ data, (crypto.blake2AsU8a data).length = 32

/-- The secret box: the nonce is returned with the ciphertext, and decryption
yields the message for the same nonce and secret and nothing otherwise. -/
structure AuthenticatedEncryption : Prop where
  nonce_naclEncrypt : ∀ message secret nonce,
    (crypto.naclEncrypt message secret nonce).nonce = nonce
  naclDecrypt_same : ∀ message secret nonce,
    crypto.naclDecrypt (crypto.naclEncrypt message secret nonce).encrypted nonce
      secret = some message
  naclDecrypt_other : ∀ message secret nonce otherNonce otherSecret,
    (otherNonce, otherSecret) ≠ (nonce, secret) ->
      crypto.naclDecrypt (crypto.naclEncrypt message secret nonce).encrypted
        otherNonce otherSecret = none

end Laws

/-- Encoding is injective where decoding inverts it. -/
theorem HexRoundTrips.u8aToHex_inj
    {crypto : UtilCrypto}
    (hex : crypto.HexRoundTrips)
    {first second : Uint8Array} :
    crypto.u8aToHex first = crypto.u8aToHex second ↔ first = second := by
  constructor
  · intro same
    rw [← hex first, same, hex second]
  · rintro rfl
    rfl

/-- Two different byte strings have one digest. -/
def Collision (crypto : UtilCrypto) (first second : Uint8Array) : Prop :=
  first ≠ second ∧ crypto.blake2AsU8a first = crypto.blake2AsU8a second

/-- Digests agree on equal strings and on collisions. -/
theorem blake2AsU8a_eq_iff
    (crypto : UtilCrypto)
    (first second : Uint8Array) :
    crypto.blake2AsU8a first = crypto.blake2AsU8a second ↔
      first = second ∨ crypto.Collision first second := by
  by_cases same : first = second
  · simp [same]
  · simp [same, Collision]

end UtilCrypto

/-! ## A sample library -/

/-- The two hex digits of a byte. -/
def hexDigits (byte : UInt8) : List Char :=
  [Nat.digitChar (byte.toNat / 16), Nat.digitChar (byte.toNat % 16)]

/-- The bytes of a text of hex digits; a last single digit is the high one. -/
def bytesOfDigits : List Char -> Uint8Array
  | high :: low :: text =>
      UInt8.ofNat
          (16 * (digitValue 16 high).getD 0 + (digitValue 16 low).getD 0) ::
        bytesOfDigits text
  | [high] => [UInt8.ofNat (16 * (digitValue 16 high).getD 0)]
  | [] => []

/-- The digits of a hex text, which start after the prefix `0x` if it has
one. -/
def digitsOfHex (text : List Char) : List Char :=
  if ['0', 'x'] <+: text then text.drop 2 else text

/-- A length in unary in front of the bytes, so that no frame starts another. -/
def frame (bytes : Uint8Array) : Uint8Array :=
  List.replicate bytes.length 1 ++ 0 :: bytes

/-- A library with the hex texts of the real one, the last 32 bytes for the
digest and a box that shows what it was closed with. -/
def sampleCrypto : UtilCrypto where
  hexToU8a text := bytesOfDigits (digitsOfHex text.toList)
  u8aToHex bytes := String.ofList ('0' :: 'x' :: bytes.flatMap hexDigits)
  blake2AsU8a data := (data.reverse ++ List.replicate 32 0).take 32
  naclBoxPairFromSecret := some fun secret =>
    { publicKey := secret.map (· + 1), secretKey := secret }
  naclEncrypt message secret nonce :=
    { encrypted := frame secret ++ frame nonce ++ message, nonce := nonce }
  naclDecrypt encrypted nonce secret :=
    if frame secret ++ frame nonce <+: encrypted then
      some (encrypted.drop (frame secret ++ frame nonce).length)
    else none

/-- A key of 32 equal bytes. -/
def sampleKey (byte : UInt8) : Uint8Array := List.replicate 32 byte

/-- The bytes of the hex digits of some bytes are these bytes. -/
theorem bytesOfDigits_flatMap_hexDigits (bytes : Uint8Array) :
    bytesOfDigits (bytes.flatMap hexDigits) = bytes := by
  have digit : ∀ n : Fin 16, digitValue 16 (Nat.digitChar n) = some n.val := by
    decide
  induction bytes with
  | nil => rfl
  | cons byte bytes inductionHypothesis =>
      have high := digit ⟨byte.toNat / 16, by have := byte.toNat_lt; omega⟩
      have low := digit ⟨byte.toNat % 16, by omega⟩
      rw [List.flatMap_cons, hexDigits, List.cons_append, List.cons_append,
        List.nil_append, bytesOfDigits, inductionHypothesis, high, low,
        Option.getD_some, Option.getD_some, Nat.div_add_mod, UInt8.ofNat_toNat]

theorem sampleCrypto_hexRoundTrips : sampleCrypto.HexRoundTrips := by
  intro bytes
  change bytesOfDigits (digitsOfHex (String.ofList _).toList) = bytes
  rw [String.toList_ofList, digitsOfHex,
    if_pos ⟨bytes.flatMap hexDigits, rfl⟩]
  exact bytesOfDigits_flatMap_hexDigits bytes

theorem sampleCrypto_digestsHave32Bytes : sampleCrypto.DigestsHave32Bytes := by
  intro data
  change ((data.reverse ++ List.replicate 32 0).take 32).length = 32
  simp

/-- The digest of the sample library is the reverse of the last 32 bytes. -/
theorem sampleCrypto_blake2AsU8a_append
    (data : Uint8Array)
    {last : Uint8Array}
    (full : last.length = 32) :
    sampleCrypto.blake2AsU8a (data ++ last) = last.reverse := by
  change ((data ++ last).reverse ++ List.replicate 32 0).take 32 = _
  rw [List.reverse_append, List.append_assoc]
  exact List.take_left' (by rw [List.length_reverse, full])

/-- What follows a frame starts where the frame ends. -/
theorem frame_append_inj
    {first second firstRest secondRest : Uint8Array}
    (same : frame first ++ firstRest = frame second ++ secondRest) :
    first = second ∧ firstRest = secondRest := by
  have unary : ∀ (bytes rest : Uint8Array),
      ((frame bytes ++ rest).takeWhile (· == 1)).length = bytes.length := by
    intro bytes rest
    rw [frame, List.append_assoc, List.takeWhile_append_of_pos]
    · simp
    · simp
  have lengths : first.length = second.length := by
    rw [← unary first firstRest, same, unary]
  have frames : (frame first).length = (frame second).length := by
    simp [frame, lengths]
  obtain ⟨sameFrames, sameRest⟩ := List.append_inj same frames
  refine ⟨?_, sameRest⟩
  rw [frame, frame, lengths] at sameFrames
  exact (List.cons.inj (List.append_cancel_left sameFrames)).2

theorem sampleCrypto_authenticatedEncryption :
    sampleCrypto.AuthenticatedEncryption where
  nonce_naclEncrypt _ _ _ := rfl
  naclDecrypt_same message secret nonce := by
    change (if frame secret ++ frame nonce <+:
        frame secret ++ frame nonce ++ message then _ else _) = _
    rw [if_pos (List.prefix_append _ _)]
    exact congrArg some List.drop_left
  naclDecrypt_other message secret nonce otherNonce otherSecret other := by
    change (if frame otherSecret ++ frame otherNonce <+:
        frame secret ++ frame nonce ++ message then _ else _) = _
    refine if_neg ?_
    rintro ⟨rest, same⟩
    rw [List.append_assoc, List.append_assoc] at same
    obtain ⟨sameSecret, sameTail⟩ := frame_append_inj same
    obtain ⟨sameNonce, -⟩ := frame_append_inj sameTail
    exact other (Prod.ext sameNonce sameSecret)

end Client
end Privachain
