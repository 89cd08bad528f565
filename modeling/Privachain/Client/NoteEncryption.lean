import Privachain.Client.UtilCrypto
import Privachain.Foundation.Objects

/-!
# Encrypted notes

A note is serialized, encrypted with the secret box of the library and carried
as hex texts.  The box is closed with the ephemeral secret key and opened with
the ephemeral public key; the keys of the recipient serve as a nonce and as an
argument that the library does not read.
-/

namespace Privachain
namespace Client
namespace Encryption

open Foundation
open Foundation.JavaScript

/-! ## Serialization -/

/-- `TextEncoder.encode(text)`; the halves of a surrogate pair are encoded one by
one. -/
def textEncode (text : String) : Uint8Array := text.toByteArray.data.toList

/-- `TextDecoder.decode(bytes)` for bytes that are UTF-8, without a byte order
mark at the start. -/
def textDecode (bytes : Uint8Array) : Option String := do
  let chars ← (ByteArray.mk bytes.toArray).utf8Decode?
  return String.ofList
    (if chars.toList.head? = some (Char.ofNat 0xFEFF) then chars.toList.drop 1
      else chars.toList)

/-- Decoding inverts encoding on texts that do not start with a byte order
mark. -/
theorem textDecode_textEncode
    {text : String}
    (noMark : text.toList.head? ≠ some (Char.ofNat 0xFEFF)) :
    textDecode (textEncode text) = some text := by
  have bytes : ByteArray.mk (textEncode text).toArray =
      text.toList.utf8Encode := by
    rw [textEncode, Array.toArray_toList, String.utf8Encode_toList]
  rw [textDecode, bytes, List.utf8Decode?_utf8Encode, Option.bind_eq_bind,
    Option.bind_some, List.toList_toArray, if_neg noMark, String.ofList_toList]
  rfl

/-- `interface DecryptedNote`, as it is encrypted. -/
structure DecryptedNote where
  value : String
  secret : String
  sender : String
  memo : Option String := none
  commitment : String
  assetId : Option String := none
  deriving DecidableEq

/-- What `deserializeNote` returns: the properties of a parsed text, which need
not be strings. -/
structure DeserializedNote where
  value : Value
  secret : Value
  sender : Value
  memo : Value
  commitment : Value
  assetId : Value

/-- `text || fallback` -/
def orElse (text : Option String) (fallback : String) : String :=
  match text with
  | some text => if text = "" then fallback else text
  | none => fallback

/-- `serializeNote(note)` -/
def serializeNote (note : DecryptedNote) : Uint8Array :=
  let data :=
    [("value", note.value), ("secret", note.secret), ("sender", note.sender),
      ("memo", orElse note.memo ""), ("commitment", note.commitment),
      ("assetId", orElse note.assetId "0")]
  textEncode (JSON.stringifyStrings data)

/-- `value !== text` -/
def isOtherText (value : Value) (text : String) : Bool :=
  match value with
  | .string actual => actual != text
  | _ => true

/-- `deserializeNote(data)` -/
def deserializeNote (data : Uint8Array) : Except Exception DeserializedNote := do
  let jsonString ←
    match textDecode data with
    | some jsonString => .ok jsonString
    | none => .error (.syntaxError "Unexpected token in JSON")
  let parsed ← JSON.parseText jsonString
  let value ← readProperty parsed "value"
  let secret ← readProperty parsed "secret"
  let sender ← readProperty parsed "sender"
  let memo ← readProperty parsed "memo"
  let commitment ← readProperty parsed "commitment"
  let assetId ← readProperty parsed "assetId"
  return {
    value := value
    secret := secret
    sender := sender
    memo := if memo.truthy then memo else .undefined
    commitment := commitment
    assetId := if isOtherText assetId "0" then assetId else .undefined }

/-- The note as it is read back: an empty memo is an absent one, and the asset
`0` is an absent one. -/
def DecryptedNote.identified (note : DecryptedNote) : DeserializedNote where
  value := .string note.value
  secret := .string note.secret
  sender := .string note.sender
  memo :=
    match note.memo with
    | some memo => if memo = "" then .undefined else .string memo
    | none => .undefined
  commitment := .string note.commitment
  assetId :=
    match note.assetId with
    | some assetId => if assetId = "0" then .undefined else .string assetId
    | none => .undefined

/-- The object that a serialized note is parsed as. -/
theorem parseText_serializedNote (note : DecryptedNote) :
    (textDecode (serializeNote note)).map JSON.parseText =
      some (.ok (.object
        [("value", .string note.value), ("secret", .string note.secret),
          ("sender", .string note.sender),
          ("memo", .string (orElse note.memo "")),
          ("commitment", .string note.commitment),
          ("assetId", .string (orElse note.assetId "0"))])) := by
  rw [serializeNote, textDecode_textEncode, Option.map_some,
    JSON.parseText_stringifyStrings]
  · rfl
  · exact JSON.isOwn_of_names
      ["value", "secret", "sender", "memo", "commitment", "assetId"] rfl
      (by decide +kernel)
  · obtain ⟨rest, start⟩ := JSON.exists_stringifyStrings_eq
      [("value", note.value), ("secret", note.secret), ("sender", note.sender),
        ("memo", orElse note.memo ""), ("commitment", note.commitment),
        ("assetId", orElse note.assetId "0")]
    rw [start, List.head?_cons]
    decide

/-- What a serialized note is read back as. -/
def DecryptedNote.readBack (note : DecryptedNote) : DeserializedNote where
  value := .string note.value
  secret := .string note.secret
  sender := .string note.sender
  memo :=
    if orElse note.memo "" = "" then .undefined
    else .string (orElse note.memo "")
  commitment := .string note.commitment
  assetId :=
    if orElse note.assetId "0" = "0" then .undefined
    else .string (orElse note.assetId "0")

/-- Every serialized note is read back. -/
theorem deserializeNote_serializeNote (note : DecryptedNote) :
    deserializeNote (serializeNote note) = .ok note.readBack := by
  obtain ⟨jsonString, decoded, parsed⟩ :=
    Option.map_eq_some_iff.mp (parseText_serializedNote note)
  rw [deserializeNote, decoded]
  change (JSON.parseText jsonString >>= _) = _
  rw [parsed]
  simp only [bind, Except.bind, readProperty, propertyOf, Value.property,
    List.lookup_cons, isOtherText, Value.truthy]
  simp
  rfl

/-- The note that is read back is the one that was serialized, unless its asset
is the empty text: that one is read back as absent. -/
theorem DecryptedNote.readBack_eq_identified_iff (note : DecryptedNote) :
    note.readBack = note.identified ↔ note.assetId ≠ some "" := by
  obtain ⟨value, secret, sender, memo, commitment, assetId⟩ := note
  have sameMemo :
      (if orElse memo "" = "" then Value.undefined
        else .string (orElse memo "")) =
        (match memo with
          | some memo => if memo = "" then .undefined else .string memo
          | none => .undefined) := by
    cases memo with
    | none => rfl
    | some memo => by_cases empty : memo = "" <;> simp [orElse, empty]
  simp only [readBack, identified, sameMemo, DeserializedNote.mk.injEq,
    true_and]
  cases assetId with
  | none => simp [orElse]
  | some assetId => by_cases empty : assetId = "" <;> simp [orElse, empty]

/-! ## Encryption -/

/-- `interface EncryptedNote` -/
structure EncryptedNote where
  ciphertext : String
  nonce : String
  ephemeralPublicKey : String
  deriving DecidableEq

section Encrypt

variable (crypto : UtilCrypto)

/-- `createEncryptedNote(encrypted, nonce, ephemeralPublicKey)` -/
def createEncryptedNote
    (encrypted nonce ephemeralPublicKey : Uint8Array) : EncryptedNote where
  ciphertext := crypto.u8aToHex encrypted
  nonce := crypto.u8aToHex nonce
  ephemeralPublicKey := crypto.u8aToHex ephemeralPublicKey

/-- `encryptNote(note, recipientPublicKey)`, with the draw of
`randomAsU8a(32)`. -/
def encryptNote
    (ephemeralSecret : Uint8Array)
    (note : DecryptedNote)
    (recipientPublicKey : String) : Except Exception EncryptedNote := do
  let ephemeralKeypair ← crypto.generateEphemeralKeypair ephemeralSecret
  let noteData := serializeNote note
  let recipientPubKey := crypto.hexToU8a recipientPublicKey
  let sealed :=
    crypto.naclEncrypt noteData ephemeralKeypair.secretKey recipientPubKey
  return createEncryptedNote crypto sealed.encrypted sealed.nonce
    ephemeralKeypair.publicKey

/-- `decryptNote(encryptedNote, recipientPrivateKey)`; `none` is `null`.  The
call of `naclDecrypt` passes the private key as a fourth argument, which is not
a parameter of the library function. -/
def decryptNote
    (encryptedNote : EncryptedNote)
    (_recipientPrivateKey : String) : Option DeserializedNote :=
  let ciphertext := crypto.hexToU8a encryptedNote.ciphertext
  let nonce := crypto.hexToU8a encryptedNote.nonce
  let ephemeralPubKey := crypto.hexToU8a encryptedNote.ephemeralPublicKey
  match crypto.naclDecrypt ciphertext nonce ephemeralPubKey with
  | some decrypted => (deserializeNote decrypted).toOption
  | none => none

/-- The recipient reads the encrypted note with the private key. -/
def RecipientReads
    (ephemeralSecret : Uint8Array)
    (note : DecryptedNote)
    (recipientPublicKey recipientPrivateKey : String) : Prop :=
  ∃ encryptedNote,
    encryptNote crypto ephemeralSecret note recipientPublicKey =
      .ok encryptedNote ∧
    decryptNote crypto encryptedNote recipientPrivateKey =
      some note.identified

/-- Another private key reads nothing. -/
def OtherReadsNothing
    (ephemeralSecret : Uint8Array)
    (note : DecryptedNote)
    (recipientPublicKey otherPrivateKey : String) : Prop :=
  ∃ encryptedNote,
    encryptNote crypto ephemeralSecret note recipientPublicKey =
      .ok encryptedNote ∧
    decryptNote crypto encryptedNote otherPrivateKey = none

variable {crypto}

/-- An encrypted note is the box closed with the ephemeral secret key. -/
theorem encryptNote_eq_ok_iff
    (ephemeralSecret : Uint8Array)
    (note : DecryptedNote)
    (recipientPublicKey : String)
    (encryptedNote : EncryptedNote) :
    encryptNote crypto ephemeralSecret note recipientPublicKey =
        .ok encryptedNote ↔
      ∃ pair, crypto.generateEphemeralKeypair ephemeralSecret = .ok pair ∧
        encryptedNote =
          createEncryptedNote crypto
            (crypto.naclEncrypt (serializeNote note) pair.secretKey
              (crypto.hexToU8a recipientPublicKey)).encrypted
            (crypto.naclEncrypt (serializeNote note) pair.secretKey
              (crypto.hexToU8a recipientPublicKey)).nonce
            pair.publicKey := by
  unfold encryptNote
  rw [bind_eq_ok_iff]
  refine exists_congr fun pair => and_congr_right fun _ => ?_
  exact returned_eq_ok_iff _ _

/-- An encrypted note is read, with whatever private key, exactly when the
ephemeral public key is the ephemeral secret key. -/
theorem decryptNote_createEncryptedNote
    (hex : crypto.HexRoundTrips)
    (box : crypto.AuthenticatedEncryption)
    (note : DecryptedNote)
    (pair : Keypair)
    (nonce : Uint8Array)
    (privateKey : String) :
    decryptNote crypto
        (createEncryptedNote crypto
          (crypto.naclEncrypt (serializeNote note) pair.secretKey
            nonce).encrypted
          (crypto.naclEncrypt (serializeNote note) pair.secretKey nonce).nonce
          pair.publicKey) privateKey =
      if pair.publicKey = pair.secretKey then some note.readBack else none := by
  simp only [decryptNote, createEncryptedNote, hex _, box.nonce_naclEncrypt]
  by_cases same : pair.publicKey = pair.secretKey
  · rw [if_pos same, same, box.naclDecrypt_same]
    change (deserializeNote (serializeNote note)).toOption = _
    rw [deserializeNote_serializeNote]
    rfl
  · have opened : crypto.naclDecrypt
        (crypto.naclEncrypt (serializeNote note) pair.secretKey
          nonce).encrypted nonce pair.publicKey = none :=
      box.naclDecrypt_other _ _ _ _ _ fun both =>
        same (congrArg Prod.snd both)
    rw [if_neg same, opened]

/-- The recipient reads a note exactly when the ephemeral public key is the
ephemeral secret key and the asset of the note is not the empty text. -/
theorem recipientReads_iff
    (hex : crypto.HexRoundTrips)
    (box : crypto.AuthenticatedEncryption)
    (ephemeralSecret : Uint8Array)
    (note : DecryptedNote)
    (recipientPublicKey recipientPrivateKey : String) :
    RecipientReads crypto ephemeralSecret note recipientPublicKey
        recipientPrivateKey ↔
      ∃ pair, crypto.generateEphemeralKeypair ephemeralSecret = .ok pair ∧
        pair.publicKey = pair.secretKey ∧ note.assetId ≠ some "" := by
  constructor
  · rintro ⟨_, encrypted, read⟩
    obtain ⟨pair, generated, rfl⟩ :=
      (encryptNote_eq_ok_iff _ _ _ _).mp encrypted
    rw [decryptNote_createEncryptedNote hex box] at read
    by_cases same : pair.publicKey = pair.secretKey
    · rw [if_pos same, Option.some_inj,
        DecryptedNote.readBack_eq_identified_iff] at read
      exact ⟨pair, generated, same, read⟩
    · rw [if_neg same] at read
      cases read
  · rintro ⟨pair, generated, same, asset⟩
    refine ⟨_, (encryptNote_eq_ok_iff _ _ _ _).mpr ⟨pair, generated, rfl⟩, ?_⟩
    rw [decryptNote_createEncryptedNote hex box, if_pos same,
      note.readBack_eq_identified_iff.mpr asset]

/-- Another private key reads nothing exactly when the ephemeral public key is
not the ephemeral secret key. -/
theorem otherReadsNothing_iff
    (hex : crypto.HexRoundTrips)
    (box : crypto.AuthenticatedEncryption)
    (ephemeralSecret : Uint8Array)
    (note : DecryptedNote)
    (recipientPublicKey otherPrivateKey : String) :
    OtherReadsNothing crypto ephemeralSecret note recipientPublicKey
        otherPrivateKey ↔
      ∃ pair, crypto.generateEphemeralKeypair ephemeralSecret = .ok pair ∧
        pair.publicKey ≠ pair.secretKey := by
  constructor
  · rintro ⟨_, encrypted, read⟩
    obtain ⟨pair, generated, rfl⟩ :=
      (encryptNote_eq_ok_iff _ _ _ _).mp encrypted
    refine ⟨pair, generated, fun same => ?_⟩
    rw [decryptNote_createEncryptedNote hex box, if_pos same] at read
    cases read
  · rintro ⟨pair, generated, different⟩
    refine ⟨_, (encryptNote_eq_ok_iff _ _ _ _).mpr ⟨pair, generated, rfl⟩, ?_⟩
    rw [decryptNote_createEncryptedNote hex box, if_neg different]

end Encrypt

/-- **Reading.**  Whether a note can be read depends on the ephemeral key pair
alone, so the recipient never reads a note that another key does not read. -/
theorem encryptNote_neverReadByRecipientOnly
    (crypto : UtilCrypto)
    (hex : crypto.HexRoundTrips)
    (box : crypto.AuthenticatedEncryption)
    (ephemeralSecret : Uint8Array)
    (note : DecryptedNote)
    (recipientPublicKey recipientPrivateKey otherPrivateKey : String) :
    (RecipientReads crypto ephemeralSecret note recipientPublicKey
        recipientPrivateKey ↔
      ∃ pair, crypto.generateEphemeralKeypair ephemeralSecret = .ok pair ∧
        pair.publicKey = pair.secretKey ∧ note.assetId ≠ some "") ∧
    (OtherReadsNothing crypto ephemeralSecret note recipientPublicKey
        otherPrivateKey ↔
      ∃ pair, crypto.generateEphemeralKeypair ephemeralSecret = .ok pair ∧
        pair.publicKey ≠ pair.secretKey) ∧
    ¬(RecipientReads crypto ephemeralSecret note recipientPublicKey
          recipientPrivateKey ∧
        OtherReadsNothing crypto ephemeralSecret note recipientPublicKey
          otherPrivateKey) := by
  refine ⟨recipientReads_iff hex box _ _ _ _,
    otherReadsNothing_iff hex box _ _ _ _, ?_⟩
  rintro ⟨reads, readsNothing⟩
  obtain ⟨pair, generated, same, -⟩ :=
    (recipientReads_iff hex box _ _ _ _).mp reads
  obtain ⟨_, again, different⟩ :=
    (otherReadsNothing_iff hex box _ _ _ _).mp readsNothing
  cases generated.symm.trans again
  exact different same

/-- A note without a memo. -/
def sampleNote : DecryptedNote where
  value := "5"
  secret := "0x01"
  sender := "0x02"
  commitment := "0x03"

/-- The hex text of a sample key. -/
def sampleHexKey (byte : UInt8) : String :=
  sampleCrypto.u8aToHex (sampleKey byte)

/-- The condition at sample keys. -/
theorem sampleNote_neverReadByRecipientOnly :
    (RecipientReads sampleCrypto (sampleKey 3) sampleNote (sampleHexKey 1)
        (sampleHexKey 2) ↔
      ∃ pair,
        sampleCrypto.generateEphemeralKeypair (sampleKey 3) = .ok pair ∧
        pair.publicKey = pair.secretKey ∧ sampleNote.assetId ≠ some "") ∧
    (OtherReadsNothing sampleCrypto (sampleKey 3) sampleNote (sampleHexKey 1)
        (sampleHexKey 4) ↔
      ∃ pair,
        sampleCrypto.generateEphemeralKeypair (sampleKey 3) = .ok pair ∧
        pair.publicKey ≠ pair.secretKey) ∧
    ¬(RecipientReads sampleCrypto (sampleKey 3) sampleNote (sampleHexKey 1)
          (sampleHexKey 2) ∧
        OtherReadsNothing sampleCrypto (sampleKey 3) sampleNote
          (sampleHexKey 1) (sampleHexKey 4)) :=
  encryptNote_neverReadByRecipientOnly sampleCrypto sampleCrypto_hexRoundTrips
    sampleCrypto_authenticatedEncryption (sampleKey 3) sampleNote
    (sampleHexKey 1) (sampleHexKey 2) (sampleHexKey 4)

/-- The recipient does not read a note that was encrypted for the public
key. -/
theorem sampleNote_notRead :
    ¬∀ (crypto : UtilCrypto), crypto.HexRoundTrips ->
      crypto.AuthenticatedEncryption ->
      ∀ ephemeralSecret note recipientPublicKey recipientPrivateKey
          otherPrivateKey,
        RecipientReads crypto ephemeralSecret note recipientPublicKey
            recipientPrivateKey ∧
          OtherReadsNothing crypto ephemeralSecret note recipientPublicKey
            otherPrivateKey := by
  intro always
  have reads := (always sampleCrypto sampleCrypto_hexRoundTrips
    sampleCrypto_authenticatedEncryption (sampleKey 3) sampleNote
    (sampleHexKey 1) (sampleHexKey 2) (sampleHexKey 4)).1
  obtain ⟨pair, generated, same, -⟩ :=
    (recipientReads_iff sampleCrypto_hexRoundTrips
      sampleCrypto_authenticatedEncryption _ _ _ _).mp reads
  cases generated
  exact absurd same (by decide)

end Encryption
end Client
end Privachain
