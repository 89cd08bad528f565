import Privachain.Client.TransferProver
import Privachain.Foundation.Blocks

/-!
# The encodings of the transfer prover

Public inputs and commitment preimages are concatenations without lengths or
separators.  Two statements have the same public inputs when whole items change
their list or move into the amount, and two notes have the same preimage when
bytes move from one field to the next.
-/

namespace Privachain
namespace Client
namespace ZKProver

open Foundation
open Foundation.JavaScript

/-! ## Public inputs -/

/-- The statement of a transfer proof. -/
structure TransferStatement where
  merkleRoot : String
  nullifiers : List String
  commitments : List String
  publicAmount : String
  deriving DecidableEq

namespace TransferStatement

/-- The object that `generateTransferProof` serializes. -/
def entries (statement : TransferStatement) : List (String × PublicInput) :=
  [("merkleRoot", .text statement.merkleRoot),
    ("nullifiers", .list statement.nullifiers),
    ("commitments", .list statement.commitments),
    ("publicAmount", .text statement.publicAmount)]

/-- The root, the nullifiers and the commitments. -/
def items (statement : TransferStatement) : List String :=
  statement.merkleRoot :: statement.nullifiers ++ statement.commitments

/-- Both statements have the same root, the same lists and the same amount. -/
def Same (first second : TransferStatement) : Prop :=
  first.merkleRoot = second.merkleRoot ∧
    first.nullifiers = second.nullifiers ∧
    first.commitments = second.commitments ∧
    stringToBigInt first.publicAmount = stringToBigInt second.publicAmount

variable (crypto : UtilCrypto)

/-- The bytes of the items. -/
def itemBytes (statement : TransferStatement) : List Uint8Array :=
  statement.items.map crypto.hexToU8a

/-- The bytes of the amount. -/
def amountBytes (statement : TransferStatement) : Uint8Array :=
  crypto.hexToU8a statement.publicAmount

/-- The last items of the second statement start the amount of the first. -/
def MovesIntoAmount (first second : TransferStatement) : Prop :=
  ContinuesBlocks (first.itemBytes crypto) (first.amountBytes crypto)
    (second.itemBytes crypto) (second.amountBytes crypto)

/-- The same items and the same amount, with another number of nullifiers. -/
def SwitchesLists (first second : TransferStatement) : Prop :=
  first.itemBytes crypto = second.itemBytes crypto ∧
    first.amountBytes crypto = second.amountBytes crypto ∧
    first.nullifiers.length ≠ second.nullifiers.length

/-- The same lists and the same amount as bytes, from texts that differ: an item
in other letters, or an amount that is another number. -/
def Respells (first second : TransferStatement) : Prop :=
  first.itemBytes crypto = second.itemBytes crypto ∧
    first.amountBytes crypto = second.amountBytes crypto ∧
    first.nullifiers.length = second.nullifiers.length ∧
    (first.items ≠ second.items ∨
      stringToBigInt first.publicAmount ≠ stringToBigInt second.publicAmount)

/-- The ways in which two statements have the same public inputs. -/
def Regroups (first second : TransferStatement) : Prop :=
  first.MovesIntoAmount crypto second ∨ second.MovesIntoAmount crypto first ∨
    first.SwitchesLists crypto second ∨ first.Respells crypto second

/-- The items and the number of nullifiers determine the lists. -/
theorem same_iff (first second : TransferStatement) :
    first.Same second ↔
      first.nullifiers.length = second.nullifiers.length ∧
        first.items = second.items ∧
        stringToBigInt first.publicAmount =
          stringToBigInt second.publicAmount := by
  constructor
  · rintro ⟨root, nullifiers, commitments, amount⟩
    refine ⟨congrArg List.length nullifiers, ?_, amount⟩
    rw [items, items, root, nullifiers, commitments]
  · rintro ⟨count, sameItems, amount⟩
    obtain ⟨root, lists⟩ := List.cons.inj sameItems
    obtain ⟨nullifiers, commitments⟩ := List.append_inj lists count
    exact ⟨root, nullifiers, commitments, amount⟩

end TransferStatement

/-- The public inputs are the bytes of the items, followed by those of the
amount. -/
theorem serializePublicInputs_entries
    (crypto : UtilCrypto)
    (statement : TransferStatement) :
    serializePublicInputs crypto statement.entries =
      (statement.itemBytes crypto).flatten ++ statement.amountBytes crypto := by
  simp [serializePublicInputs, TransferStatement.entries,
    TransferStatement.itemBytes, TransferStatement.items,
    TransferStatement.amountBytes, List.flatMap_def]

/-- A statement that continues another one has more items. -/
theorem TransferStatement.MovesIntoAmount.items_length_lt
    {crypto : UtilCrypto}
    {first second : TransferStatement}
    (moves : first.MovesIntoAmount crypto second) :
    first.items.length < second.items.length := by
  have longer := ContinuesBlocks.length_lt moves
  rwa [TransferStatement.itemBytes, TransferStatement.itemBytes,
    List.length_map, List.length_map] at longer

/-- **The public inputs of statements with items of 32 bytes tell them apart
exactly when neither regroups the items of the other.** -/
theorem serializePublicInputs_injective_iff
    (crypto : UtilCrypto)
    (first second : TransferStatement)
    (sized : ∀ statement ∈ [first, second], ∀ item ∈ statement.items,
      (crypto.hexToU8a item).length = 32) :
    (serializePublicInputs crypto first.entries =
        serializePublicInputs crypto second.entries ->
      first.Same second) ↔
      ¬first.Regroups crypto second := by
  have blocks : ∀ statement ∈ [first, second],
      ∀ block ∈ statement.itemBytes crypto, block.length = 32 := by
    intro statement isStatement block member
    obtain ⟨item, isItem, rfl⟩ := List.mem_map.mp member
    exact sized statement isStatement item isItem
  rw [serializePublicInputs_entries, serializePublicInputs_entries,
    flatten_append_eq_iff (blocks first (by simp)) (blocks second (by simp)),
    TransferStatement.same_iff]
  constructor
  · rintro injective (moves | moves | ⟨items, amount, lists⟩ |
      ⟨items, amount, -, texts⟩)
    · have longer := moves.items_length_lt
      rw [(injective (.inr (.inl moves))).2.1] at longer
      exact lt_irrefl _ longer
    · have longer := moves.items_length_lt
      rw [(injective (.inr (.inr moves))).2.1] at longer
      exact lt_irrefl _ longer
    · exact lists (injective (.inl ⟨items, amount⟩)).1
    · obtain ⟨-, sameItems, sameAmount⟩ := injective (.inl ⟨items, amount⟩)
      exact texts.elim (· sameItems) (· sameAmount)
  · rintro separate (⟨items, amount⟩ | moves | moves)
    · have lists : first.nullifiers.length = second.nullifiers.length := by
        by_contra switches
        exact separate (.inr (.inr (.inl ⟨items, amount, switches⟩)))
      refine ⟨lists, ?_⟩
      by_contra texts
      refine separate (.inr (.inr (.inr ⟨items, amount, lists, ?_⟩)))
      exact not_and_or.mp texts
    · exact absurd (.inl moves) separate
    · exact absurd (.inr (.inl moves)) separate

/-- A sample item. -/
def sampleItem (byte : UInt8) : String := sampleCrypto.u8aToHex (sampleKey byte)

/-- A statement with two nullifiers and one commitment. -/
def twoNullifiers : TransferStatement where
  merkleRoot := sampleItem 1
  nullifiers := [sampleItem 2, sampleItem 3]
  commitments := [sampleItem 4]
  publicAmount := "0"

/-- The same items with one nullifier and two commitments. -/
def oneNullifier : TransferStatement where
  merkleRoot := sampleItem 1
  nullifiers := [sampleItem 2]
  commitments := [sampleItem 3, sampleItem 4]
  publicAmount := "0"

/-- The items of the sample statements have 32 bytes. -/
theorem length_sampleItem
    {statement : TransferStatement}
    (isSample : statement ∈ [twoNullifiers, oneNullifier])
    {item : String}
    (isItem : item ∈ statement.items) :
    (sampleCrypto.hexToU8a item).length = 32 := by
  have bytes : ∃ byte, item = sampleItem byte := by
    simp only [List.mem_cons, List.not_mem_nil, or_false] at isSample
    rcases isSample with rfl | rfl
    · simp only [TransferStatement.items, twoNullifiers, List.cons_append,
        List.nil_append, List.mem_cons, List.not_mem_nil, or_false] at isItem
      rcases isItem with rfl | rfl | rfl | rfl <;> exact ⟨_, rfl⟩
    · simp only [TransferStatement.items, oneNullifier, List.cons_append,
        List.nil_append, List.mem_cons, List.not_mem_nil, or_false] at isItem
      rcases isItem with rfl | rfl | rfl | rfl <;> exact ⟨_, rfl⟩
  obtain ⟨byte, rfl⟩ := bytes
  rw [sampleItem, sampleCrypto_hexRoundTrips]
  exact List.length_replicate

/-- When the public inputs tell the sample statements apart. -/
theorem sampleStatements_injective_iff :
    (serializePublicInputs sampleCrypto twoNullifiers.entries =
        serializePublicInputs sampleCrypto oneNullifier.entries ->
      twoNullifiers.Same oneNullifier) ↔
      ¬twoNullifiers.Regroups sampleCrypto oneNullifier :=
  serializePublicInputs_injective_iff sampleCrypto twoNullifiers oneNullifier
    fun _ isSample _ isItem => length_sampleItem isSample isItem

/-- A nullifier passes as a commitment. -/
theorem serializePublicInputs_ambiguous :
    ¬∀ (crypto : UtilCrypto), crypto.HexRoundTrips ->
      ∀ first second : TransferStatement,
        (∀ statement ∈ [first, second], ∀ item ∈ statement.items,
          (crypto.hexToU8a item).length = 32) ->
        (∀ statement ∈ [first, second], ∃ amount : Nat,
          stringToBigInt statement.publicAmount = some (amount : Int)) ->
        serializePublicInputs crypto first.entries =
          serializePublicInputs crypto second.entries ->
        first.Same second := by
  intro injective
  obtain ⟨_, sameNullifiers, _⟩ := injective sampleCrypto
    sampleCrypto_hexRoundTrips twoNullifiers oneNullifier
    (fun _ isSample _ isItem => length_sampleItem isSample isItem)
    (by
      intro statement isSample
      refine ⟨0, ?_⟩
      simp only [List.mem_cons, List.not_mem_nil, or_false] at isSample
      rcases isSample with rfl | rfl <;> decide)
    (by rw [serializePublicInputs_entries, serializePublicInputs_entries]; rfl)
  exact absurd (congrArg List.length sameNullifiers) (by decide)

/-! ## Commitment preimages -/

/-- The fields of a note, with a value that denotes a number. -/
structure CommitmentFields where
  value : String
  number : Nat
  reads : stringToBigInt value = some (number : Int)
  secret : String
  recipient : String

namespace CommitmentFields

variable (crypto : UtilCrypto)

/-- The bytes of the value. -/
def valueBytes (fields : CommitmentFields) : Uint8Array :=
  bigIntBytes crypto fields.number

/-- The number of bytes of all fields. -/
def size (fields : CommitmentFields) : Nat :=
  (fields.valueBytes crypto).length +
    (crypto.hexToU8a fields.secret).length +
    (crypto.hexToU8a fields.recipient).length

/-- Both values are one number, and the other fields are the same bytes. -/
def Same (first second : CommitmentFields) : Prop :=
  first.number = second.number ∧
    crypto.hexToU8a first.secret = crypto.hexToU8a second.secret ∧
    crypto.hexToU8a first.recipient = crypto.hexToU8a second.recipient

/-- Bytes move between the value and the other fields, or between the secret
and the recipient. -/
def Redivides (first second : CommitmentFields) : Prop :=
  MovesBoundary (first.valueBytes crypto)
      (crypto.hexToU8a first.secret ++ crypto.hexToU8a first.recipient)
      (second.valueBytes crypto)
      (crypto.hexToU8a second.secret ++ crypto.hexToU8a second.recipient) ∨
    (first.valueBytes crypto = second.valueBytes crypto ∧
      MovesBoundary (crypto.hexToU8a first.secret)
        (crypto.hexToU8a first.recipient) (crypto.hexToU8a second.secret)
        (crypto.hexToU8a second.recipient))

/-- Two values are different numbers with the same bytes, next to the same
fields. -/
def ConfusesValues (first second : CommitmentFields) : Prop :=
  first.number ≠ second.number ∧
    first.valueBytes crypto = second.valueBytes crypto ∧
    crypto.hexToU8a first.secret = crypto.hexToU8a second.secret ∧
    crypto.hexToU8a first.recipient = crypto.hexToU8a second.recipient

/-- Equal preimages come from the same fields, and no preimage is the one of an
inner node. -/
def Unambiguous (first second : CommitmentFields) : Prop :=
  (∀ data,
    commitmentPreimage crypto first.value first.secret first.recipient =
      .ok data ->
    commitmentPreimage crypto second.value second.secret second.recipient =
      .ok data ->
    first.Same crypto second) ∧
  ∀ fields ∈ [first, second], ∀ left right : Uint8Array,
    left.length = 32 -> right.length = 32 ->
    commitmentPreimage crypto fields.value fields.secret fields.recipient ≠
      .ok (left ++ right)

/-- The preimage is the concatenation of the three fields. -/
theorem commitmentPreimage_eq_ok_iff
    (fields : CommitmentFields)
    (data : Uint8Array) :
    commitmentPreimage crypto fields.value fields.secret fields.recipient =
        .ok data ↔
      data = fields.valueBytes crypto ++
        (crypto.hexToU8a fields.secret ++
          crypto.hexToU8a fields.recipient) := by
  unfold commitmentPreimage toBigIntBytes bigIntOfString
  rw [fields.reads, ← List.append_assoc]
  exact returned_eq_ok_iff _ _

/-- A preimage is the one of an inner node exactly when it has 64 bytes. -/
theorem isNodePreimage_iff (fields : CommitmentFields) :
    (∃ left right : Uint8Array, left.length = 32 ∧ right.length = 32 ∧
      commitmentPreimage crypto fields.value fields.secret fields.recipient =
        .ok (left ++ right)) ↔
      fields.size crypto = 64 := by
  simp only [commitmentPreimage_eq_ok_iff]
  constructor
  · rintro ⟨left, right, leftSize, rightSize, same⟩
    have total := congrArg List.length same
    simp only [List.length_append] at total
    rw [size]
    omega
  · intro full
    refine ⟨_, _, ?_, ?_, List.take_append_drop 32 _⟩
    · rw [List.length_take, List.length_append, List.length_append]
      rw [size] at full
      omega
    · rw [List.length_drop, List.length_append, List.length_append]
      rw [size] at full
      omega

end CommitmentFields

/-- Two notes have the same preimage exactly when their fields are the same
bytes or bytes move between the fields. -/
theorem commitmentPreimage_eq_iff
    (crypto : UtilCrypto)
    (first second : CommitmentFields) :
    first.valueBytes crypto ++
          (crypto.hexToU8a first.secret ++ crypto.hexToU8a first.recipient) =
        second.valueBytes crypto ++
          (crypto.hexToU8a second.secret ++ crypto.hexToU8a second.recipient) ↔
      (first.valueBytes crypto = second.valueBytes crypto ∧
        crypto.hexToU8a first.secret = crypto.hexToU8a second.secret ∧
        crypto.hexToU8a first.recipient = crypto.hexToU8a second.recipient) ∨
      first.Redivides crypto second := by
  rw [append_eq_append_iff_movesBoundary, append_eq_append_iff_movesBoundary,
    CommitmentFields.Redivides]
  constructor
  · rintro (⟨value, fields | moves⟩ | moves)
    · exact .inl ⟨value, fields⟩
    · exact .inr (.inr ⟨value, moves⟩)
    · exact .inr (.inl moves)
  · rintro (⟨value, fields⟩ | moves | ⟨value, moves⟩)
    · exact .inl ⟨value, .inl fields⟩
    · exact .inr moves
    · exact .inl ⟨value, .inr moves⟩

/-- Fields that redivide the bytes of others are different. -/
theorem CommitmentFields.Redivides.not_same
    {crypto : UtilCrypto}
    {first second : CommitmentFields}
    (redivides : first.Redivides crypto second) :
    ¬first.Same crypto second := by
  rintro ⟨number, secret, -⟩
  rcases redivides with moves | ⟨-, moves⟩
  · exact moves.first_ne (congrArg (fun n : Nat => bigIntBytes crypto n) number)
  · exact moves.first_ne secret

/-- Equal preimages come from the same fields exactly when no bytes move and no
two numbers have the same bytes. -/
theorem commitmentPreimage_injective_iff
    (crypto : UtilCrypto)
    (first second : CommitmentFields) :
    (∀ data,
        commitmentPreimage crypto first.value first.secret first.recipient =
          .ok data ->
        commitmentPreimage crypto second.value second.secret
            second.recipient = .ok data ->
        first.Same crypto second) ↔
      ¬first.Redivides crypto second ∧ ¬first.ConfusesValues crypto second := by
  simp only [CommitmentFields.commitmentPreimage_eq_ok_iff]
  constructor
  · intro injective
    refine ⟨fun redivides => ?_, ?_⟩
    · exact redivides.not_same (injective _ rfl
        ((commitmentPreimage_eq_iff _ _ _).mpr (.inr redivides)))
    · rintro ⟨different, fields⟩
      exact different (injective _ rfl
        ((commitmentPreimage_eq_iff _ _ _).mpr (.inl fields))).1
  · rintro ⟨divided, separate⟩ data rfl same
    rcases (commitmentPreimage_eq_iff _ _ _).mp same with
      ⟨value, secret, recipient⟩ | redivides
    · refine ⟨?_, secret, recipient⟩
      by_contra different
      exact separate ⟨different, value, secret, recipient⟩
    · exact absurd redivides divided

/-- **The preimages of two notes are unambiguous exactly when no bytes move
between their fields, no two values have the same bytes and neither note has 64
bytes.** -/
theorem commitmentPreimage_unambiguous_iff
    (crypto : UtilCrypto)
    (first second : CommitmentFields) :
    first.Unambiguous crypto second ↔
      ¬first.Redivides crypto second ∧ ¬first.ConfusesValues crypto second ∧
        first.size crypto ≠ 64 ∧ second.size crypto ≠ 64 := by
  have noNode : ∀ fields : CommitmentFields,
      (∀ left right : Uint8Array, left.length = 32 -> right.length = 32 ->
        commitmentPreimage crypto fields.value fields.secret
          fields.recipient ≠ .ok (left ++ right)) ↔ fields.size crypto ≠ 64 := by
    intro fields
    rw [Ne, ← fields.isNodePreimage_iff crypto]
    push Not
    exact Iff.rfl
  rw [CommitmentFields.Unambiguous, ← and_assoc]
  refine and_congr (commitmentPreimage_injective_iff crypto first second) ?_
  simp only [noNode, List.forall_mem_cons, List.not_mem_nil,
    IsEmpty.forall_iff, implies_true, and_true]

/-- A note of 5 units with the given other fields. -/
def fiveUnits (secret recipient : String) : CommitmentFields where
  value := "5"
  number := 5
  reads := by decide
  secret := secret
  recipient := recipient

/-- The last byte of the secret passes as the first one of the recipient, and
a note can have the preimage of an inner node. -/
theorem commitmentPreimage_ambiguous :
    ¬∀ (crypto : UtilCrypto), crypto.HexRoundTrips ->
      ∀ first second : CommitmentFields, first.Unambiguous crypto second := by
  intro unambiguous
  obtain ⟨injective, -⟩ := unambiguous sampleCrypto sampleCrypto_hexRoundTrips
    (fiveUnits "0xaabb" "0xcc") (fiveUnits "0xaa" "0xbbcc")
  obtain ⟨-, sameSecret, -⟩ := injective
    ((fiveUnits "0xaabb" "0xcc").valueBytes sampleCrypto ++ [0xaa, 0xbb, 0xcc])
    ((CommitmentFields.commitmentPreimage_eq_ok_iff _ _ _).mpr (by rfl))
    ((CommitmentFields.commitmentPreimage_eq_ok_iff _ _ _).mpr (by rfl))
  exact absurd (congrArg List.length sameSecret) (by decide)

end ZKProver
end Client
end Privachain
