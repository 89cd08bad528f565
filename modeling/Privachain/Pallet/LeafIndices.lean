import Privachain.Pallet.Currency
import Privachain.Pallet.Runs
import Mathlib.Data.List.Range

/-!
# Leaf indices along runs

The indices of the added commitments should be `0, 1, 2, ...` with the counter
behind them.  The loop of `private_transfer` keeps this; `shield` emits an
index without advancing the counter.
-/

namespace Privachain
namespace Pallet

open Foundation
open Foundation.StatefulCall

variable {T : Config}

/-- The leaf index that an event carries. -/
def Event.leafIndex : Event T -> Option Nat
  | .commitmentAdded _ index _ _ => some index.val
  | .nullifierRevealed _ _ => none

/-- The leaf indices of the emitted `CommitmentAdded` events, in order. -/
def Storage.leafIndices (s : Storage T) : List Nat :=
  s.events.filterMap Event.leafIndex

/-- The emitted leaf indices are `0, 1, 2, ...`, pairwise distinct, and
`NextLeafIndex` is their number. -/
structure LeafIndicesGapFree (s : Storage T) : Prop where
  inOrder : s.leafIndices = List.range s.leafIndices.length
  distinct : s.leafIndices.Nodup
  counter : s.nextLeafIndex.val = s.leafIndices.length

/-- The indices in order with the counter behind them are pairwise distinct. -/
theorem leafIndicesGapFree_of_range
    {s : Storage T}
    (range : s.leafIndices = List.range s.nextLeafIndex.val) :
    LeafIndicesGapFree s := by
  have counter : s.nextLeafIndex.val = s.leafIndices.length := by
    rw [range, List.length_range]
  refine ⟨?_, ?_, counter⟩
  · rw [← counter]
    exact range
  · rw [range]
    exact List.nodup_range

theorem LeafIndicesGapFree.range
    {s : Storage T}
    (gapFree : LeafIndicesGapFree s) :
    s.leafIndices = List.range s.nextLeafIndex.val := by
  rw [gapFree.counter]
  exact gapFree.inOrder

/-- Only the emitted indices and the counter matter. -/
theorem LeafIndicesGapFree.congr
    {s s' : Storage T}
    (gapFree : LeafIndicesGapFree s)
    (indices : s'.leafIndices = s.leafIndices)
    (counter : s'.nextLeafIndex = s.nextLeafIndex) :
    LeafIndicesGapFree s' := by
  apply leafIndicesGapFree_of_range
  rw [indices, counter]
  exact gapFree.range

@[simp] theorem Storage.leafIndices_deposit
    (s : Storage T)
    (events : List (Event T)) :
    (s.deposit events).leafIndices =
      s.leafIndices ++ events.filterMap Event.leafIndex := by
  rw [Storage.leafIndices, Storage.deposit_events, List.filterMap_append]
  rfl

/-- Below saturation the loop emits the indices from the counter on. -/
theorem filterMap_commitmentEvents
    (currentBlock : T.BlockNumber)
    (index : T.CommitmentIndexType)
    (pairs : List (List UInt8 × T.Hash))
    (room : index.val + pairs.length ≤ T.maxIndex) :
    (commitmentEvents T currentBlock index pairs).filterMap Event.leafIndex =
      List.range' index.val pairs.length := by
  induction pairs generalizing index with
  | nil => rfl
  | cons pair pairs inductionHypothesis =>
      rw [List.length_cons] at room
      have next : (T.advance index 1).val = index.val + 1 :=
        Config.advance_val_of_le (by omega)
      rw [commitmentEvents, List.filterMap_cons, Event.leafIndex,
        inductionHypothesis _ (by omega), next, List.length_cons,
        List.range'_succ]

/-- The loop keeps the indices gap-free until the counter saturates. -/
theorem LeafIndicesGapFree.addCommitments
    {s : Storage T}
    (gapFree : LeafIndicesGapFree s)
    (currentBlock : T.BlockNumber)
    (pairs : List (List UInt8 × T.Hash))
    (room : s.nextLeafIndex.val + pairs.length ≤ T.maxIndex) :
    LeafIndicesGapFree (s.addCommitments currentBlock pairs) := by
  apply leafIndicesGapFree_of_range
  have counter : (s.addCommitments currentBlock pairs).nextLeafIndex.val =
      s.nextLeafIndex.val + pairs.length :=
    Config.advance_val_of_le room
  have indices : (s.addCommitments currentBlock pairs).leafIndices =
      s.leafIndices ++ List.range' s.nextLeafIndex.val pairs.length := by
    rw [← filterMap_commitmentEvents currentBlock _ _ room]
    exact List.filterMap_append
  have appended := @List.range'_append_1 0 s.nextLeafIndex.val pairs.length
  rw [Nat.zero_add] at appended
  rw [counter, indices, gapFree.range, List.range_eq_range',
    List.range_eq_range', appended]

/-- Every extrinsic other than a successful `shield` keeps the indices
gap-free. -/
theorem LeafIndicesGapFree.apply
    {s : Storage T}
    (gapFree : LeafIndicesGapFree s)
    {x : Extrinsic T}
    (noShield : ¬ShieldSucceeds s x) :
    LeafIndicesGapFree (x.apply s) := by
  have effect := x.apply_effect s
  generalize x.apply s = after at effect ⊢
  cases effect with
  | failed _ => exact ⟨gapFree.inOrder, gapFree.distinct, gapFree.counter⟩
  | shielded who amount commitment encryptedNote ledger _ origin call paid =>
      exact absurd ⟨who, amount, commitment, encryptedNote, origin, call,
        ledger, paid⟩ noShield
  | transferred who nullifier newCommitments encryptedNotes _ _ _ empty _ =>
      -- the guard leaves no commitments, so the counter has room for them
      have room : s.nextLeafIndex.val +
          (newCommitments.zip encryptedNotes).length ≤ T.maxIndex := by
        rw [empty.2.1]
        exact s.nextLeafIndex.is_le
      have recorded : LeafIndicesGapFree
          ((x.start s).insertNullifier (T.hashing nullifier) x.blockNumber) :=
        gapFree.congr rfl rfl
      have added := recorded.addCommitments x.blockNumber
        (newCommitments.zip encryptedNotes) room
      apply added.congr
      · rw [Storage.afterPrivateTransfer, Storage.leafIndices_deposit]
        exact List.append_nil _
      · rfl
  | unshielded who amount nullifier ledger _ _ _ _ _ _ =>
      apply gapFree.congr
      · rw [Storage.afterUnshield, Storage.leafIndices_deposit]
        exact List.append_nil _
      · rfl

/-- A successful `shield` emits one more index and leaves the counter. -/
theorem not_leafIndicesGapFree_of_shieldSucceeds
    {s : Storage T}
    (gapFree : LeafIndicesGapFree s)
    {x : Extrinsic T}
    (shields : ShieldSucceeds s x) :
    ¬LeafIndicesGapFree (x.apply s) := by
  obtain ⟨commitment, encryptedNote, ledger, after⟩ := shields.apply_eq
  have indices : (x.apply s).leafIndices =
      s.leafIndices ++ [s.nextLeafIndex.val] := by
    rw [after, Storage.afterShield, Storage.leafIndices_deposit]
    rfl
  have counter : (x.apply s).nextLeafIndex = s.nextLeafIndex := by
    rw [after]
    rfl
  intro gapFreeAfter
  have oneMore := gapFreeAfter.counter
  rw [counter, indices, List.length_append, List.length_singleton,
    gapFree.counter] at oneMore
  omega

/-- Along a run from genesis the leaf indices are gap-free in every state
exactly when no `shield` of the run succeeds. -/
theorem leafIndices_gapFree_iff
    (T : Config)
    (ledger : T.currency.Ledger)
    (blockNumber : T.BlockNumber)
    (extrinsics : List (Extrinsic T)) :
    (∀ earlier, earlier <+: extrinsics ->
      LeafIndicesGapFree (chain (genesis T ledger blockNumber) earlier)) ↔
      Allowed Extrinsic.apply (fun s x => ¬ShieldSucceeds s x)
        (genesis T ledger blockNumber) extrinsics := by
  constructor
  · intro gapFree
    rw [allowed_iff_forall_split]
    rintro earlier x later rfl shields
    have before := gapFree earlier (List.prefix_append _ _)
    have after := gapFree (earlier ++ [x]) (by simp)
    rw [chain, run_append] at after
    exact not_leafIndicesGapFree_of_shieldSucceeds before shields after
  · rintro noShield earlier ⟨later, rfl⟩
    have noShieldEarlier := ((allowed_append _ _ _ _ _).mp noShield).1
    refine run_invariant LeafIndicesGapFree ?_ ?_ noShieldEarlier
    · intro s x notShielded gapFree
      exact gapFree.apply notShielded
    · exact leafIndicesGapFree_of_range rfl

/-- Two deposits into the pool emit the index `0` twice. -/
theorem shields_reuse_leaf_index :
    ¬∀ (T : Config)
        (ledger : T.currency.Ledger)
        (blockNumber : T.BlockNumber)
        (extrinsics : List (Extrinsic T)),
      LeafIndicesGapFree (chain (genesis T ledger blockNumber) extrinsics) := by
  intro gapFree
  let deposit : Extrinsic threeAccounts :=
    { blockNumber := 1
      origin := .signed .depositor
      call := .shield 20 [2] [3] }
  have distinct := (gapFree threeAccounts (sampleBalances 0 100 0) 1
    [deposit, deposit]).distinct
  have indices : (chain (genesis threeAccounts (sampleBalances 0 100 0) 1)
      [deposit, deposit]).leafIndices = [0, 0] := by
    decide
  rw [indices] at distinct
  exact absurd distinct (by decide)

end Pallet
end Privachain
