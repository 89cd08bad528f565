import Privachain.Foundation.Registry
import Privachain.Pallet.Runs

/-!
# Nullifiers along runs

`NullifierSet` registers the revealed nullifiers: both spending calls write
only hashes that are new, and reveal the nullifier that they record.
-/

namespace Privachain
namespace Pallet

open Foundation
open Foundation.StatefulCall

variable {T : Config}

/-- The hash of the nullifier that an event reveals, and its timestamp. -/
def Event.revealed : Event T -> Option (T.Hash × T.BlockNumber)
  | .commitmentAdded _ _ _ _ => none
  | .nullifierRevealed nullifier timestamp =>
      some (T.hashing nullifier, timestamp)

/-- The emitted `NullifierRevealed` events, in order. -/
def Storage.revealed (s : Storage T) : List (T.Hash × T.BlockNumber) :=
  s.events.filterMap Event.revealed

/-- The nullifier that a call spends. -/
def Call.nullifier : Call T -> Option (List UInt8)
  | .shield _ _ _ => none
  | .privateTransfer nullifier _ _ => some nullifier
  | .unshield _ nullifier => some nullifier

/-- The nullifier hash that an extrinsic spends when it succeeds. -/
def spentHash (s : Storage T) (x : Extrinsic T) : List T.Hash :=
  if x.Succeeds s then x.call.nullifier.toList.map T.hashing else []

@[simp] theorem Storage.revealed_deposit
    (s : Storage T)
    (events : List (Event T)) :
    (s.deposit events).revealed =
      s.revealed ++ events.filterMap Event.revealed := by
  rw [Storage.revealed, Storage.deposit_events, List.filterMap_append]
  rfl

/-- The loop over new commitments reveals nothing. -/
theorem filterMap_revealed_commitmentEvents
    (currentBlock : T.BlockNumber)
    (index : T.CommitmentIndexType)
    (pairs : List (List UInt8 × T.Hash)) :
    (commitmentEvents T currentBlock index pairs).filterMap Event.revealed =
      [] := by
  induction pairs generalizing index with
  | nil => rfl
  | cons pair pairs inductionHypothesis =>
      rw [commitmentEvents, List.filterMap_cons, Event.revealed]
      exact inductionHypothesis _

/-- A successful private transfer reveals its nullifier. -/
theorem Storage.revealed_afterPrivateTransfer
    (s : Storage T)
    (nullifier : List UInt8)
    (newCommitments : List (List UInt8))
    (encryptedNotes : List T.Hash) :
    (s.afterPrivateTransfer nullifier newCommitments encryptedNotes).revealed =
      s.revealed ++ [(T.hashing nullifier, s.blockNumber)] := by
  have loop : ((s.insertNullifier (T.hashing nullifier)
      s.blockNumber).addCommitments s.blockNumber
        (newCommitments.zip encryptedNotes)).revealed = s.revealed := by
    rw [Storage.revealed, Storage.addCommitments, List.filterMap_append,
      filterMap_revealed_commitmentEvents, List.append_nil]
    rfl
  rw [Storage.afterPrivateTransfer, Storage.revealed_deposit, loop]
  rfl

/-- The invariant: `NullifierSet` registers the revealed nullifiers, and these
are the ones that succeeded so far. -/
structure NullifiersConsistent
    (s : Storage T)
    (spent : List T.Hash) : Prop where
  spentRevealed : s.revealed.map Prod.fst = spent
  registers : Registers s.nullifierSet s.revealed

/-- Spending a new nullifier keeps the invariant. -/
theorem NullifiersConsistent.spend
    {s s' : Storage T}
    {spent : List T.Hash}
    (consistent : NullifiersConsistent s spent)
    {nullifierHash : T.Hash}
    {timestamp : T.BlockNumber}
    (fresh : s.nullifierSet nullifierHash = none)
    (recorded : s'.nullifierSet =
      Function.update s.nullifierSet nullifierHash (some timestamp))
    (revealed : s'.revealed = s.revealed ++ [(nullifierHash, timestamp)]) :
    NullifiersConsistent s' (spent ++ [nullifierHash]) := by
  refine ⟨?_, ?_⟩
  · rw [revealed, List.map_append, consistent.spentRevealed]
    rfl
  · rw [recorded, revealed]
    exact consistent.registers.insert fresh timestamp

/-- Every extrinsic keeps the invariant. -/
theorem NullifiersConsistent.apply
    {s : Storage T}
    {spent : List T.Hash}
    (consistent : NullifiersConsistent s spent)
    (x : Extrinsic T) :
    NullifiersConsistent (x.apply s) (spent ++ spentHash s x) := by
  have effect := x.apply_effect s
  generalize x.apply s = after at effect ⊢
  cases effect with
  | failed fails =>
      rw [spentHash, if_neg fails, List.append_nil]
      exact ⟨consistent.spentRevealed, consistent.registers⟩
  | shielded who amount commitment encryptedNote ledger succeeds _ call _ =>
      have revealed : ((x.start s).afterShield commitment encryptedNote
          ledger).revealed = s.revealed := by
        rw [Storage.afterShield, Storage.revealed_deposit]
        exact List.append_nil _
      rw [spentHash, if_pos succeeds, call]
      refine ⟨?_, ?_⟩
      · rw [revealed, consistent.spentRevealed]
        exact (List.append_nil spent).symm
      · rw [revealed]
        exact consistent.registers
  | transferred who nullifier newCommitments encryptedNotes succeeds _ call _
      fresh =>
      rw [spentHash, if_pos succeeds, call]
      exact consistent.spend fresh rfl
        ((x.start s).revealed_afterPrivateTransfer nullifier newCommitments
          encryptedNotes)
  | unshielded who amount nullifier ledger succeeds _ call _ fresh _ =>
      rw [spentHash, if_pos succeeds, call]
      refine consistent.spend fresh rfl ?_
      rw [Storage.afterUnshield, Storage.revealed_deposit]
      rfl

/-- Every extrinsic keeps every entry of `NullifierSet`. -/
theorem nullifierSet_apply_of_eq_some
    {s : Storage T}
    {nullifierHash : T.Hash}
    {timestamp : T.BlockNumber}
    (entry : s.nullifierSet nullifierHash = some timestamp)
    (x : Extrinsic T) :
    (x.apply s).nullifierSet nullifierHash = some timestamp := by
  have effect := x.apply_effect s
  generalize x.apply s = after at effect ⊢
  cases effect with
  | failed _ => exact entry
  | shielded who amount commitment encryptedNote ledger _ _ _ _ => exact entry
  | transferred who nullifier newCommitments encryptedNotes _ _ _ _ fresh =>
      exact update_eq_some_of_fresh fresh entry
  | unshielded who amount nullifier ledger _ _ _ _ fresh _ =>
      exact update_eq_some_of_fresh fresh entry

/-- Along every run from genesis the invariant holds of the nullifiers that
succeeded. -/
theorem nullifiersConsistent_chain
    (T : Config)
    (ledger : T.currency.Ledger)
    (blockNumber : T.BlockNumber)
    (extrinsics : List (Extrinsic T)) :
    NullifiersConsistent (chain (genesis T ledger blockNumber) extrinsics)
      (history Extrinsic.apply spentHash (genesis T ledger blockNumber)
        extrinsics) := by
  apply run_history_invariant NullifiersConsistent
  · intro s spent x _ consistent
    exact consistent.apply x
  · exact ⟨rfl, Registers.empty⟩
  · exact allowed_of_forall (fun _ _ _ => trivial) _

/-- Along every run from genesis no nullifier hash succeeds twice, no entry of
`NullifierSet` is removed or overwritten, and the entries are in one-to-one
correspondence with the `NullifierRevealed` events. -/
theorem nullifiers_never_accepted_twice
    (T : Config)
    (ledger : T.currency.Ledger)
    (blockNumber : T.BlockNumber)
    (extrinsics : List (Extrinsic T)) :
    (history Extrinsic.apply spentHash (genesis T ledger blockNumber)
      extrinsics).Nodup ∧
    (∀ earlier, earlier <+: extrinsics ->
      ∀ nullifierHash timestamp,
        (chain (genesis T ledger blockNumber) earlier).nullifierSet
            nullifierHash = some timestamp ->
        (chain (genesis T ledger blockNumber) extrinsics).nullifierSet
          nullifierHash = some timestamp) ∧
    Registers
      (chain (genesis T ledger blockNumber) extrinsics).nullifierSet
      (chain (genesis T ledger blockNumber) extrinsics).revealed := by
  have consistent := nullifiersConsistent_chain T ledger blockNumber extrinsics
  refine ⟨?_, ?_, consistent.registers⟩
  · rw [← consistent.spentRevealed]
    exact consistent.registers.distinct
  · rintro earlier ⟨later, rfl⟩ nullifierHash timestamp entry
    rw [chain, run_append]
    apply run_invariant_of_preserved (fun s : Storage T =>
      s.nullifierSet nullifierHash = some timestamp)
    · intro s x kept
      exact nullifierSet_apply_of_eq_some kept x
    · exact entry

end Pallet
end Privachain
