import Privachain.Foundation.Runs
import Privachain.Pallet.Calls

/-!
# Runs of extrinsics

A chain applies extrinsics one after the other, each in its block.  An
extrinsic either fails and changes nothing but the block, or has the effect of
its call; every invariant is derived from this case analysis.
-/

namespace Privachain
namespace Pallet

open Foundation
open Foundation.StatefulCall

variable {T : Config}

/-- The storage after a list of extrinsics. -/
abbrev chain (initial : Storage T) (extrinsics : List (Extrinsic T)) :
    Storage T :=
  run Extrinsic.apply initial extrinsics

/-- The transfer into the pool returns. -/
def DepositorPays (s : Storage T) (who : T.AccountId) (amount : Nat) : Prop :=
  ∃ ledger,
    T.currency.transfer who (accountId T) amount .keepAlive s.ledger =
      .ok () ledger

/-- A shielding extrinsic whose deposit is paid in the storage before it. -/
def ShieldSucceeds (s : Storage T) (x : Extrinsic T) : Prop :=
  ∃ who amount commitment encryptedNote, x.origin = .signed who ∧
    x.call = .shield amount commitment encryptedNote ∧
    DepositorPays s who amount

/-- Such an extrinsic is committed. -/
theorem ShieldSucceeds.apply_eq
    {s : Storage T}
    {x : Extrinsic T}
    (shields : ShieldSucceeds s x) :
    ∃ commitment encryptedNote ledger,
      x.apply s = (x.start s).afterShield commitment encryptedNote ledger := by
  obtain ⟨who, amount, commitment, encryptedNote, origin, call, ledger, paid⟩ :=
    shields
  refine ⟨commitment, encryptedNote, ledger, ?_⟩
  apply dispatch_of_ok
  rw [call]
  exact (shield_eq_ok_iff _ _ _ _ _ _).mpr ⟨who, ledger, origin, paid, rfl⟩

/-- These are the `shield` calls that succeed. -/
theorem shieldSucceeds_iff
    (s : Storage T)
    (x : Extrinsic T) :
    ShieldSucceeds s x ↔
      x.Succeeds s ∧ ∃ amount commitment encryptedNote,
        x.call = .shield amount commitment encryptedNote := by
  constructor
  · rintro ⟨who, amount, commitment, encryptedNote, origin, call, ledger, paid⟩
    refine ⟨?_, amount, commitment, encryptedNote, call⟩
    unfold Extrinsic.Succeeds
    rw [call]
    exact ⟨(), _, (shield_eq_ok_iff _ _ _ _ _ _).mpr
      ⟨who, ledger, origin, paid, rfl⟩⟩
  · rintro ⟨succeeds, amount, commitment, encryptedNote, call⟩
    unfold Extrinsic.Succeeds at succeeds
    rw [call] at succeeds
    obtain ⟨_, s', returns⟩ := succeeds
    obtain ⟨who, ledger, origin, paid, _⟩ :=
      (shield_eq_ok_iff _ _ _ _ _ _).mp returns
    exact ⟨who, amount, commitment, encryptedNote, origin, call, ledger, paid⟩

/-- What applying an extrinsic can do to the storage in which its call
starts. -/
inductive Effect (x : Extrinsic T) (s : Storage T) : Storage T -> Prop
  | failed
      (fails : ¬x.Succeeds s) :
      Effect x s (x.start s)
  | shielded
      (who : T.AccountId)
      (amount : Nat)
      (commitment : List UInt8)
      (encryptedNote : T.Hash)
      (ledger : T.currency.Ledger)
      (succeeds : x.Succeeds s)
      (origin : x.origin = .signed who)
      (call : x.call = .shield amount commitment encryptedNote)
      (paid : T.currency.transfer who (accountId T) amount .keepAlive
        s.ledger = .ok () ledger) :
      Effect x s ((x.start s).afterShield commitment encryptedNote ledger)
  | transferred
      (who : T.AccountId)
      (nullifier : List UInt8)
      (newCommitments : List (List UInt8))
      (encryptedNotes : List T.Hash)
      (succeeds : x.Succeeds s)
      (origin : x.origin = .signed who)
      (call : x.call = .privateTransfer nullifier newCommitments encryptedNotes)
      (empty : nullifier = [] ∧ newCommitments = [] ∧ encryptedNotes = [])
      (fresh : s.nullifierSet (T.hashing nullifier) = none) :
      Effect x s ((x.start s).afterPrivateTransfer nullifier newCommitments
        encryptedNotes)
  | unshielded
      (who : T.AccountId)
      (amount : Nat)
      (nullifier : List UInt8)
      (ledger : T.currency.Ledger)
      (succeeds : x.Succeeds s)
      (origin : x.origin = .signed who)
      (call : x.call = .unshield amount nullifier)
      (empty : nullifier = [])
      (fresh : s.nullifierSet (T.hashing nullifier) = none)
      (paid : T.currency.transfer (accountId T) who amount .keepAlive
        s.ledger = .ok () ledger) :
      Effect x s ((x.start s).afterUnshield nullifier ledger)

/-- Applying an extrinsic has one of the four effects. -/
theorem Extrinsic.apply_effect (x : Extrinsic T) (s : Storage T) :
    Effect x s (x.apply s) := by
  by_cases succeeds : x.Succeeds s
  · obtain ⟨_, returns⟩ := StatefulCall.Succeeds.returns succeeds
    change x.call.body x.origin (x.start s) = .ok () (x.apply s) at returns
    cases call : x.call with
    | shield amount commitment encryptedNote =>
        rw [call] at returns
        obtain ⟨who, ledger, origin, paid, after⟩ :=
          (shield_eq_ok_iff _ _ _ _ _ _).mp returns
        rw [after]
        exact .shielded who amount commitment encryptedNote ledger succeeds
          origin call paid
    | privateTransfer nullifier newCommitments encryptedNotes =>
        rw [call] at returns
        obtain ⟨⟨who, origin⟩, empty, _, fresh, after⟩ :=
          (privateTransfer_eq_ok_iff _ _ _ _ _ _).mp returns
        rw [after]
        exact .transferred who nullifier newCommitments encryptedNotes succeeds
          origin call empty fresh
    | unshield amount nullifier =>
        rw [call] at returns
        obtain ⟨who, ledger, origin, empty, fresh, paid, after⟩ :=
          (unshield_eq_ok_iff _ _ _ _ _).mp returns
        rw [after]
        exact .unshielded who amount nullifier ledger succeeds origin call empty
          fresh paid
  · have unchanged : x.apply s = x.start s := dispatch_of_not_succeeds succeeds
    rw [unchanged]
    exact .failed succeeds

end Pallet
end Privachain
