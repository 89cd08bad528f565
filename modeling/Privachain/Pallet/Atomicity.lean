import Privachain.Pallet.Acceptance

/-!
# Failing calls

What the bodies of the calls leave behind when they fail, without the rollback
of the dispatcher.  `shield` and `private_transfer` fail before their first
write; `unshield` records the nullifier before its transfer, which may fail.
-/

namespace Privachain
namespace Pallet

open Foundation
open Foundation.StatefulCall

variable {T : Config}

/-- A transfer that returns an error has moved nothing. -/
def Currency.FailsUnchanged
    {AccountId : Type}
    (currency : Currency AccountId) : Prop :=
  ∀ source dest amount requirement before error after,
    currency.transfer source dest amount requirement before =
      .error error after ->
    ∀ account, currency.balance after account =
      currency.balance before account

/-- Transfers of balances that fail change nothing. -/
theorem balances_failsUnchanged
    {AccountId : Type} [DecidableEq AccountId]
    (existentialDeposit : Nat) :
    (balances AccountId existentialDeposit).FailsUnchanged := by
  intro source dest amount requirement before error after fails account
  have unchanged : after = before := by
    revert fails
    simp only [balances, balancesTransfer]
    split_ifs <;> simp +contextual [eq_comm]
  rw [unchanged]

/-- The storage shows the same nullifiers, counter, balances and events. -/
structure Storage.Intact (s s' : Storage T) : Prop where
  nullifierSet : s'.nullifierSet = s.nullifierSet
  nextLeafIndex : s'.nextLeafIndex = s.nextLeafIndex
  balance : ∀ account, T.currency.balance s'.ledger account =
    T.currency.balance s.ledger account
  events : s'.events = s.events

theorem Storage.Intact.refl (s : Storage T) : s.Intact s where
  nullifierSet := rfl
  nextLeafIndex := rfl
  balance := fun _ => rfl
  events := rfl

/-! ## The failures of the steps -/

/-- Unsigned origins are refused, and the storage is unchanged. -/
theorem ensureSigned_eq_error_iff
    (origin : RawOrigin T.AccountId)
    (error : DispatchError)
    (s s' : Storage T) :
    ensureSigned T origin s = .error error s' ↔
      (∀ who, origin ≠ .signed who) ∧ error = .badOrigin ∧ s' = s := by
  cases origin with
  | root => simp [ensureSigned, throw_eq_error_iff]
  | signed account => simp [ensureSigned, pure_ne_error]
  | none => simp [ensureSigned, throw_eq_error_iff]

theorem depositEvent_ne_error
    (event : Event T)
    (error : DispatchError)
    (s s' : Storage T) :
    depositEvent T event s ≠ .error error s' :=
  modify_ne_error _ _ _ _

/-- A failing transfer leaves what the currency leaves. -/
theorem transfer_eq_error_iff
    (source dest : T.AccountId)
    (amount : Nat)
    (existenceRequirement : ExistenceRequirement)
    (error : DispatchError)
    (s s' : Storage T) :
    transfer T source dest amount existenceRequirement s = .error error s' ↔
      ∃ ledger,
        T.currency.transfer source dest amount existenceRequirement s.ledger =
          .error error ledger ∧
        s' = { s with ledger := ledger } := by
  unfold transfer
  cases T.currency.transfer source dest amount existenceRequirement s.ledger with
  | ok _ ledger => simp
  | error thrown ledger =>
      constructor
      · rintro ⟨⟩
        exact ⟨ledger, rfl, rfl⟩
      · rintro ⟨_, ⟨⟩, rfl⟩
        rfl

/-- A nullifier is refused exactly when its hash is known, and the storage is
unchanged. -/
theorem recordNullifier_eq_error_iff
    (nullifierHash : T.Hash)
    (currentBlock : T.BlockNumber)
    (error : DispatchError)
    (s s' : Storage T) :
    recordNullifier T nullifierHash currentBlock s = .error error s' ↔
      s.nullifierSet nullifierHash ≠ none ∧
        error = .module .nullifierAlreadyRevealed ∧ s' = s := by
  unfold recordNullifier
  rw [get_bind_eq]
  by_cases fresh : s.nullifierSet nullifierHash = none
  · rw [if_pos fresh]
    simp [fresh, modify_ne_error]
  · rw [if_neg fresh, throw_eq_error_iff]
    simp [fresh]

/-! ## The failures of the calls -/

/-- `shield` fails with its origin or its transfer. -/
theorem shield_eq_error_iff
    (origin : RawOrigin T.AccountId)
    (amount : Nat)
    (commitment : List UInt8)
    (encryptedNote : T.Hash)
    (error : DispatchError)
    (s s' : Storage T) :
    shield T origin amount commitment encryptedNote s = .error error s' ↔
      ((∀ who, origin ≠ .signed who) ∧ error = .badOrigin ∧ s' = s) ∨
      ∃ who ledger, origin = .signed who ∧
        T.currency.transfer who (accountId T) amount .keepAlive s.ledger =
          .error error ledger ∧
        s' = { s with ledger := ledger } := by
  unfold shield
  simp only [call_bind_eq_error_iff, get_bind_eq, ensureSigned_eq_ok_iff,
    ensureSigned_eq_error_iff, transfer_eq_error_iff, depositEvent_ne_error,
    and_false, exists_false, or_false]
  refine or_congr_right ?_
  constructor
  · rintro ⟨who, _, ⟨rfl, rfl⟩, ledger, fails, rfl⟩
    exact ⟨who, ledger, rfl, fails, rfl⟩
  · rintro ⟨who, ledger, rfl, fails, rfl⟩
    exact ⟨who, s, ⟨rfl, rfl⟩, ledger, fails, rfl⟩

/-- `private_transfer` fails only before its first write. -/
theorem privateTransfer_fails_unchanged
    {origin : RawOrigin T.AccountId}
    {nullifier : List UInt8}
    {newCommitments : List (List UInt8)}
    {encryptedNotes : List T.Hash}
    {error : DispatchError}
    {s s' : Storage T}
    (fails : privateTransfer T origin nullifier newCommitments encryptedNotes
      s = .error error s') :
    s' = s := by
  unfold privateTransfer at fails
  simp only [call_bind_eq_error_iff, get_bind_eq, ensureSigned_eq_ok_iff,
    ensureSigned_eq_error_iff, ensure_eq_ok_iff, ensure_eq_error_iff,
    recordNullifier_eq_ok_iff, recordNullifier_eq_error_iff,
    addCommitments_eq, depositEvent_ne_error] at fails
  rcases fails with ⟨_, _, unchanged⟩ | ⟨_, _, ⟨_, rfl⟩, fails⟩
  · exact unchanged
  rcases fails with ⟨_, _, unchanged⟩ | ⟨_, _, ⟨_, rfl⟩, fails⟩
  · exact unchanged
  rcases fails with ⟨_, _, unchanged⟩ | ⟨_, _, ⟨_, rfl⟩, fails⟩
  · exact unchanged
  rcases fails with ⟨_, _, unchanged⟩ | ⟨_, _, _, impossible | fails⟩
  · exact unchanged
  · cases impossible
  · obtain ⟨_, _, _, impossible⟩ := fails
    exact absurd impossible id

/-- `unshield` fails with its origin, its guard or a known nullifier, and
leaves the storage unchanged; or with its transfer, and leaves the nullifier
recorded. -/
theorem unshield_eq_error_iff
    (origin : RawOrigin T.AccountId)
    (amount : Nat)
    (nullifier : List UInt8)
    (error : DispatchError)
    (s s' : Storage T) :
    unshield T origin amount nullifier s = .error error s' ↔
      ((∀ who, origin ≠ .signed who) ∧ error = .badOrigin ∧ s' = s) ∨
      ∃ who, origin = .signed who ∧
        ((nullifier ≠ [] ∧ error = .module .invalidTransaction ∧ s' = s) ∨
        nullifier = [] ∧
          ((s.Spent nullifier ∧ error = .module .nullifierAlreadyRevealed ∧
              s' = s) ∨
          ¬s.Spent nullifier ∧ ∃ ledger,
            T.currency.transfer (accountId T) who amount .keepAlive s.ledger =
              .error error ledger ∧
            s' = { s.insertNullifier (T.hashing nullifier) s.blockNumber with
              ledger := ledger })) := by
  unfold unshield Storage.Spent
  simp only [call_bind_eq_error_iff, get_bind_eq, ensureSigned_eq_ok_iff,
    ensureSigned_eq_error_iff, ensure_eq_ok_iff, ensure_eq_error_iff,
    recordNullifier_eq_ok_iff, recordNullifier_eq_error_iff,
    transfer_eq_error_iff, depositEvent_ne_error, and_false, exists_false,
    or_false, not_not]
  refine or_congr_right ?_
  constructor
  · rintro ⟨who, _, ⟨rfl, rfl⟩, refused | ⟨_, _, ⟨empty, rfl⟩, known | paying⟩⟩
    · exact ⟨who, rfl, .inl refused⟩
    · exact ⟨who, rfl, .inr ⟨empty, .inl known⟩⟩
    · obtain ⟨_, _, ⟨fresh, rfl⟩, ledger, fails, rfl⟩ := paying
      exact ⟨who, rfl, .inr ⟨empty, .inr ⟨fresh, ledger, fails, rfl⟩⟩⟩
  · rintro ⟨who, rfl, refused | ⟨empty, known | ⟨fresh, ledger, fails, rfl⟩⟩⟩
    · exact ⟨who, s, ⟨rfl, rfl⟩, .inl refused⟩
    · exact ⟨who, s, ⟨rfl, rfl⟩, .inr ⟨⟨⟩, s, ⟨empty, rfl⟩, .inl known⟩⟩
    · exact ⟨who, s, ⟨rfl, rfl⟩, .inr ⟨⟨⟩, s, ⟨empty, rfl⟩,
        .inr ⟨(), _, ⟨fresh, rfl⟩, ledger, fails, rfl⟩⟩⟩

/-! ## Calls that fail without an effect -/

/-- A withdrawal that passes every check and that the pool does not pay. -/
def UnpaidWithdrawal
    (origin : RawOrigin T.AccountId)
    (s : Storage T) : Call T -> Prop
  | .shield .. => False
  | .privateTransfer .. => False
  | .unshield amount nullifier => ∃ who, origin = .signed who ∧
      nullifier = [] ∧ ¬s.Spent nullifier ∧ ¬PoolPays s who amount

/-- A ledger left by a failing transfer shows the same storage. -/
theorem Storage.intact_of_transfer_fails
    (failsUnchanged : T.currency.FailsUnchanged)
    {source dest : T.AccountId}
    {amount : Nat}
    {requirement : ExistenceRequirement}
    {error : DispatchError}
    {s : Storage T}
    {ledger : T.currency.Ledger}
    (fails : T.currency.transfer source dest amount requirement s.ledger =
      .error error ledger) :
    s.Intact { s with ledger := ledger } where
  nullifierSet := rfl
  nextLeafIndex := rfl
  balance := failsUnchanged _ _ _ _ _ _ _ fails
  events := rfl

/-- A transfer out of the pool that does not return fails with an error. -/
theorem transfer_fails_of_not_poolPays
    {s : Storage T}
    {who : T.AccountId}
    {amount : Nat}
    (unpaid : ¬PoolPays s who amount) :
    ∃ error ledger,
      T.currency.transfer (accountId T) who amount .keepAlive s.ledger =
        .error error ledger := by
  cases transferred : T.currency.transfer (accountId T) who amount .keepAlive
      s.ledger with
  | ok _ ledger => exact absurd ⟨ledger, transferred⟩ unpaid
  | error error ledger => exact ⟨error, ledger, rfl⟩

/-- An unpaid withdrawal fails with its nullifier recorded. -/
theorem UnpaidWithdrawal.records_nullifier
    {who : T.AccountId}
    {amount : Nat}
    {s : Storage T}
    (fresh : ¬s.Spent [])
    (unpaid : ¬PoolPays s who amount) :
    ∃ error s', unshield T (.signed who) amount [] s = .error error s' ∧
      s'.Spent [] := by
  obtain ⟨error, ledger, fails⟩ := transfer_fails_of_not_poolPays unpaid
  refine ⟨error, _, (unshield_eq_error_iff _ _ _ _ _ _).mpr
    (.inr ⟨who, rfl, .inr ⟨rfl, .inr ⟨fresh, ledger, fails, rfl⟩⟩⟩), ?_⟩
  simp [Storage.Spent]

/-- Without rollback, a call leaves the storage intact when it fails, except
for a withdrawal that passes the checks and that the pool does not pay. -/
theorem call_failsIntact_iff
    (failsUnchanged : T.currency.FailsUnchanged)
    (origin : RawOrigin T.AccountId)
    (call : Call T)
    (s : Storage T) :
    FailsIntact Storage.Intact (call.body origin) s ↔
      ¬UnpaidWithdrawal origin s call := by
  constructor
  · intro intact unpaidWithdrawal
    cases call with
    | shield => exact unpaidWithdrawal
    | privateTransfer => exact unpaidWithdrawal
    | unshield amount nullifier =>
        obtain ⟨who, rfl, rfl, fresh, unpaid⟩ := unpaidWithdrawal
        obtain ⟨error, s', fails, spent⟩ :=
          UnpaidWithdrawal.records_nullifier fresh unpaid
        rw [Storage.Spent, (intact error s' fails).nullifierSet] at spent
        exact fresh spent
  · intro paid error s' fails
    cases call with
    | shield =>
        rcases (shield_eq_error_iff _ _ _ _ _ _ _).mp fails with
          ⟨_, _, rfl⟩ | ⟨_, _, _, transferFails, rfl⟩
        · exact Storage.Intact.refl _
        · exact Storage.intact_of_transfer_fails failsUnchanged transferFails
    | privateTransfer =>
        rw [privateTransfer_fails_unchanged fails]
        exact Storage.Intact.refl s
    | unshield amount nullifier =>
        rcases (unshield_eq_error_iff _ _ _ _ _ _).mp fails with
          ⟨_, _, rfl⟩ | ⟨who, rfl, ⟨_, _, rfl⟩ | ⟨empty, ⟨_, _, rfl⟩ | unpaying⟩⟩
        · exact Storage.Intact.refl _
        · exact Storage.Intact.refl _
        · exact Storage.Intact.refl _
        · obtain ⟨fresh, _, transferFails, _⟩ := unpaying
          refine absurd ⟨who, rfl, empty, fresh, ?_⟩ paid
          rintro ⟨_, pays⟩
          rw [transferFails] at pays
          cases pays

/-- The account withdraws more than the funded pool holds. -/
theorem fundedPool_unshield_failsIntact_iff :
    threeAccounts.currency.FailsUnchanged ∧
    (FailsIntact Storage.Intact
        ((Call.unshield 500 []).body (.signed SampleAccount.depositor))
        fundedPool ↔
      ¬@UnpaidWithdrawal threeAccounts (.signed .depositor) fundedPool
        (.unshield 500 [])) :=
  ⟨balances_failsUnchanged 10,
    call_failsIntact_iff (balances_failsUnchanged 10) _ _ fundedPool⟩

/-- A withdrawal that the pool cannot pay burns its nullifier. -/
theorem unshield_burns_nullifier :
    ¬∀ (T : Config), T.currency.FailsUnchanged ->
      ∀ (origin : RawOrigin T.AccountId) (call : Call T) (s : Storage T),
        FailsIntact Storage.Intact (call.body origin) s := by
  intro intact
  have unpaid : ¬@PoolPays threeAccounts fundedPool .depositor 500 := by
    rintro ⟨ledger, pays⟩
    exact threeAccounts_keepsAlive.not_ok _ _ _ _ ledger (by decide)
      (by decide) (by decide) pays
  obtain ⟨error, s', fails, spent⟩ :=
    @UnpaidWithdrawal.records_nullifier threeAccounts .depositor 500 fundedPool
      (fun spent => spent rfl) unpaid
  have unchanged := (intact threeAccounts (balances_failsUnchanged 10)
    (.signed .depositor) (.unshield 500 []) fundedPool error s' fails).nullifierSet
  rw [Storage.Spent, unchanged] at spent
  exact spent rfl

end Pallet
end Privachain
