import Privachain.Pallet.Acceptance
import Privachain.Pallet.Runs

/-!
# The balance of the pool

The pool account holds what was deposited less what was withdrawn.  Its
withdrawals keep it alive: it never pays out its last existential deposit.
-/

namespace Privachain
namespace Pallet

open Foundation
open Foundation.StatefulCall

variable {T : Config}

/-- The balance of the pool account. -/
def Storage.poolBalance (s : Storage T) : Nat :=
  T.currency.balance s.ledger (accountId T)

/-- The amount that a call deposits. -/
def Call.depositAmount : Call T -> Nat
  | .shield amount _ _ => amount
  | .privateTransfer _ _ _ => 0
  | .unshield _ _ => 0

/-- The amount that a call withdraws. -/
def Call.withdrawalAmount : Call T -> Nat
  | .shield _ _ _ => 0
  | .privateTransfer _ _ _ => 0
  | .unshield amount _ => amount

/-- The amount that an extrinsic deposits when it succeeds. -/
def deposited (s : Storage T) (x : Extrinsic T) : Nat :=
  if x.Succeeds s then x.call.depositAmount else 0

/-- The amount that an extrinsic withdraws when it succeeds. -/
def withdrawn (s : Storage T) (x : Extrinsic T) : Nat :=
  if x.Succeeds s then x.call.withdrawalAmount else 0

/-- The extrinsic is not signed by the pool account. -/
def NotByPool (x : Extrinsic T) : Prop :=
  x.origin ≠ .signed (accountId T)

theorem NotByPool.ne_accountId
    {x : Extrinsic T}
    (notByPool : NotByPool x)
    {who : T.AccountId}
    (origin : x.origin = .signed who) :
    who ≠ accountId T := by
  rintro rfl
  exact notByPool origin

/-- One extrinsic balances the pool. -/
theorem poolBalance_apply
    (laws : T.currency.MovesExactly)
    (s : Storage T)
    {x : Extrinsic T}
    (notByPool : NotByPool x) :
    (x.apply s).poolBalance + withdrawn s x =
      s.poolBalance + deposited s x := by
  have effect := x.apply_effect s
  generalize x.apply s = after at effect ⊢
  cases effect with
  | failed fails =>
      rw [withdrawn, deposited, if_neg fails, if_neg fails]
      rfl
  | shielded who amount commitment encryptedNote ledger succeeds origin call
      paid =>
      rw [withdrawn, deposited, if_pos succeeds, if_pos succeeds, call]
      exact (laws _ _ _ _ _ (notByPool.ne_accountId origin) paid).destGains
  | transferred who nullifier newCommitments encryptedNotes succeeds _ call _
      _ =>
      rw [withdrawn, deposited, if_pos succeeds, if_pos succeeds, call]
      rfl
  | unshielded who amount nullifier ledger succeeds origin call _ _ paid =>
      rw [withdrawn, deposited, if_pos succeeds, if_pos succeeds, call]
      exact (laws _ _ _ _ _ (notByPool.ne_accountId origin).symm
        paid).sourceLoses

/-- A failing extrinsic and a private transfer change no ledger. -/
theorem ledger_apply
    (s : Storage T)
    {x : Extrinsic T}
    (noTransfer : ¬x.Succeeds s ∨
      ∃ nullifier newCommitments encryptedNotes,
        x.call = .privateTransfer nullifier newCommitments encryptedNotes) :
    (x.apply s).ledger = s.ledger := by
  have effect := x.apply_effect s
  generalize x.apply s = after at effect ⊢
  cases effect with
  | failed _ => rfl
  | shielded who amount commitment encryptedNote ledger succeeds _ call _ =>
      obtain fails | ⟨_, _, _, otherCall⟩ := noTransfer
      · exact absurd succeeds fails
      · rw [call] at otherCall
        cases otherCall
  | transferred who nullifier newCommitments encryptedNotes _ _ _ _ _ => rfl
  | unshielded who amount nullifier ledger succeeds _ call _ _ _ =>
      obtain fails | ⟨_, _, _, otherCall⟩ := noTransfer
      · exact absurd succeeds fails
      · rw [call] at otherCall
        cases otherCall

/-- One extrinsic keeps the total issuance. -/
theorem totalIssuance_apply
    [Fintype T.AccountId]
    (laws : T.currency.MovesExactly)
    (s : Storage T)
    {x : Extrinsic T}
    (notByPool : NotByPool x) :
    T.currency.totalIssuance (x.apply s).ledger =
      T.currency.totalIssuance s.ledger := by
  have effect := x.apply_effect s
  generalize x.apply s = after at effect ⊢
  cases effect with
  | failed _ => rfl
  | shielded who amount commitment encryptedNote ledger _ origin _ paid =>
      have different := notByPool.ne_accountId origin
      exact (laws _ _ _ _ _ different paid).totalIssuance_eq different
  | transferred who nullifier newCommitments encryptedNotes _ _ _ _ _ => rfl
  | unshielded who amount nullifier ledger _ origin _ _ _ paid =>
      have different := (notByPool.ne_accountId origin).symm
      exact (laws _ _ _ _ _ different paid).totalIssuance_eq different

/-- Along every run without a signature of the pool, the pool holds its initial
balance and the deposits less the withdrawals, private transfers and failing
extrinsics change no balance, and the total issuance is constant. -/
theorem pool_accounting
    (T : Config)
    [Fintype T.AccountId]
    (laws : T.currency.MovesExactly)
    (initial : Storage T)
    (extrinsics : List (Extrinsic T))
    (notByPool : ∀ x ∈ extrinsics, NotByPool x) :
    (chain initial extrinsics).poolBalance +
        total Extrinsic.apply withdrawn initial extrinsics =
      initial.poolBalance +
        total Extrinsic.apply deposited initial extrinsics ∧
    (∀ earlier x later, extrinsics = earlier ++ x :: later ->
      (¬x.Succeeds (chain initial earlier) ∨
        ∃ nullifier newCommitments encryptedNotes,
          x.call = .privateTransfer nullifier newCommitments encryptedNotes) ->
      ∀ account,
        T.currency.balance (chain initial (earlier ++ [x])).ledger account =
          T.currency.balance (chain initial earlier).ledger account) ∧
    T.currency.totalIssuance (chain initial extrinsics).ledger =
      T.currency.totalIssuance initial.ledger := by
  have allowedRun : Allowed Extrinsic.apply (fun _ x => NotByPool x) initial
      extrinsics :=
    allowed_of_forall (fun _ x member => notByPool x member) initial
  refine ⟨?_, ?_, ?_⟩
  · exact run_total Storage.poolBalance
      (fun s x allowed => poolBalance_apply laws s allowed) allowedRun
  · rintro earlier x later _ noTransfer account
    rw [chain, run_append, run_cons, run_nil, ledger_apply _ noTransfer]
  · apply run_invariant (fun s : Storage T =>
      T.currency.totalIssuance s.ledger =
        T.currency.totalIssuance initial.ledger)
    · intro s x allowed same
      rw [totalIssuance_apply laws s allowed, same]
    · rfl
    · exact allowedRun

/-- A deposit of `20`, an empty private transfer and a refused withdrawal. -/
def sampleExtrinsics : List (Extrinsic threeAccounts) :=
  [{ blockNumber := 1, origin := .signed .depositor, call := .shield 20 [2] [3] },
    { blockNumber := 2, origin := .signed .bystander, call := .privateTransfer [] [] [] },
    { blockNumber := 3, origin := .signed .depositor, call := .unshield 5 [7] }]

/-- The sample balances the funded pool. -/
theorem sampleExtrinsics_accounting :
    threeAccounts.currency.MovesExactly ∧
    (∀ x ∈ sampleExtrinsics, NotByPool x) ∧
    (chain fundedPool sampleExtrinsics).poolBalance +
        total Extrinsic.apply withdrawn fundedPool sampleExtrinsics =
      fundedPool.poolBalance +
        total Extrinsic.apply deposited fundedPool sampleExtrinsics := by
  have notByPool : ∀ x ∈ sampleExtrinsics, NotByPool x := by
    unfold NotByPool
    decide
  exact ⟨threeAccounts_movesExactly, notByPool,
    (pool_accounting threeAccounts threeAccounts_movesExactly fundedPool
      sampleExtrinsics notByPool).1⟩

/-! ## Redeeming deposits -/

/-- The nullifier checks of `unshield` as it makes them. -/
def PassesNullifierChecks (s : Storage T) (nullifier : List UInt8) : Prop :=
  nullifier = [] ∧ ¬s.Spent nullifier

/-- The withdrawal succeeds and pays the amount out of the pool. -/
def Redeems
    (s : Storage T)
    (who : T.AccountId)
    (amount : Nat)
    (nullifier : List UInt8) : Prop :=
  ∃ s', unshield T (.signed who) amount nullifier s = .ok () s' ∧
    T.currency.Moved (accountId T) who amount s.ledger s'.ledger

/-- With a nullifier that passes, a withdrawal redeems exactly when the pool
pays. -/
theorem redeems_iff_poolPays
    (laws : T.currency.MovesExactly)
    {s : Storage T}
    {who : T.AccountId}
    (notPool : who ≠ accountId T)
    {nullifier : List UInt8}
    (passes : PassesNullifierChecks s nullifier)
    (amount : Nat) :
    Redeems s who amount nullifier ↔ PoolPays s who amount := by
  constructor
  · rintro ⟨s', returns, _⟩
    exact ((unshield_succeeds_iff _ _ _ _).mp ⟨(), s', returns⟩).2.2
  · intro pays
    obtain ⟨_, s', returns⟩ := (unshield_succeeds_iff who amount nullifier s).mpr
      ⟨passes.1, passes.2, pays⟩
    exact ⟨s', returns, (unshield_effect laws notPool returns).balances⟩

/-- The pool pays an existing account exactly what leaves it its existential
deposit. -/
theorem poolPays_iff
    {existentialDeposit : Nat}
    (keepsAlive : T.currency.KeepsAlive existentialDeposit)
    {s : Storage T}
    {who : T.AccountId}
    (notPool : who ≠ accountId T)
    (existing : existentialDeposit ≤ T.currency.balance s.ledger who)
    (amount : Nat) :
    PoolPays s who amount ↔
      amount = 0 ∨ amount + existentialDeposit ≤ s.poolBalance := by
  constructor
  · rintro ⟨ledger, pays⟩
    by_contra drained
    obtain ⟨notZero, tooLittle⟩ := not_or.mp drained
    exact keepsAlive.not_ok _ _ _ _ _ notPool.symm notZero
      (Nat.not_le.mp tooLittle) pays
  · rintro (rfl | keeps)
    · exact keepsAlive.zero_ok _ _ _
    · exact keepsAlive.ok _ _ _ _ notPool.symm keeps existing

/-- A successful `shield` withdraws nothing. -/
theorem withdrawn_of_shieldSucceeds
    {s : Storage T}
    {x : Extrinsic T}
    (shields : ShieldSucceeds s x) :
    withdrawn s x = 0 := by
  obtain ⟨_, amount, commitment, encryptedNote, call⟩ :=
    (shieldSucceeds_iff s x).mp shields
  rw [withdrawn, call]
  exact ite_self 0

/-- After any run of successful deposits into an empty pool, the pool holds the
sum of the deposits that others made, and an existing account redeems an amount
exactly when it is zero or leaves the pool its existential deposit. -/
theorem unshield_redeems_iff
    (T : Config)
    (existentialDeposit : Nat)
    (laws : T.currency.MovesExactly)
    (keepsAlive : T.currency.KeepsAlive existentialDeposit)
    (initial : Storage T)
    (emptyPool : initial.poolBalance = 0)
    (deposits : List (Extrinsic T))
    (shields : Allowed Extrinsic.apply ShieldSucceeds initial deposits) :
    ((∀ x ∈ deposits, NotByPool x) ->
      (chain initial deposits).poolBalance =
        total Extrinsic.apply deposited initial deposits) ∧
    ∀ who, who ≠ accountId T ->
      existentialDeposit ≤
        T.currency.balance (chain initial deposits).ledger who ->
      ∀ amount, amount ≤ (chain initial deposits).poolBalance ->
      ∀ nullifier,
        PassesNullifierChecks (chain initial deposits) nullifier ->
        (Redeems (chain initial deposits) who amount nullifier ↔
          amount = 0 ∨
            amount + existentialDeposit ≤
              (chain initial deposits).poolBalance) := by
  constructor
  · intro notByPool
    have balanced := run_total Storage.poolBalance
      (fun s x allowed => poolBalance_apply laws s allowed)
      (allowed_of_forall (fun _ x member => notByPool x member) initial)
    have noWithdrawal :
        total Extrinsic.apply withdrawn initial deposits = 0 :=
      total_eq_zero (fun s x => withdrawn_of_shieldSucceeds) shields
    rw [noWithdrawal, emptyPool, Nat.add_zero, Nat.zero_add] at balanced
    exact balanced
  · intro who notPool existing amount _ nullifier passes
    rw [redeems_iff_poolPays laws notPool passes,
      poolPays_iff keepsAlive notPool existing]

/-- The only deposit into an empty pool. -/
def loneDeposit : Extrinsic threeAccounts where
  blockNumber := 1
  origin := .signed .depositor
  call := .shield 20 [2] [3]

/-- An empty pool and an account of `100`. -/
def emptyPool : Storage threeAccounts :=
  genesis threeAccounts (sampleBalances 0 100 0) 1

theorem loneDeposit_succeeds :
    Allowed Extrinsic.apply ShieldSucceeds emptyPool [loneDeposit] := by
  refine ⟨⟨.depositor, 20, [2], [3], rfl, rfl, ?_⟩, trivial⟩
  exact ⟨_, rfl⟩

/-- The lone depositor redeems half of the deposit. -/
theorem loneDeposit_redeems_half :
    threeAccounts.currency.MovesExactly ∧
    threeAccounts.currency.KeepsAlive 10 ∧
    emptyPool.poolBalance = 0 ∧
    Allowed Extrinsic.apply ShieldSucceeds emptyPool [loneDeposit] ∧
    SampleAccount.depositor ≠ accountId threeAccounts ∧
    10 ≤ threeAccounts.currency.balance
      (chain emptyPool [loneDeposit]).ledger .depositor ∧
    10 ≤ (chain emptyPool [loneDeposit]).poolBalance ∧
    PassesNullifierChecks (chain emptyPool [loneDeposit]) [] ∧
    (Redeems (chain emptyPool [loneDeposit]) .depositor 10 [] ↔
      10 = 0 ∨ 10 + 10 ≤ (chain emptyPool [loneDeposit]).poolBalance) := by
  have notPool : SampleAccount.depositor ≠ accountId threeAccounts := by decide
  have existing : 10 ≤ threeAccounts.currency.balance
      (chain emptyPool [loneDeposit]).ledger .depositor := by decide
  have covered : 10 ≤ (chain emptyPool [loneDeposit]).poolBalance := by decide
  have passes : PassesNullifierChecks (chain emptyPool [loneDeposit]) [] :=
    ⟨rfl, fun spent => spent rfl⟩
  have redeems := (unshield_redeems_iff threeAccounts 10
    threeAccounts_movesExactly threeAccounts_keepsAlive emptyPool rfl
    [loneDeposit] loneDeposit_succeeds).2 .depositor notPool existing 10 covered []
    passes
  exact ⟨threeAccounts_movesExactly, threeAccounts_keepsAlive, rfl,
    loneDeposit_succeeds, notPool, existing, covered, passes, redeems⟩

/-- The lone depositor cannot withdraw the whole deposit. -/
theorem loneDeposit_not_redeemable :
    ¬∀ (T : Config)
        (existentialDeposit : Nat),
      T.currency.MovesExactly ->
      T.currency.KeepsAlive existentialDeposit ->
      ∀ initial : Storage T, initial.poolBalance = 0 ->
      ∀ deposits : List (Extrinsic T),
        Allowed Extrinsic.apply ShieldSucceeds initial deposits ->
      ∀ who, who ≠ accountId T ->
        existentialDeposit ≤
          T.currency.balance (chain initial deposits).ledger who ->
      ∀ amount, amount ≤ (chain initial deposits).poolBalance ->
      ∀ nullifier,
        PassesNullifierChecks (chain initial deposits) nullifier ->
        Redeems (chain initial deposits) who amount nullifier := by
  intro redeemable
  have existing : 10 ≤ threeAccounts.currency.balance
      (chain emptyPool [loneDeposit]).ledger .depositor := by decide
  have whole : 20 ≤ (chain emptyPool [loneDeposit]).poolBalance := by decide
  have passes : PassesNullifierChecks (chain emptyPool [loneDeposit]) [] :=
    ⟨rfl, fun spent => spent rfl⟩
  have notPool : SampleAccount.depositor ≠ accountId threeAccounts := by decide
  have redeems := redeemable threeAccounts 10 threeAccounts_movesExactly
    threeAccounts_keepsAlive emptyPool rfl [loneDeposit] loneDeposit_succeeds
    .depositor notPool existing 20 whole [] passes
  have pays := (redeems_iff_poolPays threeAccounts_movesExactly notPool passes
    20).mp redeems
  have keeps := (poolPays_iff threeAccounts_keepsAlive notPool existing 20).mp
    pays
  exact absurd keeps (by decide)

end Pallet
end Privachain
