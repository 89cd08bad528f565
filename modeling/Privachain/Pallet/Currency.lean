import Privachain.Pallet.Defs
import Mathlib.Algebra.BigOperators.Group.Finset.Basic
import Mathlib.Algebra.BigOperators.Group.Finset.Piecewise
import Mathlib.Algebra.Order.BigOperators.Group.Finset
import Mathlib.Data.Fintype.Basic

/-!
# The currency

The documented laws of `Currency::transfer` that the pallet relies on, and a
ledger of balances with an existential deposit that satisfies them.
-/

namespace Privachain
namespace Pallet

namespace Currency

variable {AccountId : Type} (currency : Currency AccountId)

/-! ## Laws -/

/-- Exactly the amount has moved between two accounts. -/
structure Moved
    (source dest : AccountId)
    (amount : Nat)
    (before after : currency.Ledger) : Prop where
  sourceLoses : currency.balance after source + amount =
    currency.balance before source
  destGains : currency.balance after dest =
    currency.balance before dest + amount
  othersKeep : ∀ account, account ≠ source -> account ≠ dest ->
    currency.balance after account = currency.balance before account

/-- A transfer that returns has moved exactly the amount. -/
def MovesExactly : Prop :=
  ∀ source dest amount before after, source ≠ dest ->
    currency.transfer source dest amount .keepAlive before = .ok () after ->
    currency.Moved source dest amount before after

/-- The existence requirement: zero amounts always pass, other amounts exactly
when the source keeps the existential deposit, towards existing accounts. -/
structure KeepsAlive (existentialDeposit : Nat) : Prop where
  positive : 0 < existentialDeposit
  zero_ok : ∀ source dest ledger,
    ∃ after, currency.transfer source dest 0 .keepAlive ledger = .ok () after
  not_ok : ∀ source dest amount ledger after, source ≠ dest -> amount ≠ 0 ->
    currency.balance ledger source < amount + existentialDeposit ->
    currency.transfer source dest amount .keepAlive ledger ≠ .ok () after
  ok : ∀ source dest amount ledger, source ≠ dest ->
    amount + existentialDeposit ≤ currency.balance ledger source ->
    existentialDeposit ≤ currency.balance ledger dest ->
    ∃ after,
      currency.transfer source dest amount .keepAlive ledger = .ok () after

/-! ## Total issuance -/

/-- The sum of all balances. -/
def totalIssuance [Fintype AccountId] (ledger : currency.Ledger) : Nat :=
  ∑ account, currency.balance ledger account

variable {currency}

/-- Moving an amount keeps the sum of all balances. -/
theorem Moved.totalIssuance_eq
    [Fintype AccountId]
    {source dest : AccountId}
    {amount : Nat}
    {before after : currency.Ledger}
    (moved : currency.Moved source dest amount before after)
    (different : source ≠ dest) :
    currency.totalIssuance after = currency.totalIssuance before := by
  classical
  have pointwise : ∀ account,
      currency.balance after account + (if account = source then amount else 0) =
        currency.balance before account +
          (if account = dest then amount else 0) := by
    intro account
    by_cases atSource : account = source
    · subst atSource
      simpa [different] using moved.sourceLoses
    · by_cases atDest : account = dest
      · subst atDest
        simpa [atSource] using moved.destGains
      · simpa [atSource, atDest] using moved.othersKeep account atSource atDest
  have sums := Finset.sum_congr rfl fun account (_ : account ∈ Finset.univ) =>
    pointwise account
  simp only [Finset.sum_add_distrib, Finset.sum_ite_eq', Finset.mem_univ,
    if_true] at sums
  exact Nat.add_right_cancel sums

end Currency

/-! ## Balances with an existential deposit -/

section Balances

variable {AccountId : Type} [DecidableEq AccountId]

/-- A transfer on a map of balances, with the checks of the balances pallet in
its order. -/
def balancesTransfer
    (existentialDeposit : Nat)
    (source dest : AccountId)
    (amount : Nat)
    (existenceRequirement : ExistenceRequirement) :
    EStateM DispatchError (AccountId -> Nat) Unit := fun balances =>
  if amount = 0 ∨ source = dest then .ok () balances
  else if balances source < amount then
    .error (.token .fundsUnavailable) balances
  else if existenceRequirement = .keepAlive ∧
      balances source - amount < existentialDeposit then
    .error (.token .notExpendable) balances
  else if balances dest + amount < existentialDeposit then
    .error (.token .belowMinimum) balances
  else
    .ok () (Function.update
      (Function.update balances source (balances source - amount))
      dest (balances dest + amount))

variable (AccountId) in
/-- The currency of a map of balances. -/
@[reducible] def balances (existentialDeposit : Nat) : Currency AccountId where
  Ledger := AccountId -> Nat
  balance := fun ledger account => ledger account
  transfer := balancesTransfer existentialDeposit

/-- The balances after moving an amount. -/
def movedBalances
    (source dest : AccountId)
    (amount : Nat)
    (balances : AccountId -> Nat) : AccountId -> Nat :=
  Function.update (Function.update balances source (balances source - amount))
    dest (balances dest + amount)

/-- A transfer of a non-zero amount that keeps its source alive. -/
theorem balancesTransfer_eq_ok_iff
    {existentialDeposit : Nat}
    {source dest : AccountId}
    {amount : Nat}
    (different : source ≠ dest)
    (notZero : amount ≠ 0)
    (before after : AccountId -> Nat) :
    balancesTransfer existentialDeposit source dest amount .keepAlive before =
        .ok () after ↔
      amount + existentialDeposit ≤ before source ∧
      existentialDeposit ≤ before dest + amount ∧
      after = movedBalances source dest amount before := by
  have notTrivial : ¬(amount = 0 ∨ source = dest) := by
    simp [different, notZero]
  unfold balancesTransfer
  rw [if_neg notTrivial]
  by_cases short : before source < amount
  · rw [if_pos short]
    simp only [reduceCtorEq, false_iff]
    omega
  · rw [if_neg short]
    by_cases dies : before source - amount < existentialDeposit
    · simp only [dies, and_self, if_true, reduceCtorEq, false_iff]
      omega
    · by_cases tooSmall : before dest + amount < existentialDeposit
      · simp only [dies, and_false, if_false, tooSmall, if_true, reduceCtorEq,
          false_iff]
        omega
      · have keeps : amount + existentialDeposit ≤ before source := by omega
        have enough : existentialDeposit ≤ before dest + amount := by omega
        simp [dies, tooSmall, keeps, enough, movedBalances, eq_comm]

/-- Every successful transfer of balances moves exactly the amount. -/
theorem balances_movesExactly (existentialDeposit : Nat) :
    (balances AccountId existentialDeposit).MovesExactly := by
  intro source dest amount before after different returns
  by_cases zero : amount = 0
  · have unchanged : after = before := by
      simpa [balancesTransfer, zero, eq_comm] using returns
    rw [unchanged, zero]
    exact ⟨rfl, rfl, fun _ _ _ => rfl⟩
  · obtain ⟨keeps, _, rfl⟩ :=
      (balancesTransfer_eq_ok_iff different zero before after).mp returns
    refine ⟨?_, ?_, ?_⟩
    · simp only [movedBalances, Function.update_of_ne different,
        Function.update_self]
      omega
    · simp only [movedBalances, Function.update_self]
    · intro account notSource notDest
      simp only [movedBalances, Function.update_of_ne notDest,
        Function.update_of_ne notSource]

/-- Transfers of balances keep their source alive. -/
theorem balances_keepsAlive
    {existentialDeposit : Nat}
    (positive : 0 < existentialDeposit) :
    (balances AccountId existentialDeposit).KeepsAlive existentialDeposit where
  positive := positive
  zero_ok := fun source dest ledger =>
    ⟨ledger, by simp [balancesTransfer]⟩
  not_ok := by
    intro source dest amount ledger after different notZero tooLittle returns
    have keeps :=
      ((balancesTransfer_eq_ok_iff different notZero ledger after).mp returns).1
    exact absurd keeps (Nat.not_le.mpr tooLittle)
  ok := by
    intro source dest amount ledger different keeps destExists
    by_cases zero : amount = 0
    · exact ⟨ledger, by simp [balancesTransfer, zero]⟩
    · exact ⟨_, (balancesTransfer_eq_ok_iff different zero ledger _).mpr
        ⟨keeps, Nat.le_add_right_of_le destExists, rfl⟩⟩

end Balances

/-- The accounts of a small runtime. -/
inductive SampleAccount
  | pool
  | depositor
  | bystander
  deriving DecidableEq

instance : Fintype SampleAccount where
  elems := {.pool, .depositor, .bystander}
  complete := by
    intro account
    cases account <;> decide

/-- Balances of the three accounts. -/
def sampleBalances (pool depositor bystander : Nat) : SampleAccount -> Nat
  | .pool => pool
  | .depositor => depositor
  | .bystander => bystander

/-- A runtime with three accounts, an existential deposit of `10`, and
nullifiers as their own hashes. -/
abbrev threeAccounts : Config where
  AccountId := SampleAccount
  Hash := List UInt8
  BlockNumber := Nat
  hashDecidableEq := inferInstance
  currency := balances SampleAccount 10
  palletAccount := .pool
  hashing := id
  maxIndex := UInt32.size - 1
  u32_le_maxIndex := le_rfl

theorem threeAccounts_movesExactly : threeAccounts.currency.MovesExactly :=
  balances_movesExactly 10

theorem threeAccounts_keepsAlive : threeAccounts.currency.KeepsAlive 10 :=
  balances_keepsAlive (by decide)

end Pallet
end Privachain
