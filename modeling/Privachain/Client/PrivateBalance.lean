import Privachain.Client.Backups
import Privachain.Client.DatabaseRecords
import Privachain.Foundation.Runs
import Mathlib.Data.List.Pairwise

/-!
# The private balance of the stored commitments

The balance folds over a list to which commitments are appended, and which is
replaced by an import.  Nothing keeps a commitment from being stored twice, so each
one counts once exactly when the calls of the run add it once.
-/

namespace Privachain
namespace Client

open Foundation
open Foundation.JavaScript

/-! ## The balance -/

/-- `commitments.filter((c) => !c.spent)` -/
def unspentOf (commitments : List StoredCommitment) : List StoredCommitment :=
  commitments.filter fun c => !c.spent

/-- `calculatePrivateBalance()`, where `BigInt(c.amount)` may throw. -/
def calculatePrivateBalance
    (commitments : List StoredCommitment) : Except Exception String := do
  let unspent := unspentOf commitments
  let total ← unspent.foldlM
    (fun sum c => do return sum + (← bigIntOfString c.amount)) 0
  return bigIntToString total

/-- The hashes of the stored commitments. -/
def hashesOf (commitments : List StoredCommitment) : List String :=
  commitments.map StoredCommitment.commitment

/-- The unspent commitments, one for each hash. -/
def distinctUnspent (commitments : List StoredCommitment) :
    List StoredCommitment :=
  (unspentOf commitments).pwFilter fun a b => a.commitment ≠ b.commitment

/-- The sum of the amounts of the distinct unspent commitments. -/
def distinctBalance
    (commitments : List StoredCommitment) : Except Exception String := do
  let amounts ← (distinctUnspent commitments).mapM fun c =>
    bigIntOfString c.amount
  return bigIntToString amounts.sum

/-! ## Calls on the store -/

/-- The argument of `importData`; an absent property is `undefined`. -/
structure ImportedLists where
  commitments : Option (List StoredCommitment) := none
  transactions : Option (List StoredTransaction) := none
  settings : Option DatabaseTexts.Properties := none

/-- A call that changes the stored commitments. -/
inductive StoreCall
  | commitment (call : CommitmentCall)
  | importData (data : ImportedLists)

/-- The stored commitments, and the hashes that were marked spent while a
commitment with the hash was stored. -/
structure CommitmentStore where
  commitments : List StoredCommitment := []
  marked : List String := []

/-- The list that a call leaves. -/
def StoreCall.updated
    (call : StoreCall)
    (commitments : List StoredCommitment) : List StoredCommitment :=
  match call with
  | .commitment call => call.updated commitments
  | .importData data => data.commitments.getD commitments

/-- The hash that a call marks spent. -/
def StoreCall.marks
    (call : StoreCall)
    (commitments : List StoredCommitment) : List String :=
  match call with
  | .commitment (.markCommitmentSpent commitmentHash) =>
      (hashesOf commitments).filter (· = commitmentHash)
  | _ => []

/-- The store after a call. -/
def StoreCall.apply (store : CommitmentStore) (call : StoreCall) :
    CommitmentStore where
  commitments := call.updated store.commitments
  marked := store.marked ++ call.marks store.commitments

/-- The store after a list of calls, which starts empty. -/
def storeAfter (calls : List StoreCall) : CommitmentStore :=
  run StoreCall.apply {} calls

/-! ## Counting once -/

/-- No hash is stored twice, what was marked spent does not contribute, and the
balance is the sum of the distinct unspent commitments. -/
structure CountsOnce (store : CommitmentStore) : Prop where
  distinct : (hashesOf store.commitments).Nodup
  marked : ∀ c ∈ unspentOf store.commitments, c.commitment ∉ store.marked
  balance : calculatePrivateBalance store.commitments =
    distinctBalance store.commitments

/-- A commitment that was marked spent is added as a spent one. -/
def KeepsMarks (marked : List String) (commitments : List StoredCommitment) :
    Prop :=
  ∀ c ∈ commitments, c.commitment ∈ marked -> c.spent = true

/-- The call saves a hash that is not stored, or imports distinct hashes, and
what was marked spent before stays spent. -/
def StoreCall.AddsOnce (store : CommitmentStore) : StoreCall -> Prop
  | .commitment (.saveCommitment saved) =>
      saved.commitment ∉ hashesOf store.commitments ∧
        KeepsMarks store.marked [saved]
  | .commitment _ => True
  | .importData data =>
      ∀ imported, data.commitments = some imported ->
        (hashesOf imported).Nodup ∧ KeepsMarks store.marked imported

/-! ## What a call keeps -/

/-- Marks are kept exactly when no marked commitment contributes. -/
theorem keepsMarks_iff
    (marked : List String)
    (commitments : List StoredCommitment) :
    KeepsMarks marked commitments ↔
      ∀ c ∈ unspentOf commitments, c.commitment ∉ marked := by
  unfold KeepsMarks unspentOf
  simp only [List.mem_filter, Bool.not_eq_true', and_imp]
  refine forall₂_congr fun c _ => ?_
  rw [← Bool.not_eq_true]
  tauto

theorem keepsMarks_append
    (marked : List String)
    (first second : List StoredCommitment) :
    KeepsMarks marked (first ++ second) ↔
      KeepsMarks marked first ∧ KeepsMarks marked second := by
  unfold KeepsMarks
  exact List.forall_mem_append

/-- Distinct hashes need no distinction. -/
theorem distinctUnspent_of_nodup
    {commitments : List StoredCommitment}
    (distinct : (hashesOf commitments).Nodup) :
    distinctUnspent commitments = unspentOf commitments := by
  rw [distinctUnspent, List.pwFilter_eq_self]
  have pairwise := List.pairwise_map.mp distinct
  exact pairwise.sublist List.filter_sublist

/-- A sum that is folded over a list is that of the traversal. -/
theorem foldlM_add_eq
    {α : Type}
    (function : α -> Except Exception Int)
    (start : Int)
    (inputs : List α) :
    (inputs.foldlM (fun sum input => do return sum + (← function input)) start) =
      (do
        let results ← inputs.mapM function
        return start + results.sum) := by
  induction inputs generalizing start with
  | nil => simp
  | cons input inputs inductionHypothesis =>
      rw [List.foldlM_cons, List.mapM_cons]
      cases function input with
      | error message => rfl
      | ok value =>
          have rest := inductionHypothesis (start + value)
          change (inputs.foldlM _ (start + value)) = _
          rw [rest]
          cases inputs.mapM function with
          | error message => rfl
          | ok results =>
              change Except.ok _ = Except.ok _
              rw [List.sum_cons, Int.add_assoc]

/-- The fold sums the unspent commitments, so with distinct hashes the balance is
the sum of the distinct ones. -/
theorem balance_of_nodup
    {commitments : List StoredCommitment}
    (distinct : (hashesOf commitments).Nodup) :
    calculatePrivateBalance commitments = distinctBalance commitments := by
  rw [calculatePrivateBalance, distinctBalance,
    distinctUnspent_of_nodup distinct, foldlM_add_eq]
  cases (unspentOf commitments).mapM fun c => bigIntOfString c.amount with
  | error message => rfl
  | ok amounts =>
      change Except.ok _ = Except.ok _
      rw [Int.zero_add]

/-- Commitments count once exactly when their hashes are distinct and the marks
are kept. -/
theorem countsOnce_iff_nodup (store : CommitmentStore) :
    CountsOnce store ↔
      (hashesOf store.commitments).Nodup ∧
        KeepsMarks store.marked store.commitments := by
  rw [keepsMarks_iff]
  constructor
  · intro once
    exact ⟨once.distinct, once.marked⟩
  · rintro ⟨distinct, marked⟩
    exact ⟨distinct, marked, balance_of_nodup distinct⟩

/-- A saved commitment is counted once more exactly when it is added once. -/
theorem countsOnce_save_iff
    {store : CommitmentStore}
    (once : CountsOnce store)
    (saved : StoredCommitment) :
    CountsOnce
        (StoreCall.apply store (.commitment (.saveCommitment saved))) ↔
      saved.commitment ∉ hashesOf store.commitments ∧
        KeepsMarks store.marked [saved] := by
  obtain ⟨distinct, marked⟩ := (countsOnce_iff_nodup store).mp once
  rw [countsOnce_iff_nodup]
  change (hashesOf (store.commitments ++ [saved])).Nodup ∧
    KeepsMarks (store.marked ++ []) (store.commitments ++ [saved]) ↔ _
  rw [List.append_nil, keepsMarks_append, and_iff_right marked, hashesOf,
    List.map_append, List.map_singleton, ← List.concat_eq_append,
    List.nodup_concat]
  exact and_congr_left fun _ => and_iff_left distinct

/-- Marking changes no hash, and what it marks is spent afterwards. -/
theorem countsOnce_mark
    {store : CommitmentStore}
    (once : CountsOnce store)
    (commitmentHash : String) :
    CountsOnce (StoreCall.apply store
      (.commitment (.markCommitmentSpent commitmentHash))) := by
  obtain ⟨distinct, marked⟩ := (countsOnce_iff_nodup store).mp once
  rw [countsOnce_iff_nodup]
  constructor
  · have sameHashes : hashesOf ((CommitmentCall.markCommitmentSpent
        commitmentHash).updated store.commitments) =
        hashesOf store.commitments := by
      rw [CommitmentCall.updated, hashesOf, List.map_map]
      refine List.map_congr_left fun c _ => ?_
      rw [Function.comp_apply]
      split <;> rfl
    exact (congrArg List.Nodup sameHashes).mpr distinct
  · intro c member isMarked
    obtain ⟨before, stored, rfl⟩ := List.mem_map.mp member
    by_cases selected : before.commitment = commitmentHash
    · rw [if_pos selected]
    · rw [if_neg selected] at isMarked ⊢
      rcases List.mem_append.mp isMarked with earlier | now
      · exact marked before stored earlier
      · have isHash := (List.mem_filter.mp now).2
        exact absurd (of_decide_eq_true isHash) selected

/-- Deleting leaves fewer commitments. -/
theorem countsOnce_delete
    {store : CommitmentStore}
    (once : CountsOnce store)
    (id : String) :
    CountsOnce
      (StoreCall.apply store (.commitment (.deleteCommitment id))) := by
  obtain ⟨distinct, marked⟩ := (countsOnce_iff_nodup store).mp once
  rw [countsOnce_iff_nodup]
  constructor
  · exact distinct.sublist (List.filter_sublist.map _)
  · intro c member isMarked
    rcases List.mem_append.mp isMarked with earlier | nothing
    · exact marked c (List.mem_of_mem_filter member) earlier
    · exact nomatch nothing

/-- An import counts once exactly when what it imports does. -/
theorem countsOnce_import_iff
    {store : CommitmentStore}
    (once : CountsOnce store)
    (data : ImportedLists) :
    CountsOnce (StoreCall.apply store (.importData data)) ↔
      ∀ imported, data.commitments = some imported ->
        (hashesOf imported).Nodup ∧ KeepsMarks store.marked imported := by
  rw [countsOnce_iff_nodup]
  change (hashesOf (data.commitments.getD store.commitments)).Nodup ∧
    KeepsMarks (store.marked ++ [])
      (data.commitments.getD store.commitments) ↔ _
  rw [List.append_nil]
  cases data.commitments with
  | none =>
      have unchanged := (countsOnce_iff_nodup store).mp once
      exact iff_of_true unchanged fun _ impossible => nomatch impossible
  | some imported => simp

/-- **One call.**  From a store that counts once a call leads to one exactly when
it adds once. -/
theorem StoreCall.countsOnce_iff
    (store : CommitmentStore)
    (call : StoreCall)
    (once : CountsOnce store) :
    CountsOnce (call.apply store) ↔ call.AddsOnce store := by
  cases call with
  | commitment call =>
      cases call with
      | saveCommitment saved => exact countsOnce_save_iff once saved
      | markCommitmentSpent commitmentHash =>
          exact iff_of_true (countsOnce_mark once commitmentHash) trivial
      | deleteCommitment id =>
          exact iff_of_true (countsOnce_delete once id) trivial
  | importData data => exact countsOnce_import_iff once data

theorem countsOnce_empty : CountsOnce {} :=
  (countsOnce_iff_nodup _).mpr ⟨List.nodup_nil, fun _ absent => nomatch absent⟩

/-- **Private balance.**  Every commitment counts once in every state of a run
exactly when every call of the run adds once. -/
theorem commitmentsCountOnce_iff (calls : List StoreCall) :
    (∀ earlier later, calls = earlier ++ later ->
      CountsOnce (storeAfter earlier)) ↔
      Allowed StoreCall.apply (fun store call => call.AddsOnce store) {} calls := by
  unfold storeAfter
  rw [← throughout_iff_forall_split]
  exact throughout_iff_allowed StoreCall.countsOnce_iff countsOnce_empty calls

/-- A commitment that a rescan finds again. -/
def foundCommitment : StoredCommitment where
  id := "c1"
  commitment := "0x01"
  amount := "5"
  secret := "7"
  recipient := "9"
  spent := false
  blockNumber := 1
  transactionHash := "0x02"
  timestamp := 0

/-- The run that saves it twice. -/
def rescan : List StoreCall :=
  [.commitment (.saveCommitment foundCommitment),
    .commitment (.saveCommitment foundCommitment)]

/-- The balance counts the commitment twice. -/
theorem rescan_countsTwice :
    calculatePrivateBalance (storeAfter rescan).commitments = .ok "10" ∧
      distinctBalance (storeAfter rescan).commitments = .ok "5" ∧
      ¬ ∀ earlier later, rescan = earlier ++ later ->
        CountsOnce (storeAfter earlier) := by
  refine ⟨by rfl, by rfl, ?_⟩
  intro everywhere
  have once := everywhere rescan [] rfl
  exact absurd once.distinct (by decide)

end Client
end Privachain
