import Privachain.Client.BalanceTexts

/-!
# Refreshing the balances

`refreshBalances` starts from a public balance of zero, asks the chain when it is
connected, and shows and saves what it has.  A query that fails therefore replaces
the last known balance by zero.
-/

namespace Privachain
namespace Client
namespace DatabaseTexts

open Foundation
open Foundation.JavaScript
open Foundation.StatefulCall
open Foundation.StoredItem

/-! ## The cached balances -/

/-- `interface BalanceInfo` -/
structure BalanceInfo where
  publicBalance : String
  privateBalance : String
  pendingBalance : String
  totalBalance : String
  lastUpdated : Int
  deriving DecidableEq

/-- The balances as an object. -/
def BalanceInfo.toValue (balances : BalanceInfo) : Value :=
  .object
    [("publicBalance", .string balances.publicBalance),
      ("privateBalance", .string balances.privateBalance),
      ("pendingBalance", .string balances.pendingBalance),
      ("totalBalance", .string balances.totalBalance),
      ("lastUpdated", .ofInt balances.lastUpdated)]

/-- `getBalances()` -/
def getBalances : Except Exception (Option String) -> Value :=
  getStored .null id

/-- `saveBalances(balances)` -/
def saveBalances (access : Access) (balances : BalanceInfo) : ItemCall PUnit :=
  writeValue access balances.toValue

/-! ## The wallet context -/

/-- The `balances` that the context shows, and the items that a refresh uses. -/
structure BalanceState where
  balances : Value := .null
  stored : Option String := none
  commitments : Option String := none

/-- An asynchronous function of the context. -/
abbrev BalanceCall (α : Type) := EStateM Exception BalanceState α

/-- A call on `KEYS.BALANCES`. -/
def onBalances (call : ItemCall PUnit) : BalanceCall PUnit :=
  onPart BalanceState.stored
    (fun stored state => { state with stored := stored }) call

/-- `loadBalances()` -/
def loadBalances (access : Access) : BalanceCall PUnit := do
  let cached := getBalances (access.read (← get).stored)
  if cached.truthy then
    modify fun state => { state with balances := cached }

/-- What a refresh meets: the connection, the address, the outcome of the query,
the answers of the storage and the time. -/
structure RefreshAnswers where
  connected : Bool
  address : Option String
  getBalance : Except Exception String
  commitments : Access := {}
  balances : Access := {}
  dateNow : Int := 0

namespace RefreshAnswers

variable (answers : RefreshAnswers)

/-- `blockchain.connected && address` -/
def asksChain : Bool :=
  answers.connected && answers.address.any (· ≠ "")

/-- `publicBalance`, which is `'0'` unless the chain returns a balance. -/
def publicBalance : String :=
  if answers.asksChain then
    match answers.getBalance with
    | .ok balance => balance
    | .error _ => "0"
  else "0"

/-- The `balanceInfo` of a refresh, where the conversions may throw. -/
def balanceInfo (commitments : Option String) :
    Except Exception BalanceInfo := do
  let privateBalance ← calculatePrivateBalance
    (answers.commitments.read commitments)
  let publicBalance := answers.publicBalance
  let totalBalance := bigIntToString
    ((← bigIntOfString publicBalance) + (← bigIntOfString privateBalance))
  return {
    publicBalance := publicBalance
    privateBalance := privateBalance
    pendingBalance := "0"
    totalBalance := totalBalance
    lastUpdated := answers.dateNow }

end RefreshAnswers

/-- `refreshBalances()` -/
def refreshBalances (answers : RefreshAnswers) : BalanceCall PUnit :=
  tryCatch
    (do
      let balanceInfo ←
        MonadExcept.ofExcept (answers.balanceInfo (← get).commitments)
      modify fun state => { state with balances := balanceInfo.toValue }
      onBalances (saveBalances answers.balances balanceInfo))
    fun _ => return ⟨⟩

/-! ## The last known balance -/

/-- The public balance that is shown. -/
def BalanceState.shownPublic (state : BalanceState) : Value :=
  propertyOf state.balances "publicBalance"

/-- The public balance that is persisted. -/
def BalanceState.savedPublic (state : BalanceState) : Value :=
  propertyOf (getBalances (.ok state.stored)) "publicBalance"

/-- The chain is disconnected, or it is asked and rejects. -/
def QueryFails (answers : RefreshAnswers) : Prop :=
  answers.connected = false ∨
    (answers.asksChain = true ∧ ∃ reason, answers.getBalance = .error reason)

/-- The balance is the sum of the unspent commitments in an item that can be
read. -/
def IsStoredSum (commitments : Option String) (balance : String) : Prop :=
  (∃ content, readContent (.ok commitments) = .ok content) ∧
    calculatePrivateBalance (.ok commitments) = .ok balance

/-- The balances are those of the chain and of the stored commitments, and their
total is the sum. -/
structure IsCurrent
    (answers : RefreshAnswers)
    (commitments : Option String)
    (balances : BalanceInfo) : Prop where
  fromChain : answers.asksChain = true ∧
    answers.getBalance = .ok balances.publicBalance
  fromStore : IsStoredSum commitments balances.privateBalance
  total : ∃ publicBalance privateBalance,
    bigIntOfString balances.publicBalance = .ok publicBalance ∧
      bigIntOfString balances.privateBalance = .ok privateBalance ∧
      bigIntOfString balances.totalBalance =
        .ok (publicBalance + privateBalance)

/-- A failed query keeps the public balance that is shown and the persisted one,
and where one of them changes the balances are current. -/
structure KeepsLastKnown
    (answers : RefreshAnswers)
    (before after : BalanceState) : Prop where
  failed : QueryFails answers ->
    after.shownPublic = before.shownPublic ∧
      after.savedPublic = before.savedPublic
  shown : after.shownPublic ≠ before.shownPublic ->
    ∃ balances : BalanceInfo, after.balances = balances.toValue ∧
      IsCurrent answers before.commitments balances
  saved : after.savedPublic ≠ before.savedPublic ->
    ∃ balances : BalanceInfo,
      getBalances (.ok after.stored) = balances.toValue ∧
        IsCurrent answers before.commitments balances

/-- The commitments or the public balance make the refresh throw. -/
def RefreshThrows (answers : RefreshAnswers) (state : BalanceState) : Prop :=
  (∃ error, calculatePrivateBalance
      (answers.commitments.read state.commitments) = .error error) ∨
    ∃ error, bigIntOfString answers.publicBalance = .error error

/-- The public balance is the one that is shown, and persisted where it would be
saved. -/
def SamePublic (answers : RefreshAnswers) (state : BalanceState) : Prop :=
  state.shownPublic = .string answers.publicBalance ∧
    (answers.balances.setItem = none ->
      state.savedPublic = .string answers.publicBalance)

/-- The chain returns a balance, the stored commitments can be read, and unless
their read is granted their sum is zero. -/
def SourcesAnswer (answers : RefreshAnswers) (state : BalanceState) : Prop :=
  (answers.asksChain = true ∧ ∃ balance, answers.getBalance = .ok balance) ∧
    (∃ content, readContent (.ok state.commitments) = .ok content) ∧
    (answers.commitments.getItem = none ∨
      calculatePrivateBalance (.ok state.commitments) = .ok "0")

/-! ## What a refresh computes -/

/-- The private balance is the text of a big integer. -/
theorem exists_total_of_calculatePrivateBalance
    {read : Except Exception (Option String)}
    {balance : String}
    (returns : calculatePrivateBalance read = .ok balance) :
    ∃ total, balance = bigIntToString total := by
  obtain ⟨unspent, _, rest⟩ := (bind_eq_ok_iff _ _ _).mp returns
  obtain ⟨total, _, result⟩ := (bind_eq_ok_iff _ _ _).mp rest
  exact ⟨total, (Except.ok.inj result).symm⟩

/-- A rejected read gives an empty list, and a private balance of zero. -/
theorem calculatePrivateBalance_of_rejected (reason : Exception) :
    calculatePrivateBalance (.error reason) = .ok "0" := by
  rfl

/-- A refresh that throws has no balances to show. -/
theorem balanceInfo_of_throws
    {answers : RefreshAnswers}
    {state : BalanceState}
    (throws : RefreshThrows answers state) :
    ∃ error, answers.balanceInfo state.commitments = .error error := by
  unfold RefreshAnswers.balanceInfo
  rcases throws with ⟨error, calculates⟩ | ⟨error, converts⟩
  · rw [calculates]
    exact ⟨error, rfl⟩
  · cases calculatePrivateBalance
        (answers.commitments.read state.commitments) with
    | error earlier => exact ⟨earlier, rfl⟩
    | ok privateBalance =>
        dsimp only
        rw [converts]
        exact ⟨error, rfl⟩

/-- Any other refresh has balances whose total is the sum. -/
theorem balanceInfo_of_not_throws
    {answers : RefreshAnswers}
    {state : BalanceState}
    (returns : ¬RefreshThrows answers state) :
    ∃ balances, answers.balanceInfo state.commitments = .ok balances ∧
      balances.publicBalance = answers.publicBalance ∧
      calculatePrivateBalance (answers.commitments.read state.commitments) =
        .ok balances.privateBalance ∧
      ∃ publicBalance privateBalance,
        bigIntOfString balances.publicBalance = .ok publicBalance ∧
          bigIntOfString balances.privateBalance = .ok privateBalance ∧
          bigIntOfString balances.totalBalance =
            .ok (publicBalance + privateBalance) := by
  rw [RefreshThrows, not_or] at returns
  obtain ⟨calculates, converts⟩ := returns
  cases calculated : calculatePrivateBalance
      (answers.commitments.read state.commitments) with
  | error error => exact absurd ⟨error, calculated⟩ calculates
  | ok balance =>
      cases converted : bigIntOfString answers.publicBalance with
      | error error => exact absurd ⟨error, converted⟩ converts
      | ok publicBalance =>
          obtain ⟨privateBalance, rfl⟩ :=
            exists_total_of_calculatePrivateBalance calculated
          have readsBack : ∀ value : Int,
              bigIntOfString (bigIntToString value) = .ok value := by
            intro value
            rw [bigIntOfString, stringToBigInt_bigIntToString]
          have computed : answers.balanceInfo state.commitments = .ok
              { publicBalance := answers.publicBalance
                privateBalance := bigIntToString privateBalance
                pendingBalance := "0"
                totalBalance := bigIntToString (publicBalance + privateBalance)
                lastUpdated := answers.dateNow } := by
            rw [RefreshAnswers.balanceInfo, calculated]
            dsimp only [bind, Except.bind]
            rw [converted, readsBack]
            rfl
          exact ⟨_, computed, rfl, rfl, publicBalance, privateBalance, converted,
            readsBack _, readsBack _⟩

/-! ## What a refresh leaves -/

theorem BalanceInfo.isJson_toValue (balances : BalanceInfo) :
    JSON.IsJson balances.toValue :=
  ⟨JSON.isOwn_of_names ["publicBalance", "privateBalance", "pendingBalance",
      "totalBalance", "lastUpdated"] rfl (by decide +kernel),
    trivial, trivial, trivial, trivial, JSON.isJson_ofInt balances.lastUpdated,
    trivial⟩

/-- Whether balances are current depends on what is shown of them. -/
theorem IsCurrent.of_toValue_eq
    {answers : RefreshAnswers}
    {commitments : Option String}
    {first second : BalanceInfo}
    (current : IsCurrent answers commitments first)
    (same : first.toValue = second.toValue) :
    IsCurrent answers commitments second := by
  simp only [BalanceInfo.toValue, Value.object.injEq, List.cons.injEq,
    Prod.mk.injEq, Value.string.injEq, true_and] at same
  obtain ⟨isPublic, isPrivate, _, isTotal, _⟩ := same
  obtain ⟨fromChain, fromStore, total⟩ := current
  rw [isPublic] at fromChain total
  rw [isPrivate] at fromStore total
  rw [isTotal] at total
  exact ⟨fromChain, fromStore, total⟩

/-- The item after balances were to be saved. -/
def savedBalances
    (access : Access)
    (balances : BalanceInfo)
    (item : Option String) : Option String :=
  match access.setItem with
  | none => some (JSON.stringifyReplaced balances.toValue)
  | some _ => item

/-- Balances that are saved are read back. -/
theorem getBalances_saved (balances : BalanceInfo) :
    getBalances (.ok (some (JSON.stringifyReplaced balances.toValue))) =
      balances.toValue := by
  rw [getBalances, getStored, readContent_stringifyReplaced,
    JSON.jsonData_of_isJson _ balances.isJson_toValue]
  rfl

/-- A refresh that throws changes nothing. -/
theorem refreshBalances_of_throws
    {answers : RefreshAnswers}
    {state : BalanceState}
    (throws : RefreshThrows answers state) :
    stateAfter (refreshBalances answers) state = state := by
  obtain ⟨error, computes⟩ := balanceInfo_of_throws throws
  have stops :
      (MonadExcept.ofExcept (answers.balanceInfo state.commitments) :
        BalanceCall BalanceInfo) state = .error error state := by
    rw [computes]
    rfl
  rw [refreshBalances, stateAfter_tryCatch_pure]
  exact stateAfter_of_error (bind_of_error stops _)

/-- Saving the balances leaves the ones that are shown. -/
theorem stateAfter_saveBalances
    (access : Access)
    (balances : BalanceInfo)
    (state : BalanceState) :
    stateAfter (onBalances (saveBalances access balances)) state =
      { state with stored := savedBalances access balances state.stored } := by
  have writes := writeValue_eq
    (JSON.isParsed_of_isJson _ balances.isJson_toValue) access state.stored
  rw [onBalances, saveBalances, stateAfter_onPart]
  unfold savedBalances
  cases granted : access.setItem with
  | none =>
      rw [granted] at writes
      rw [stateAfter_of_ok writes]
  | some refusal =>
      rw [granted] at writes
      rw [stateAfter_of_error writes]

/-- Any other refresh shows the balances and saves them where it may. -/
theorem refreshBalances_of_computed
    {answers : RefreshAnswers}
    {state : BalanceState}
    {balances : BalanceInfo}
    (computes : answers.balanceInfo state.commitments = .ok balances) :
    stateAfter (refreshBalances answers) state =
      { state with
        balances := balances.toValue
        stored := savedBalances answers.balances balances state.stored } := by
  have returns :
      (MonadExcept.ofExcept (answers.balanceInfo state.commitments) :
        BalanceCall BalanceInfo) state = .ok balances state := by
    rw [computes]
    rfl
  have shows : (modify fun state => { state with balances := balances.toValue } :
      BalanceCall PUnit) state =
        .ok ⟨⟩ { state with balances := balances.toValue } := rfl
  rw [refreshBalances, stateAfter_tryCatch_pure]
  refine (stateAfter_bind_of_ok returns _).trans ?_
  rw [stateAfter_bind_of_ok shows, stateAfter_saveBalances]

/-- Loading shows the balances that were saved. -/
theorem loadBalances_saved
    {state : BalanceState}
    {balances : BalanceInfo}
    (saved : getBalances (.ok state.stored) = balances.toValue) :
    stateAfter (loadBalances {}) state =
      { state with balances := balances.toValue } := by
  have loads : loadBalances {} state =
      .ok ⟨⟩ { state with balances := balances.toValue } := by
    change (if (getBalances (.ok state.stored)).truthy then
      modify fun current =>
        { current with balances := getBalances (.ok state.stored) }
      else pure ⟨⟩ : BalanceCall PUnit) state = _
    rw [saved]
    rfl
  rw [stateAfter, loads]

/-! ## When the last known balance is kept -/

/-- The balances that are computed are current exactly when the sources answer. -/
theorem isCurrent_iff
    {answers : RefreshAnswers}
    {state : BalanceState}
    {balances : BalanceInfo}
    (isPublic : balances.publicBalance = answers.publicBalance)
    (isPrivate : calculatePrivateBalance
      (answers.commitments.read state.commitments) = .ok balances.privateBalance)
    (total : ∃ publicBalance privateBalance,
      bigIntOfString balances.publicBalance = .ok publicBalance ∧
        bigIntOfString balances.privateBalance = .ok privateBalance ∧
        bigIntOfString balances.totalBalance =
          .ok (publicBalance + privateBalance)) :
    IsCurrent answers state.commitments balances ↔
      SourcesAnswer answers state := by
  have fromChain :
      (answers.asksChain = true ∧
        answers.getBalance = .ok balances.publicBalance) ↔
      answers.asksChain = true ∧ ∃ balance, answers.getBalance = .ok balance := by
    refine and_congr_right fun asks => ?_
    rw [isPublic, RefreshAnswers.publicBalance, if_pos asks]
    cases answers.getBalance with
    | ok balance => simp
    | error reason => simp
  have fromStore : calculatePrivateBalance (.ok state.commitments) =
        .ok balances.privateBalance ↔
      answers.commitments.getItem = none ∨
        calculatePrivateBalance (.ok state.commitments) = .ok "0" := by
    unfold Access.read at isPrivate
    cases refused : answers.commitments.getItem with
    | none =>
        rw [refused] at isPrivate
        exact iff_of_true isPrivate (.inl rfl)
    | some reason =>
        rw [refused, calculatePrivateBalance_of_rejected] at isPrivate
        rw [← isPrivate]
        simp
  rw [SourcesAnswer, ← fromChain, ← fromStore]
  constructor
  · intro current
    exact ⟨current.fromChain, current.fromStore⟩
  · rintro ⟨chain, store⟩
    exact ⟨chain, store, total⟩

/-- A failed query has no balance of the chain. -/
theorem not_queryFails
    {answers : RefreshAnswers}
    {balance : String}
    (asks : answers.asksChain = true)
    (returned : answers.getBalance = .ok balance) :
    ¬QueryFails answers := by
  rintro (disconnected | ⟨_, reason, rejects⟩)
  · rw [RefreshAnswers.asksChain, disconnected] at asks
    cases asks
  · rw [returned] at rejects
    cases rejects

/-- The balances are shown, and the saved ones are theirs unless the write is
rejected. -/
structure ShowsAndSaves
    (access : Access)
    (balances : BalanceInfo)
    (before after : BalanceState) : Prop where
  shown : after.balances = balances.toValue
  saved : access.setItem = none ->
    getBalances (.ok after.stored) = balances.toValue
  rejected : access.setItem ≠ none -> after.stored = before.stored

theorem showsAndSaves_savedBalances
    (access : Access)
    (balances : BalanceInfo)
    (state : BalanceState) :
    ShowsAndSaves access balances state
      { state with
        balances := balances.toValue
        stored := savedBalances access balances state.stored } := by
  refine ⟨rfl, fun granted => ?_, fun refused => ?_⟩
  · dsimp only [savedBalances]
    rw [granted]
    exact getBalances_saved balances
  · obtain ⟨refusal, isRefused⟩ := Option.ne_none_iff_exists'.mp refused
    dsimp only [savedBalances]
    rw [isRefused]

section ShowsAndSaves

variable
  {answers : RefreshAnswers}
  {balances : BalanceInfo}
  {before after : BalanceState}
  (showsAndSaves : ShowsAndSaves answers.balances balances before after)

include showsAndSaves

theorem ShowsAndSaves.shownPublic :
    after.shownPublic = .string balances.publicBalance := by
  rw [BalanceState.shownPublic, showsAndSaves.shown]
  rfl

theorem ShowsAndSaves.savedPublic
    (granted : answers.balances.setItem = none) :
    after.savedPublic = .string balances.publicBalance := by
  rw [BalanceState.savedPublic, showsAndSaves.saved granted]
  rfl

theorem ShowsAndSaves.keepsSavedPublic
    (refused : answers.balances.setItem ≠ none) :
    after.savedPublic = before.savedPublic := by
  rw [BalanceState.savedPublic, showsAndSaves.rejected refused]
  rfl

/-- The same public balance keeps the last known one. -/
theorem ShowsAndSaves.keeps_of_samePublic
    (isPublic : balances.publicBalance = answers.publicBalance)
    (same : SamePublic answers before) :
    KeepsLastKnown answers before after := by
  have keepsShown : after.shownPublic = before.shownPublic := by
    rw [showsAndSaves.shownPublic, isPublic, same.1]
  have keepsSaved : after.savedPublic = before.savedPublic := by
    by_cases granted : answers.balances.setItem = none
    · rw [showsAndSaves.savedPublic granted, isPublic, same.2 granted]
    · exact showsAndSaves.keepsSavedPublic granted
  exact ⟨fun _ => ⟨keepsShown, keepsSaved⟩,
    fun changed => absurd keepsShown changed,
    fun changed => absurd keepsSaved changed⟩

/-- Current balances may replace the last known one. -/
theorem ShowsAndSaves.keeps_of_isCurrent
    (current : IsCurrent answers before.commitments balances) :
    KeepsLastKnown answers before after := by
  have answered := not_queryFails current.fromChain.1 current.fromChain.2
  refine ⟨fun fails => absurd fails answered,
    fun _ => ⟨balances, showsAndSaves.shown, current⟩, fun changed => ?_⟩
  by_cases granted : answers.balances.setItem = none
  · exact ⟨balances, showsAndSaves.saved granted, current⟩
  · exact absurd (showsAndSaves.keepsSavedPublic granted) changed

/-- Balances that are not current have the same public balance where they keep the
last known one. -/
theorem ShowsAndSaves.samePublic_of_keeps
    (isPublic : balances.publicBalance = answers.publicBalance)
    (keeps : KeepsLastKnown answers before after)
    (notCurrent : ¬IsCurrent answers before.commitments balances) :
    SamePublic answers before := by
  constructor
  · by_contra changed
    rw [← isPublic, ← showsAndSaves.shownPublic, eq_comm] at changed
    obtain ⟨other, same, current⟩ := keeps.shown changed
    exact notCurrent
      (current.of_toValue_eq (same.symm.trans showsAndSaves.shown))
  · intro granted
    by_contra changed
    rw [← isPublic, ← showsAndSaves.savedPublic granted, eq_comm] at changed
    obtain ⟨other, same, current⟩ := keeps.saved changed
    exact notCurrent
      (current.of_toValue_eq (same.symm.trans (showsAndSaves.saved granted)))

/-- Balances that are shown and saved keep the last known one exactly when it is
theirs or they are current. -/
theorem ShowsAndSaves.keepsLastKnown_iff
    (isPublic : balances.publicBalance = answers.publicBalance) :
    KeepsLastKnown answers before after ↔
      SamePublic answers before ∨
        IsCurrent answers before.commitments balances := by
  constructor
  · intro keeps
    by_cases current : IsCurrent answers before.commitments balances
    · exact .inr current
    · exact .inl (showsAndSaves.samePublic_of_keeps isPublic keeps current)
  · rintro (same | current)
    · exact showsAndSaves.keeps_of_samePublic isPublic same
    · exact showsAndSaves.keeps_of_isCurrent current

end ShowsAndSaves

/-- **Refreshing.**  A refresh keeps the last known balance exactly when it throws,
has the same public balance, or its sources answer. -/
theorem refreshBalances_keepsLastKnown_iff
    (answers : RefreshAnswers)
    (state : BalanceState) :
    KeepsLastKnown answers state
        (stateAfter (refreshBalances answers) state) ↔
      RefreshThrows answers state ∨ SamePublic answers state ∨
        SourcesAnswer answers state := by
  by_cases throws : RefreshThrows answers state
  · rw [refreshBalances_of_throws throws]
    refine iff_of_true ?_ (.inl throws)
    exact ⟨fun _ => ⟨rfl, rfl⟩, fun changed => absurd rfl changed,
      fun changed => absurd rfl changed⟩
  · obtain ⟨balances, computes, isPublic, isPrivate, total⟩ :=
      balanceInfo_of_not_throws throws
    rw [refreshBalances_of_computed computes,
      (showsAndSaves_savedBalances _ _ _).keepsLastKnown_iff isPublic,
      isCurrent_iff isPublic isPrivate total]
    exact (or_iff_right throws).symm

/-- The balances that were saved when the chain last answered. -/
def lastKnown : BalanceInfo where
  publicBalance := "100"
  privateBalance := "0"
  pendingBalance := "0"
  totalBalance := "100"
  lastUpdated := 0

/-- The context that has loaded them. -/
def loadedState : BalanceState where
  balances := lastKnown.toValue
  stored := some (JSON.stringifyReplaced lastKnown.toValue)

example : stateAfter (loadBalances {})
    { stored := some (JSON.stringifyReplaced lastKnown.toValue) } =
      loadedState :=
  loadBalances_saved (getBalances_saved lastKnown)

/-- A refresh while the chain is disconnected. -/
def disconnected : RefreshAnswers where
  connected := false
  address := some "5F"
  getBalance := .ok "100"

/-- The refresh shows a public balance of zero. -/
theorem refreshBalances_forgets :
    ¬KeepsLastKnown disconnected loadedState
      (stateAfter (refreshBalances disconnected) loadedState) := by
  intro keeps
  have shown := (keeps.failed (.inl rfl)).1
  have computes : disconnected.balanceInfo loadedState.commitments = .ok
      { publicBalance := "0"
        privateBalance := "0"
        pendingBalance := "0"
        totalBalance := "0"
        lastUpdated := 0 } := by
    rfl
  rw [refreshBalances_of_computed computes] at shown
  have same : Value.string "0" = Value.string "100" := shown
  exact absurd (Value.string.inj same) (by decide)

end DatabaseTexts
end Client
end Privachain
