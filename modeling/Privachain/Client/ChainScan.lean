import Privachain.Client.Indexer
import Privachain.Foundation.Doubles

/-!
# Scanning the chain

`scanChain` fetches the events of a block range in batches and collects the
commitments and nullifiers in them.  The sums of its loop are doubles, and from
`2 ^ 53` on the loop stands still.  Between safe integers its sums are exact,
and with an indexer that answers every request the scan is the same as one pass
over the range.
-/

namespace Privachain
namespace Client

open Foundation
open Foundation.JavaScript

/-! ## The scan -/

/-- What is reported to the callback. -/
structure ScanProgress where
  startBlock : Int
  endBlock : Int
  currentBlock : Int
  commitmentsFound : Nat
  nullifiersFound : Nat

/-- `Array.isArray(value) ? value : [value]` -/
def asArray : Value -> List Value
  | .array items => items
  | value => [value]

namespace TransferEvent

/-- A commitment of an event as it is pushed. -/
def commitmentRecord (event : TransferEvent) (commitment : Value) :
    CommitmentRecord where
  commitment := commitment
  index :=
    if (event.dataOf "index").truthy then event.dataOf "index" else .number 0
  blockNumber := event.blockNumber
  transactionHash := event.transactionHash
  timestamp := event.timestamp

/-- A nullifier of an event as it is pushed. -/
def nullifierRecord (event : TransferEvent) (nullifier : Value) :
    NullifierRecord where
  nullifier := nullifier
  blockNumber := event.blockNumber
  transactionHash := event.transactionHash
  timestamp := event.timestamp

/-- `event.data.commitment`, unless it is falsy. -/
def single (event : TransferEvent) : List Value :=
  if (event.dataOf "commitment").truthy then [event.dataOf "commitment"] else []

/-- The array of `event.data[name]`, unless that is falsy. -/
def listed (event : TransferEvent) (name : String) : List Value :=
  if (event.dataOf name).truthy then asArray (event.dataOf name) else []

/-- The commitments that the first and the third condition push. -/
def pushed (event : TransferEvent) : List Value :=
  match event.type with
  | .deposit => event.single ++ event.listed "commitments"
  | .privateTransfer => event.listed "commitments"
  | .withdraw => []

def commitmentRecords (event : TransferEvent) : List CommitmentRecord :=
  event.pushed.map event.commitmentRecord

/-- The records that the second condition pushes. -/
def nullifierRecords (event : TransferEvent) : List NullifierRecord :=
  match event.type with
  | .deposit => []
  | .privateTransfer | .withdraw =>
      (event.listed "nullifiers").map event.nullifierRecord

end TransferEvent

/-- The two lists that a scan fills. -/
structure Found where
  commitments : List CommitmentRecord := []
  nullifiers : List NullifierRecord := []

/-- The body of the loop over the events. -/
def Found.processEvent (found : Found) (event : TransferEvent) : Found where
  commitments := found.commitments ++ event.commitmentRecords
  nullifiers := found.nullifiers ++ event.nullifierRecords

/-- A scan: what it found, the ranges it asked for and the progress it
reported. -/
structure ScanState where
  found : Found := {}
  queried : List Batch := []
  progress : List ScanProgress := []

def batchSize : Nat := 100

/-- The events of a batch are processed and the progress is reported. -/
def ScanState.processBatch
    (startBlock endBlock : Int)
    (onProgress : Bool)
    (batch : Batch)
    (events : List TransferEvent)
    (state : ScanState) : ScanState :=
  let found := events.foldl Found.processEvent state.found
  { found := found
    queried := state.queried ++ [batch]
    progress :=
      if onProgress then
        state.progress ++
          [{ startBlock := startBlock
             endBlock := endBlock
             currentBlock := batch.last
             commitmentsFound := found.commitments.length
             nullifiersFound := found.nullifiers.length }]
      else state.progress }

/-- A scan after some batches with their events. -/
def ScanState.afterBatches
    (startBlock endBlock : Int)
    (onProgress : Bool)
    (events : Batch -> List TransferEvent)
    (batches : List Batch)
    (state : ScanState) : ScanState :=
  batches.foldl (fun state batch =>
    state.processBatch startBlock endBlock onProgress batch (events batch)) state

section Scan

variable
  (indexerConfig : Option IndexerConfig)
  (indexer : Indexer)
  (startBlock endBlock : Int)
  (onProgress : Bool)

/-- The last block of a batch. -/
def batchEnd (currentBlock : Int) : Int :=
  min (Number.addIntegers (Number.addIntegers currentBlock batchSize) (-1)) endBlock

/-- The loop from `currentBlock` on, for a number of rounds; `none` stands for a
loop that is not done by then. -/
def scanWithin : Nat -> Int -> ScanState -> Option (Except Exception ScanState)
  | 0, _, _ => none
  | rounds + 1, currentBlock, state =>
      if currentBlock ≤ endBlock then
        let batchEnd := batchEnd endBlock currentBlock
        match getEventsInRange indexerConfig indexer currentBlock batchEnd none with
        | .error reason => some (.error reason)
        | .ok events =>
            scanWithin rounds (Number.addIntegers batchEnd 1)
              (state.processBatch startBlock endBlock onProgress
                ⟨currentBlock, batchEnd⟩ events)
      else some (.ok state)

/-- `scanChain(startBlock, endBlock, onProgress)`, for a number of rounds. -/
def scanChainWithin (rounds : Nat) : Option (Except Exception ScanState) :=
  scanWithin indexerConfig indexer startBlock endBlock onProgress rounds
    startBlock {}

/-- The loop from `currentBlock` on, where all sums are exact. -/
def scanFrom (currentBlock : Int) (state : ScanState) :
    Except Exception ScanState :=
  if currentBlock ≤ endBlock then
    let batchEnd := min (currentBlock + batchSize - 1) endBlock
    match getEventsInRange indexerConfig indexer currentBlock batchEnd none with
    | .error reason => .error reason
    | .ok events =>
        scanFrom (batchEnd + 1)
          (state.processBatch startBlock endBlock onProgress
            ⟨currentBlock, batchEnd⟩ events)
  else .ok state
termination_by (endBlock + 1 - currentBlock).toNat
decreasing_by
  simp only [batchSize]
  omega

/-- `scanChain(startBlock, endBlock, onProgress)`, where all sums are exact. -/
def scanChain : Except Exception ScanState :=
  scanFrom indexerConfig indexer startBlock endBlock onProgress startBlock {}

/-! ## What a scan does -/

/-- The batches of the range. -/
abbrev scanBatches (startBlock endBlock : Int) : List Batch :=
  batches batchSize (by decide) startBlock endBlock

/-- The events that a query brings; a failed one brings none. -/
def fetchedEvents (batch : Batch) : List TransferEvent :=
  match getEventsInRange indexerConfig indexer batch.first batch.last none with
  | .ok events => events
  | .error _ => []

/-- A query for events is never rejected. -/
theorem getEventsInRange_eq (batch : Batch) :
    getEventsInRange indexerConfig indexer batch.first batch.last none =
      .ok (fetchedEvents indexerConfig indexer batch) := by
  unfold fetchedEvents getEventsInRange
  split
  · rfl
  · cases jsonOr [] (indexer.events batch.first batch.last none) <;> rfl

/-- The loop processes batch after batch. -/
theorem scanFrom_eq (currentBlock : Int) (state : ScanState) :
    scanFrom indexerConfig indexer startBlock endBlock onProgress currentBlock
        state =
      .ok (state.afterBatches startBlock endBlock onProgress
        (fetchedEvents indexerConfig indexer)
        (scanBatches currentBlock endBlock)) := by
  fun_induction scanFrom indexerConfig indexer startBlock endBlock onProgress
    currentBlock state with
  | case1 currentBlock state more batchEnd reason rejected =>
      rw [getEventsInRange_eq indexerConfig indexer ⟨currentBlock, batchEnd⟩]
        at rejected
      cases rejected
  | case2 currentBlock state more batchEnd events fetched inductionHypothesis =>
      rw [getEventsInRange_eq indexerConfig indexer ⟨currentBlock, batchEnd⟩,
        Except.ok.injEq] at fetched
      have split : scanBatches currentBlock endBlock =
          ⟨currentBlock, batchEnd⟩ :: scanBatches (batchEnd + 1) endBlock :=
        batches_of_le more
      rw [inductionHypothesis, split, ← fetched]
      rfl
  | case3 currentBlock state done =>
      rw [scanBatches, batches_of_lt (Int.not_le.mp done)]
      rfl

/-! ## Safe integers -/

/-- Up to a safe integer the end of a batch is exact. -/
theorem batchEnd_eq
    {endBlock currentBlock : Int}
    (least : -2 ^ 53 < currentBlock)
    (more : currentBlock ≤ endBlock)
    (safe : endBlock < 2 ^ 53) :
    batchEnd endBlock currentBlock =
      min (currentBlock + batchSize - 1) endBlock := by
  unfold batchEnd
  have exact : ∀ left right : Int, -2 ^ 53 ≤ left + right ->
      left + right ≤ 2 ^ 53 -> Number.addIntegers left right = left + right :=
    fun left right least most => Number.addIntegers_eq (abs_le.mpr ⟨least, most⟩)
  simp only [batchSize]
  by_cases within : currentBlock + 100 ≤ 2 ^ 53
  · rw [exact currentBlock _ (by omega) (by omega), exact _ (-1) (by omega)
      (by omega)]
    rfl
  · -- the sum is rounded, and the range ends before it
    have beyond := Number.le_addIntegers currentBlock ((100 : Nat) : Int)
      (by omega)
    generalize Number.addIntegers currentBlock ((100 : Nat) : Int) = sum
      at beyond ⊢
    have after : endBlock ≤ Number.addIntegers sum (-1) := by
      by_cases first : sum = 2 ^ 53
      · rw [exact sum (-1) (by omega) (by omega)]
        omega
      · have stays := Number.le_addIntegers sum (-1) (by omega)
        omega
    omega

/-- Between safe integers the loop is the one with exact sums. -/
theorem scanWithin_eq
    (safe : endBlock < 2 ^ 53)
    (rounds : Nat)
    {currentBlock : Int}
    (least : -2 ^ 53 < currentBlock)
    (enough : (scanBatches currentBlock endBlock).length < rounds)
    (state : ScanState) :
    scanWithin indexerConfig indexer startBlock endBlock onProgress rounds
        currentBlock state =
      some (scanFrom indexerConfig indexer startBlock endBlock onProgress
        currentBlock state) := by
  induction rounds generalizing currentBlock state with
  | zero => exact absurd enough (Nat.not_lt_zero _)
  | succ rounds inductionHypothesis =>
      rw [scanWithin, scanFrom]
      by_cases more : currentBlock ≤ endBlock
      · have next : Number.addIntegers (min (currentBlock + batchSize - 1) endBlock)
            1 = min (currentBlock + batchSize - 1) endBlock + 1 := by
          apply Number.addIntegers_eq
          rw [abs_le]
          simp only [batchSize]
          omega
        have split : scanBatches currentBlock endBlock =
            ⟨currentBlock, min (currentBlock + batchSize - 1) endBlock⟩ ::
              scanBatches (min (currentBlock + batchSize - 1) endBlock + 1)
                endBlock :=
          batches_of_le more
        rw [split, List.length_cons, Nat.succ_lt_succ_iff] at enough
        rw [if_pos more, if_pos more]
        simp only [batchEnd_eq least more safe, next]
        cases getEventsInRange indexerConfig indexer currentBlock
            (min (currentBlock + batchSize - 1) endBlock) none with
        | error reason => rfl
        | ok events =>
            refine inductionHypothesis ?_ enough _
            simp only [batchSize]
            omega
      · rw [if_neg more, if_neg more]

/-- A range of safe integers, or one without blocks. -/
def IsSafeRange (startBlock endBlock : Int) : Prop :=
  startBlock ≤ endBlock -> -2 ^ 53 < startBlock ∧ endBlock < 2 ^ 53

instance (startBlock endBlock : Int) :
    Decidable (IsSafeRange startBlock endBlock) :=
  inferInstanceAs (Decidable (_ -> _))

/-- In a safe range the scan is done after its batches. -/
theorem scanChainWithin_eq
    {startBlock endBlock : Int}
    (safe : IsSafeRange startBlock endBlock)
    {rounds : Nat}
    (enough : (scanBatches startBlock endBlock).length < rounds) :
    scanChainWithin indexerConfig indexer startBlock endBlock onProgress rounds =
      some (scanChain indexerConfig indexer startBlock endBlock onProgress) := by
  by_cases more : startBlock ≤ endBlock
  · exact scanWithin_eq _ _ _ _ _ (safe more).2 _ (safe more).1 enough _
  · obtain ⟨earlier, rfl⟩ := Nat.exists_eq_succ_of_ne_zero
      (Nat.ne_of_gt (Nat.zero_lt_of_lt enough))
    rw [scanChainWithin, scanWithin, if_neg more, scanChain, scanFrom,
      if_neg more]

end Scan

section Processing

variable
  (startBlock endBlock : Int)
  (onProgress : Bool)
  (events : Batch -> List TransferEvent)

/-- Processing a list of events adds the records of each. -/
theorem Found.foldl_processEvent (found : Found) (events : List TransferEvent) :
    events.foldl Found.processEvent found =
      { commitments := found.commitments ++
          events.flatMap TransferEvent.commitmentRecords
        nullifiers := found.nullifiers ++
          events.flatMap TransferEvent.nullifierRecords } := by
  induction events generalizing found with
  | nil => simp
  | cons event events inductionHypothesis =>
      rw [List.foldl_cons, inductionHypothesis, List.flatMap_cons,
        List.flatMap_cons, processEvent, List.append_assoc, List.append_assoc]

/-- What is found batch by batch is found in one pass over their events. -/
theorem ScanState.afterBatches_found (batches : List Batch) (state : ScanState) :
    (state.afterBatches startBlock endBlock onProgress events batches).found =
      (batches.flatMap events).foldl Found.processEvent state.found := by
  unfold afterBatches
  induction batches generalizing state with
  | nil => rfl
  | cons batch batches inductionHypothesis =>
      rw [List.foldl_cons, inductionHypothesis, List.flatMap_cons,
        List.foldl_append]
      rfl

/-- Each batch is asked for once. -/
theorem ScanState.afterBatches_queried
    (batches : List Batch)
    (state : ScanState) :
    (state.afterBatches startBlock endBlock onProgress events batches).queried =
      state.queried ++ batches := by
  unfold afterBatches
  induction batches generalizing state with
  | nil => exact (List.append_nil _).symm
  | cons batch batches inductionHypothesis =>
      rw [List.foldl_cons, inductionHypothesis, List.append_cons]
      rfl

/-- The callback is told of the last block of each batch. -/
theorem ScanState.afterBatches_progress
    (batches : List Batch)
    (state : ScanState) :
    (state.afterBatches startBlock endBlock onProgress events
        batches).progress.map ScanProgress.currentBlock =
      state.progress.map ScanProgress.currentBlock ++
        if onProgress then batches.map Batch.last else [] := by
  unfold afterBatches
  induction batches generalizing state with
  | nil => simp
  | cons batch batches inductionHypothesis =>
      rw [List.foldl_cons, inductionHypothesis]
      cases onProgress with
      | false => rfl
      | true => simp [processBatch]

end Processing

/-! ## One pass -/

/-- The outcome of a scan is that of one pass over the range. -/
structure OnePass
    (held : Int -> List TransferEvent)
    (startBlock endBlock : Int)
    (onProgress : Bool)
    (scan : ScanState) : Prop where
  disjoint : scan.queried.Pairwise fun earlier later =>
    ∀ block, ¬(block ∈ earlier.members ∧ block ∈ later.members)
  covers : ∀ block, (∃ batch ∈ scan.queried, block ∈ batch.members) ↔
    startBlock ≤ block ∧ block ≤ endBlock
  found : scan.found =
    (eventsIn held startBlock endBlock).foldl Found.processEvent {}
  increasing :
    (scan.progress.map ScanProgress.currentBlock).Pairwise (· < ·)
  endsAtEnd : onProgress = true -> startBlock ≤ endBlock ->
    (scan.progress.map ScanProgress.currentBlock).getLast? = some endBlock
  emptyRange : endBlock < startBlock ->
    scan.found.commitments = [] ∧ scan.found.nullifiers = [] ∧ scan.progress = []

section OnePass

variable
  (config : IndexerConfig)
  {indexer : Indexer}
  {held : Int -> List TransferEvent}

/-- A successful answer brings its events. -/
theorem fetchedEvents_of_answer
    {batch : Batch}
    {response : Response (List TransferEvent)}
    {events : List TransferEvent}
    (answered : indexer.events batch.first batch.last none = .ok response)
    (ok : response.ok = true)
    (body : response.json = .ok events) :
    fetchedEvents (some config) indexer batch = events := by
  simp only [fetchedEvents, getEventsInRange, jsonOr, answered, bind, Except.bind,
    ok, if_true, body]

/-- A reliable indexer brings the events of each batch. -/
theorem fetchedEvents_of_reliable
    (reliable : indexer.Reliable held)
    (batch : Batch) :
    fetchedEvents (some config) indexer batch =
      batch.members.flatMap held := by
  obtain ⟨response, answered, ok, body⟩ := reliable batch.first batch.last
  exact fetchedEvents_of_answer config answered ok body

/-- A scan goes through the batches of its range. -/
theorem scanChain_eq
    (indexerConfig : Option IndexerConfig)
    (indexer : Indexer)
    (startBlock endBlock : Int)
    (onProgress : Bool) :
    scanChain indexerConfig indexer startBlock endBlock onProgress =
      .ok (ScanState.afterBatches startBlock endBlock onProgress
        (fetchedEvents indexerConfig indexer) (scanBatches startBlock endBlock)
        {}) :=
  scanFrom_eq indexerConfig indexer startBlock endBlock onProgress startBlock {}

/-- With a reliable indexer the batches bring the events of the range. -/
theorem flatMap_fetchedEvents
    (reliable : indexer.Reliable held)
    (startBlock endBlock : Int) :
    (scanBatches startBlock endBlock).flatMap
        (fetchedEvents (some config) indexer) =
      eventsIn held startBlock endBlock := by
  rw [funext (fetchedEvents_of_reliable config reliable), eventsIn,
    ← flatMap_members_batches, List.flatMap_assoc]

/-- With a reliable indexer the batches of a range are one pass over it. -/
theorem onePass_afterBatches
    (reliable : indexer.Reliable held)
    (startBlock endBlock : Int)
    (onProgress : Bool) :
    OnePass held startBlock endBlock onProgress
      (ScanState.afterBatches startBlock endBlock onProgress
        (fetchedEvents (some config) indexer) (scanBatches startBlock endBlock)
        {}) := by
  constructor
  · rw [ScanState.afterBatches_queried, List.nil_append]
    refine (pairwise_batches startBlock endBlock).imp ?_
    rintro earlier later before block ⟨inEarlier, inLater⟩
    rw [Batch.members, mem_interval] at inEarlier inLater
    omega
  · intro block
    rw [ScanState.afterBatches_queried, List.nil_append,
      ← @exists_batch_iff batchSize (by decide)]
    simp only [Batch.members, mem_interval]
  · rw [ScanState.afterBatches_found, flatMap_fetchedEvents config reliable]
  · rw [ScanState.afterBatches_progress]
    cases onProgress with
    | false => exact List.Pairwise.nil
    | true => exact pairwise_map_last startBlock endBlock
  · rintro rfl nonempty
    rw [ScanState.afterBatches_progress]
    exact (List.getLast?_map ..).trans (getLast?_batches nonempty)
  · intro empty
    rw [scanBatches, batches_of_lt empty]
    exact ⟨rfl, rfl, rfl⟩

/-- **Batched scanning equals one pass.**  With a reliable indexer a scan of safe
integers terminates with the outcome of one pass over the range. -/
theorem scanChain_onePass
    (reliable : indexer.Reliable held)
    {startBlock endBlock : Int}
    (safe : IsSafeRange startBlock endBlock)
    (onProgress : Bool) :
    ∃ rounds scan,
      (∀ more, rounds ≤ more ->
        scanChainWithin (some config) indexer startBlock endBlock onProgress
          more = some (.ok scan)) ∧
      OnePass held startBlock endBlock onProgress scan := by
  refine ⟨(scanBatches startBlock endBlock).length + 1, _, fun more enough => ?_,
    onePass_afterBatches config reliable startBlock endBlock onProgress⟩
  rw [scanChainWithin_eq _ _ _ safe enough, scanChain_eq]

end OnePass

/-- An indexer that answers every request for events. -/
def Indexer.serving (held : Int -> List TransferEvent) : Indexer where
  health := .ok { status := 200, json := .ok () }
  commitment := fun _ => .ok { status := 200, json := .ok none }
  commitments := fun _ _ => .ok { status := 200, json := .ok [] }
  nullifier := fun _ => .ok { status := 404, json := .error (.syntaxError "") }
  events := fun startBlock endBlock _ =>
    .ok { status := 200, json := .ok (eventsIn held startBlock endBlock) }

theorem Indexer.serving_reliable (held : Int -> List TransferEvent) :
    (serving held).Reliable held :=
  fun _ _ => ⟨_, rfl, rfl, rfl⟩

/-- An indexer that requests for events from block 101 on do not reach. -/
def Indexer.interrupted (held : Int -> List TransferEvent) : Indexer :=
  { serving held with
    events := fun startBlock endBlock limit =>
      if startBlock = 101 then .error (.typeError "Network request failed")
      else (serving held).events startBlock endBlock limit }

def localIndexer : IndexerConfig where
  endpoint := "http://localhost:3000"

/-- Block 150 holds a deposit, and the other blocks hold nothing. -/
def depositInBlock150 (block : Int) : List TransferEvent :=
  if block = 150 then
    [{ type := .deposit
       blockNumber := 150
       blockHash := "0x96"
       transactionHash := "0x01"
       timestamp := 1700000000000
       data := [("commitment", .string "0xc0"), ("index", .number 3)] }]
  else []

theorem scanChain_onePass_deposit :
    ∃ rounds scan,
      (∀ more, rounds ≤ more ->
        scanChainWithin (some localIndexer) (.serving depositInBlock150) 1 250
          true more = some (.ok scan)) ∧
      OnePass depositInBlock150 1 250 true scan :=
  scanChain_onePass localIndexer (Indexer.serving_reliable depositInBlock150)
    (by decide) true

/-- At block `2 ^ 53` the scan goes on forever: the next block is rounded to the
same one. -/
theorem scanChainWithin_eq_none :
    (Indexer.serving depositInBlock150).Reliable depositInBlock150 ∧
      ∀ rounds,
        scanChainWithin (some localIndexer) (.serving depositInBlock150)
          (2 ^ 53) (2 ^ 53) true rounds = none := by
  refine ⟨Indexer.serving_reliable depositInBlock150, fun rounds => ?_⟩
  have same : batchEnd (2 ^ 53) (2 ^ 53) = 2 ^ 53 := by decide +kernel
  have next : Number.addIntegers (2 ^ 53) 1 = 2 ^ 53 := by decide +kernel
  unfold scanChainWithin
  generalize ({} : ScanState) = state
  induction rounds generalizing state with
  | zero => rfl
  | succ rounds inductionHypothesis =>
      rw [scanWithin, if_pos le_rfl]
      simp only [same, next]
      rw [getEventsInRange_eq (some localIndexer) (.serving depositInBlock150)
        ⟨2 ^ 53, 2 ^ 53⟩]
      exact inductionHypothesis _

/-! ## Skipped blocks -/

/-- A scan that resolves has the records of every event in its range, and a scan
that could not fetch a batch rejects. -/
structure NeverSkips
    (indexerConfig : Option IndexerConfig)
    (indexer : Indexer)
    (held : Int -> List TransferEvent)
    (startBlock endBlock : Int)
    (onProgress : Bool) : Prop where
  complete : ∀ scan,
    scanChain indexerConfig indexer startBlock endBlock onProgress = .ok scan ->
    ∀ block, startBlock ≤ block -> block ≤ endBlock -> ∀ event ∈ held block,
      event.commitmentRecords ⊆ scan.found.commitments ∧
        event.nullifierRecords ⊆ scan.found.nullifiers
  rejects : (∃ batch ∈ scanBatches startBlock endBlock,
      ¬EventsFetched indexerConfig indexer batch.first batch.last) ->
    ∃ reason,
      scanChain indexerConfig indexer startBlock endBlock onProgress = .error reason

section Skipping

variable
  {indexerConfig : Option IndexerConfig}
  {indexer : Indexer}
  {held : Int -> List TransferEvent}

/-- A batch that is fetched brings the events of its blocks. -/
theorem fetchedEvents_of_eventsFetched
    (serves : indexer.Serves held)
    {batch : Batch}
    (fetched : EventsFetched indexerConfig indexer batch.first batch.last) :
    fetchedEvents indexerConfig indexer batch = batch.members.flatMap held := by
  obtain ⟨configured, response, answered, ok, events, body⟩ := fetched
  obtain ⟨config, rfl⟩ := Option.isSome_iff_exists.mp configured
  rw [fetchedEvents_of_answer config answered ok body]
  exact serves _ _ _ _ answered ok body

/-- A scan has the records of every event that one of its batches brings. -/
theorem scan_includes
    {startBlock endBlock : Int}
    {onProgress : Bool}
    {scan : ScanState}
    (resolves : scanChain indexerConfig indexer startBlock endBlock onProgress =
      .ok scan)
    {batch : Batch}
    (isBatch : batch ∈ scanBatches startBlock endBlock)
    {event : TransferEvent}
    (brought : event ∈ fetchedEvents indexerConfig indexer batch) :
    event.commitmentRecords ⊆ scan.found.commitments ∧
      event.nullifierRecords ⊆ scan.found.nullifiers := by
  rw [scanChain_eq, Except.ok.injEq] at resolves
  subst resolves
  have processed : event ∈ (scanBatches startBlock endBlock).flatMap
      (fetchedEvents indexerConfig indexer) :=
    List.mem_flatMap.mpr ⟨batch, isBatch, brought⟩
  rw [ScanState.afterBatches_found, Found.foldl_processEvent]
  constructor
  · intro record member
    exact List.mem_append_right _ (List.mem_flatMap.mpr ⟨event, processed, member⟩)
  · intro record member
    exact List.mem_append_right _ (List.mem_flatMap.mpr ⟨event, processed, member⟩)

/-- **Skipping.**  A scan never skips blocks exactly when each of its batches is
fetched: the batches that are not are scanned as if they were empty. -/
theorem neverSkips_iff
    (serves : indexer.Serves held)
    (startBlock endBlock : Int)
    (onProgress : Bool) :
    NeverSkips indexerConfig indexer held startBlock endBlock onProgress ↔
      ∀ batch ∈ scanBatches startBlock endBlock,
        EventsFetched indexerConfig indexer batch.first batch.last := by
  constructor
  · intro never batch isBatch
    by_contra failed
    obtain ⟨reason, rejected⟩ := never.rejects ⟨batch, isBatch, failed⟩
    rw [scanChain_eq] at rejected
    cases rejected
  · intro fetched
    constructor
    · intro scan resolves block notBefore notAfter event member
      obtain ⟨batch, isBatch, inBatch⟩ :=
        (@exists_batch_iff batchSize (by decide) startBlock endBlock block).mpr
          ⟨notBefore, notAfter⟩
      refine scan_includes resolves isBatch ?_
      rw [fetchedEvents_of_eventsFetched serves (fetched batch isBatch)]
      exact List.mem_flatMap.mpr ⟨block, mem_interval.mpr inBatch, member⟩
    · rintro ⟨batch, isBatch, failed⟩
      exact absurd (fetched batch isBatch) failed

end Skipping

/-- The answers of the interrupted indexer bring its events. -/
theorem Indexer.interrupted_serves (held : Int -> List TransferEvent) :
    (interrupted held).Serves held := by
  intro startBlock endBlock response events answered _ body
  change (if startBlock = 101 then _ else _) = _ at answered
  split at answered
  · cases answered
  · cases answered
    cases body
    rfl

theorem neverSkips_iff_interrupted :
    NeverSkips (some localIndexer) (.interrupted depositInBlock150)
        depositInBlock150 1 250 true ↔
      ∀ batch ∈ scanBatches 1 250,
        EventsFetched (some localIndexer) (.interrupted depositInBlock150)
          batch.first batch.last :=
  neverSkips_iff (Indexer.interrupted_serves depositInBlock150) 1 250 true

/-- When the second request does not reach the indexer, the scan resolves without
the deposit. -/
theorem scanChain_skips :
    ¬NeverSkips (some localIndexer) (.interrupted depositInBlock150)
      depositInBlock150 1 250 true := by
  intro never
  have nothing : (scanBatches 1 250).flatMap (fetchedEvents (some localIndexer)
      (.interrupted depositInBlock150)) = [] := by
    decide +kernel
  have included := never.complete _ (scanChain_eq _ _ _ _ _) 150 (by decide)
    (by decide) _ List.mem_cons_self
  rw [ScanState.afterBatches_found, nothing] at included
  exact List.not_mem_nil (included.1 List.mem_cons_self)

end Client
end Privachain
