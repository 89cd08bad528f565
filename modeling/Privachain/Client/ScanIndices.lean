import Privachain.Client.ChainScan
import Privachain.Foundation.Blocks
import Mathlib.Data.List.Nodup

/-!
# The leaf indices of scanned commitments

An event of several commitments names the leaf index of the first one.  A scan
copies that index into the records of all of them.
-/

namespace Privachain
namespace Client

open Foundation
open Foundation.JavaScript

/-! ## Commitments and their leaves -/

namespace TransferEvent

/-- The commitments that an event carries: a single one that is listed too is
carried once.  Classical decidability is confined to the value of this
definition. -/
noncomputable def carried (event : TransferEvent) : List Value := by
  classical
  exact (event.single.filter fun commitment =>
      decide (commitment ∉ event.listed "commitments")) ++
    event.listed "commitments"

/-- An event carries one commitment and names it where it is pushed once. -/
def PushesOnly (event : TransferEvent) (commitment : Value) : Prop :=
  match event.type with
  | .deposit =>
      (event.single = [commitment] ∧ event.listed "commitments" = []) ∨
        (event.single = [] ∧ event.listed "commitments" = [commitment])
  | .privateTransfer =>
      event.listed "commitments" = [commitment] ∧
        (event.single = [] ∨ event.single = [commitment])
  | .withdraw => False

/-- An event carries no commitment, or one that is pushed once. -/
def IndexedOnce (event : TransferEvent) : Prop :=
  event.carried = [] ∨ ∃ commitment, event.PushesOnly commitment

end TransferEvent

/-- Every event with commitments has the leaf index of its first one, when the
commitments of all events are the leaves from an index on. -/
def LeafIndexed : Nat -> List TransferEvent -> Prop
  | _, [] => True
  | index, event :: events =>
      (event.carried ≠ [] -> event.dataOf "index" = .number index) ∧
        LeafIndexed (index + event.carried.length) events

/-- Consecutive leaves with their indices. -/
def leavesFrom (index : Nat) (commitments : List Value) : List (Value × Value) :=
  (commitments.zipIdx index).map fun leaf => (leaf.1, .number leaf.2)

/-- A record as a commitment with its index. -/
def CommitmentRecord.leaf (record : CommitmentRecord) : Value × Value :=
  (record.commitment, record.index)

/-- The records are those of the leaves, each of them once, and the indices are
distinct. -/
structure OwnIndices
    (index : Nat)
    (events : List TransferEvent)
    (records : List CommitmentRecord) : Prop where
  once : (records.map CommitmentRecord.leaf).Perm
    (leavesFrom index (events.flatMap TransferEvent.carried))
  distinct : (records.map CommitmentRecord.index).Nodup

/-! ## Leaves -/

theorem leavesFrom_append (index : Nat) (first second : List Value) :
    leavesFrom index (first ++ second) =
      leavesFrom index first ++ leavesFrom (index + first.length) second := by
  rw [leavesFrom, List.zipIdx_append, List.map_append]
  rfl

/-- A leaf has one of the consecutive indices. -/
theorem exists_index_of_mem_leavesFrom
    {index : Nat}
    {commitments : List Value}
    {leaf : Value × Value}
    (member : leaf ∈ leavesFrom index commitments) :
    ∃ position : Nat, index ≤ position ∧ position < index + commitments.length ∧
      leaf.2 = .number position := by
  obtain ⟨⟨commitment, position⟩, isLeaf, rfl⟩ := List.mem_map.mp member
  have bounds := List.mem_zipIdx isLeaf
  exact ⟨position, bounds.1, bounds.2.1, rfl⟩

/-- Different leaves have different indices. -/
theorem nodup_leavesFrom (index : Nat) (commitments : List Value) :
    ((leavesFrom index commitments).map Prod.snd).Nodup := by
  have indices : (leavesFrom index commitments).map Prod.snd =
      (List.range' index commitments.length).map
        fun position : Nat => Value.number position := by
    rw [← List.zipIdx_map_snd, List.map_map, leavesFrom, List.map_map]
    rfl
  rw [indices]
  refine List.Nodup.map (fun first second same => ?_) List.nodup_range'
  exact (Number.natCast_inj _ _).mp (Value.number.inj same)

/-- A leaf has an index below a bound. -/
def indexBelow (bound : Nat) (leaf : Value × Value) : Bool :=
  match leaf.2 with
  | .number index => index.less bound
  | _ => false

theorem indexBelow_of_number
    {bound index : Nat}
    {leaf : Value × Value}
    (hasIndex : leaf.2 = .number index) :
    indexBelow bound leaf = decide (index < bound) := by
  rw [indexBelow, hasIndex]
  exact Number.natCast_less index bound

/-! ## The records of one event -/

namespace TransferEvent

theorem mem_carried_iff (event : TransferEvent) (commitment : Value) :
    commitment ∈ event.carried ↔
      commitment ∈ event.single ∨ commitment ∈ event.listed "commitments" := by
  classical
  rw [carried, List.mem_append, List.mem_filter, decide_eq_true_eq]
  tauto

/-- Only what an event carries is pushed. -/
theorem mem_carried_of_mem_pushed
    {event : TransferEvent}
    {commitment : Value}
    (member : commitment ∈ event.pushed) :
    commitment ∈ event.carried := by
  rw [mem_carried_iff]
  unfold pushed at member
  split at member
  · exact List.mem_append.mp member
  · exact .inr member
  · cases member

/-- There is at most one single commitment. -/
theorem single_eq (event : TransferEvent) :
    event.single = [] ∨ ∃ commitment, event.single = [commitment] := by
  unfold single
  split
  · exact .inr ⟨_, rfl⟩
  · exact .inl rfl

theorem carried_of_single_nil
    {event : TransferEvent}
    (noSingle : event.single = []) :
    event.carried = event.listed "commitments" := by
  rw [carried, noSingle]
  rfl

theorem carried_of_single_mem
    {event : TransferEvent}
    {commitment : Value}
    (isSingle : event.single = [commitment])
    (isListed : commitment ∈ event.listed "commitments") :
    event.carried = event.listed "commitments" := by
  rw [carried, isSingle, List.filter_cons_of_neg (by simpa using isListed)]
  rfl

theorem carried_of_single_notMem
    {event : TransferEvent}
    {commitment : Value}
    (isSingle : event.single = [commitment])
    (notListed : commitment ∉ event.listed "commitments") :
    event.carried = commitment :: event.listed "commitments" := by
  rw [carried, isSingle, List.filter_cons_of_pos (by simpa using notListed)]
  rfl

/-- An event that pushes a commitment only carries no other. -/
theorem PushesOnly.carried_eq
    {event : TransferEvent}
    {commitment : Value}
    (pushesOnly : event.PushesOnly commitment) :
    event.carried = [commitment] := by
  unfold PushesOnly at pushesOnly
  split at pushesOnly
  · rcases pushesOnly with ⟨isSingle, noList⟩ | ⟨noSingle, isListed⟩
    · rw [carried_of_single_notMem isSingle (by simp [noList]), noList]
    · rw [carried_of_single_nil noSingle, isListed]
  · obtain ⟨isListed, noSingle | isSingle⟩ := pushesOnly
    · rw [carried_of_single_nil noSingle, isListed]
    · rw [carried_of_single_mem isSingle (by simp [isListed]), isListed]
  · exact pushesOnly.elim

/-- The one commitment of an event is pushed once exactly where it is named
once. -/
theorem pushed_eq_singleton_iff
    {event : TransferEvent}
    {commitment : Value}
    (isCarried : event.carried = [commitment]) :
    event.pushed = [commitment] ↔ event.PushesOnly commitment := by
  unfold pushed PushesOnly
  rcases event.single_eq with noSingle | ⟨single, isSingle⟩
  · rw [carried_of_single_nil noSingle] at isCarried
    cases event.type <;> simp [noSingle, isCarried]
  · by_cases isListed : single ∈ event.listed "commitments"
    · rw [carried_of_single_mem isSingle isListed] at isCarried
      rw [isCarried, List.mem_singleton] at isListed
      cases event.type <;> simp [isSingle, isCarried, isListed]
    · rw [carried_of_single_notMem isSingle isListed] at isCarried
      obtain ⟨rfl, noList⟩ := List.cons_eq_cons.mp isCarried
      cases event.type <;> simp [isSingle, noList]

/-- The records of an event are its leaves exactly when it is indexed once. -/
theorem perm_leavesFrom_iff
    {event : TransferEvent}
    {index : Nat}
    (indexed : ∀ commitment ∈ event.pushed,
      (event.commitmentRecord commitment).index = .number index) :
    (event.commitmentRecords.map CommitmentRecord.leaf).Perm
        (leavesFrom index event.carried) ↔
      event.IndexedOnce := by
  have leaves : event.commitmentRecords.map CommitmentRecord.leaf =
      event.pushed.map fun commitment => (commitment, .number index) := by
    rw [commitmentRecords, List.map_map]
    refine List.map_congr_left fun commitment member => ?_
    exact Prod.ext rfl (indexed commitment member)
  rw [leaves]
  match carries : event.carried with
  | [] =>
      have nothing : event.pushed = [] := by
        refine List.eq_nil_iff_forall_not_mem.mpr fun commitment member => ?_
        have carried := mem_carried_of_mem_pushed member
        rw [carries] at carried
        cases carried
      rw [nothing]
      exact iff_of_true (List.Perm.refl _) (.inl carries)
  | [commitment] =>
      have single : leavesFrom index [commitment] =
          [(commitment, .number index)] := rfl
      have once : event.IndexedOnce ↔ event.PushesOnly commitment := by
        constructor
        · rintro (nothing | ⟨other, pushesOnly⟩)
          · rw [carries] at nothing
            cases nothing
          · have same := pushesOnly.carried_eq
            rw [carries] at same
            obtain rfl := List.singleton_inj.mp same
            exact pushesOnly
        · intro pushesOnly
          exact .inr ⟨commitment, pushesOnly⟩
      rw [once, ← pushed_eq_singleton_iff carries, single, List.perm_singleton]
      constructor
      · intro same
        obtain ⟨other, isOther, leaf⟩ := List.map_eq_singleton_iff.mp same
        rw [isOther, (Prod.mk.inj leaf).1]
      · intro isCommitment
        rw [isCommitment]
        rfl
  | first :: second :: rest =>
      refine iff_of_false ?_ ?_
      · intro permuted
        have member : (second, Value.number ((index + 1 : Nat) : Number)) ∈
            leavesFrom index (first :: second :: rest) :=
          List.mem_cons_of_mem _ List.mem_cons_self
        obtain ⟨commitment, _, same⟩ :=
          List.mem_map.mp (permuted.mem_iff.mpr member)
        have indices := (Number.natCast_inj _ _).mp
          (Value.number.inj (Prod.mk.inj same).2)
        omega
      · rintro (nothing | ⟨commitment, pushesOnly⟩)
        · rw [carries] at nothing
          cases nothing
        · have same := pushesOnly.carried_eq
          rw [carries] at same
          cases same

end TransferEvent

/-! ## The records of a scan -/

/-- The records of the first event have its index. -/
theorem LeafIndexed.index_eq
    {index : Nat}
    {event : TransferEvent}
    {events : List TransferEvent}
    (leafIndexed : LeafIndexed index (event :: events))
    {commitment : Value}
    (member : commitment ∈ event.pushed) :
    (event.commitmentRecord commitment).index = .number index := by
  have carries := TransferEvent.mem_carried_of_mem_pushed member
  have hasIndex := leafIndexed.1 (List.ne_nil_of_mem carries)
  unfold TransferEvent.commitmentRecord
  rw [hasIndex]
  by_cases isFirst : index = 0
  · subst isFirst
    rfl
  · have truthy : (Value.number index).truthy = true := by
      rw [Value.truthy, Number.natCast_truthy, decide_eq_true_eq]
      exact isFirst
    rw [if_pos truthy]

/-- The records of all events have indices from the first one on. -/
theorem LeafIndexed.exists_index
    {index : Nat}
    {events : List TransferEvent}
    (leafIndexed : LeafIndexed index events)
    {record : CommitmentRecord}
    (member : record ∈ events.flatMap TransferEvent.commitmentRecords) :
    ∃ position : Nat, index ≤ position ∧ record.index = .number position := by
  induction events generalizing index with
  | nil => cases member
  | cons event events inductionHypothesis =>
      rw [List.flatMap_cons, List.mem_append] at member
      rcases member with ofFirst | ofRest
      · obtain ⟨commitment, isPushed, rfl⟩ := List.mem_map.mp ofFirst
        exact ⟨index, Nat.le_refl index, leafIndexed.index_eq isPushed⟩
      · obtain ⟨position, notBefore, hasIndex⟩ :=
          inductionHypothesis leafIndexed.2 ofRest
        exact ⟨position, by omega, hasIndex⟩

/-- The records of all events are their leaves exactly when each event is indexed
once. -/
theorem LeafIndexed.perm_iff
    {index : Nat}
    {events : List TransferEvent}
    (leafIndexed : LeafIndexed index events) :
    ((events.flatMap TransferEvent.commitmentRecords).map
        CommitmentRecord.leaf).Perm
        (leavesFrom index (events.flatMap TransferEvent.carried)) ↔
      ∀ event ∈ events, event.IndexedOnce := by
  induction events generalizing index with
  | nil => simp [leavesFrom]
  | cons event events inductionHypothesis =>
      let bound := index + event.carried.length
      rw [List.flatMap_cons, List.flatMap_cons, List.map_append, leavesFrom_append,
        @perm_append_iff_kinds _ (indexBelow bound),
        TransferEvent.perm_leavesFrom_iff fun _ => leafIndexed.index_eq,
        inductionHypothesis leafIndexed.2, List.forall_mem_cons]
      · intro leaf member
        obtain ⟨record, isRecord, rfl⟩ := List.mem_map.mp member
        obtain ⟨commitment, isPushed, rfl⟩ := List.mem_map.mp isRecord
        have carries := TransferEvent.mem_carried_of_mem_pushed isPushed
        have someCarried := List.length_pos_of_mem carries
        rw [indexBelow_of_number (leafIndexed.index_eq isPushed),
          decide_eq_true_eq]
        omega
      · intro leaf member
        obtain ⟨record, isRecord, rfl⟩ := List.mem_map.mp member
        obtain ⟨position, notBefore, hasIndex⟩ :=
          leafIndexed.2.exists_index isRecord
        rw [indexBelow_of_number hasIndex, decide_eq_false_iff_not]
        omega
      · intro leaf member
        obtain ⟨position, _, before, hasIndex⟩ :=
          exists_index_of_mem_leavesFrom member
        rw [indexBelow_of_number hasIndex, decide_eq_true_eq]
        exact before
      · intro leaf member
        obtain ⟨position, notBefore, _, hasIndex⟩ :=
          exists_index_of_mem_leavesFrom member
        rw [indexBelow_of_number hasIndex, decide_eq_false_iff_not]
        omega

/-- The indices of permuted leaves are distinct. -/
theorem ownIndices_iff
    {index : Nat}
    {events : List TransferEvent}
    {records : List CommitmentRecord} :
    OwnIndices index events records ↔
      (records.map CommitmentRecord.leaf).Perm
        (leavesFrom index (events.flatMap TransferEvent.carried)) := by
  constructor
  · exact OwnIndices.once
  · intro once
    refine ⟨once, ?_⟩
    have distinct := (once.map Prod.snd).nodup_iff.mpr
      (nodup_leavesFrom index (events.flatMap TransferEvent.carried))
    rw [List.map_map] at distinct
    exact distinct

/-- The records of a scan are those of the events in its range. -/
theorem commitments_of_scanChain
    (config : IndexerConfig)
    {indexer : Indexer}
    {held : Int -> List TransferEvent}
    (reliable : indexer.Reliable held)
    {startBlock endBlock : Int}
    {onProgress : Bool}
    {scan : ScanState}
    (resolves : scanChain (some config) indexer startBlock endBlock onProgress =
      .ok scan) :
    scan.found.commitments = (eventsIn held startBlock endBlock).flatMap
      TransferEvent.commitmentRecords := by
  rw [scanChain_eq, Except.ok.injEq] at resolves
  rw [← resolves, ScanState.afterBatches_found,
    flatMap_fetchedEvents config reliable, Found.foldl_processEvent]
  rfl

/-- A scan of a range resolves with each commitment under its own leaf index. -/
def GivesOwnIndices
    (indexerConfig : Option IndexerConfig)
    (indexer : Indexer)
    (startBlock endBlock : Int)
    (onProgress : Bool)
    (index : Nat)
    (events : List TransferEvent) : Prop :=
  ∃ scan,
    scanChain indexerConfig indexer startBlock endBlock onProgress = .ok scan ∧
      OwnIndices index events scan.found.commitments

/-- **Leaf indices.**  A scan gives every commitment its own leaf index exactly
when each event carries no commitment or one that is pushed once. -/
theorem givesOwnIndices_iff
    (config : IndexerConfig)
    {indexer : Indexer}
    {held : Int -> List TransferEvent}
    (reliable : indexer.Reliable held)
    (startBlock endBlock : Int)
    (onProgress : Bool)
    {index : Nat}
    (leafIndexed : LeafIndexed index (eventsIn held startBlock endBlock)) :
    GivesOwnIndices (some config) indexer startBlock endBlock onProgress index
        (eventsIn held startBlock endBlock) ↔
      ∀ event ∈ eventsIn held startBlock endBlock, event.IndexedOnce := by
  rw [← leafIndexed.perm_iff, ← ownIndices_iff]
  constructor
  · rintro ⟨scan, resolves, own⟩
    rw [commitments_of_scanChain config reliable resolves] at own
    exact own
  · intro own
    have resolves := scanChain_eq (some config) indexer startBlock endBlock onProgress
    refine ⟨_, resolves, ?_⟩
    rw [commitments_of_scanChain config reliable resolves]
    exact own

/-- Block 7 holds a transfer with two commitments, the leaves 4 and 5. -/
def transferInBlock7 (block : Int) : List TransferEvent :=
  if block = 7 then
    [{ type := .privateTransfer
       blockNumber := 7
       blockHash := "0x07"
       transactionHash := "0x02"
       timestamp := 1700000000000
       data := [("nullifiers", .array [.string "0xaa"]),
         ("commitments", .array [.string "0xc4", .string "0xc5"]),
         ("index", .number 4)] }]
  else []

theorem leafIndexed_transferInBlock7 :
    LeafIndexed 4 (eventsIn transferInBlock7 7 7) :=
  ⟨fun _ => rfl, trivial⟩

theorem givesOwnIndices_iff_transfer :
    GivesOwnIndices (some localIndexer) (.serving transferInBlock7) 7 7 false 4
        (eventsIn transferInBlock7 7 7) ↔
      ∀ event ∈ eventsIn transferInBlock7 7 7, event.IndexedOnce :=
  givesOwnIndices_iff localIndexer (Indexer.serving_reliable transferInBlock7) 7 7
    false leafIndexed_transferInBlock7

/-- Both commitments of the transfer are recorded under the index 4. -/
theorem scanChain_shares_index :
    (Indexer.serving transferInBlock7).Reliable transferInBlock7 ∧
      LeafIndexed 4 (eventsIn transferInBlock7 7 7) ∧
      ¬GivesOwnIndices (some localIndexer) (.serving transferInBlock7) 7 7 false 4
        (eventsIn transferInBlock7 7 7) := by
  have reliable := Indexer.serving_reliable transferInBlock7
  refine ⟨reliable, leafIndexed_transferInBlock7, ?_⟩
  rintro ⟨scan, resolves, own⟩
  have distinct := own.distinct
  rw [commitments_of_scanChain localIndexer reliable resolves] at distinct
  have indices : ((eventsIn transferInBlock7 7 7).flatMap
      TransferEvent.commitmentRecords).map CommitmentRecord.index =
        [.number 4, .number 4] := rfl
  rw [indices] at distinct
  exact (List.nodup_cons.mp distinct).1 List.mem_cons_self

end Client
end Privachain
