import Privachain.Client.TransferOutcome

/-!
# Concurrent transfers

Two invocations of `executePrivateTransfer` interleave at their awaits and at
the events of the chain client.  Each reads the wallet once, when it starts, and
marks its inputs when it is in a block; in between, the other one selects the
same first note.
-/

namespace Privachain
namespace Client

open Foundation
open Foundation.JavaScript

/-! ## Two invocations -/

/-- The two invocations. -/
inductive Invocation
  | first
  | second
  deriving DecidableEq

/-- The other invocation. -/
def Invocation.other : Invocation -> Invocation
  | .first => .second
  | .second => .first

/-- Where an invocation is suspended, with what it has computed. -/
inductive TransferPhase
  /-- Not started. -/
  | idle
  /-- Awaits the Merkle proofs. -/
  | awaitingPaths (notes : TransferNotes)
  /-- Awaits `generateProof`. -/
  | proving (notes : TransferNotes) (prepared : PreparedInput)
  /-- Awaits `verifyProof`. -/
  | verifying
      (notes : TransferNotes)
      (prepared : PreparedInput)
      (generated : GeneratedProof)
  /-- Submitted, with the events delivered so far. -/
  | submitted (pending : PendingTransfer) (events : List ClientEvent)
  /-- Threw an exception before the submission. -/
  | failed (exception : Exception)

/-- The phase after a segment that may throw. -/
def TransferPhase.ofResult {α : Type}
    (next : α -> TransferPhase) : Except Exception α -> TransferPhase
  | .ok value => next value
  | .error exception => .failed exception

/-- Run the next segment of an invocation, on the wallet of that moment. -/
def TransferPhase.resume
    (environment : TransferEnvironment)
    (params : TransferParams)
    (storage : LocalStorage) : TransferPhase -> TransferPhase
  | .idle => .ofResult .awaitingPaths (chooseNotes environment params storage)
  | .awaitingPaths notes =>
      .ofResult (.proving notes) (prepareTransfer environment notes
        (notes.selectedNotes.map fun note =>
          getMerkleProof note.commitment note.leafIndex))
  | .proving notes prepared =>
      .ofResult (.verifying notes prepared)
        (generateProof environment.proofSystem prepared.circuitInput)
  | .verifying notes prepared generated =>
      .ofResult (fun pending => .submitted pending [])
        (submitTransfer notes prepared generated
          (verifyProof environment.proofSystem generated.proof
            generated.publicSignals))
  | .submitted pending events => .submitted pending events
  | .failed exception => .failed exception

/-- One wallet and two invocations. -/
structure ConcurrentState where
  storage : LocalStorage
  phase : Invocation -> TransferPhase

/-- Both invocations before their start. -/
def ConcurrentState.initial (storage : LocalStorage) : ConcurrentState where
  storage := storage
  phase := fun _ => .idle

/-- A step of an interleaving. -/
inductive ConcurrentStep
  | resume (invocation : Invocation)
  | deliver (invocation : Invocation) (event : ClientEvent)

section Interleaving

variable (environment : Invocation -> TransferEnvironment)
variable (params : Invocation -> TransferParams)

/-- One step: a segment of an invocation, or an event for its callback. -/
def ConcurrentState.step
    (state : ConcurrentState) : ConcurrentStep -> ConcurrentState
  | .resume invocation =>
      { state with
        phase := Function.update state.phase invocation
          ((state.phase invocation).resume (environment invocation)
            (params invocation) state.storage) }
  | .deliver invocation event =>
      match state.phase invocation with
      | .submitted pending events =>
          { storage := (Subscription.deliver pending.notes.onInBlock
              (Subscription.start state.storage) event).storage
            phase := Function.update state.phase invocation
              (.submitted pending (events ++ [event])) }
      | _ => state

namespace TransferPhase

/-- The notes that an invocation has chosen and not given up. -/
def notes : TransferPhase -> Option TransferNotes
  | .idle => none
  | .awaitingPaths notes => some notes
  | .proving notes _ => some notes
  | .verifying notes _ _ => some notes
  | .submitted pending _ => some pending.notes
  | .failed _ => none

/-- The invocation has handled an in-block success, and marked its inputs. -/
def Marked : TransferPhase -> Prop
  | .submitted _ events => 0 < inBlockCount events
  | _ => False

/-- The invocation has chosen its inputs and not yet marked them. -/
def InFlight (phase : TransferPhase) : Prop :=
  phase.notes ≠ none ∧ ¬phase.Marked

end TransferPhase

/-- No transfer starts while the other one is in flight. -/
def StartsAlone (state : ConcurrentState) : ConcurrentStep -> Prop
  | .resume invocation => state.phase invocation = .idle ->
      ¬(state.phase invocation.other).InFlight
  | .deliver _ _ => True

/-! ## What one step does -/

/-- Everything that a step can do. -/
inductive ConcurrentState.Effect
    (state : ConcurrentState)
    (step : ConcurrentStep) : ConcurrentState -> Prop
  | unchanged : state.Effect step state
  /-- An invocation chooses its notes. -/
  | starts
      (invocation : Invocation)
      (notes : TransferNotes)
      (resumed : step = .resume invocation)
      (idle : state.phase invocation = .idle)
      (chosen : chooseNotes (environment invocation) (params invocation)
        state.storage = .ok notes) :
      state.Effect step { state with
        phase := Function.update state.phase invocation (.awaitingPaths notes) }
  /-- An invocation throws before its submission. -/
  | fails
      (invocation : Invocation)
      (exception : Exception)
      (unmarked : ¬(state.phase invocation).Marked) :
      state.Effect step { state with
        phase := Function.update state.phase invocation (.failed exception) }
  /-- An invocation goes on with its notes. -/
  | continues
      (invocation : Invocation)
      (phase : TransferPhase)
      (notes : TransferNotes)
      (before : (state.phase invocation).notes = some notes)
      (after : phase.notes = some notes)
      (sameMarking : phase.Marked ↔ (state.phase invocation).Marked) :
      state.Effect step { state with
        phase := Function.update state.phase invocation phase }
  /-- An invocation marks its inputs and adds its outputs. -/
  | marks
      (invocation : Invocation)
      (phase : TransferPhase)
      (notes : TransferNotes)
      (before : (state.phase invocation).notes = some notes)
      (after : phase.notes = some notes)
      (marked : phase.Marked) :
      state.Effect step
        { storage := notes.onInBlock state.storage
          phase := Function.update state.phase invocation phase }

/-- A segment after the choice of the notes goes on with them or throws. -/
theorem ConcurrentState.effect_ofResult
    {state : ConcurrentState}
    {step : ConcurrentStep}
    {invocation : Invocation}
    {notes : TransferNotes}
    {α : Type}
    {next : α -> TransferPhase}
    {result : Except Exception α}
    (before : (state.phase invocation).notes = some notes)
    (unmarked : ¬(state.phase invocation).Marked)
    (keeps : ∀ value, result = .ok value ->
      (next value).notes = some notes ∧ ¬(next value).Marked) :
    state.Effect environment params step { state with
      phase := Function.update state.phase invocation
        (.ofResult next result) } := by
  cases result with
  | error exception => exact .fails invocation exception unmarked
  | ok value =>
      obtain ⟨after, stillUnmarked⟩ := keeps value rfl
      exact .continues invocation (next value) notes before after
        (iff_of_false stillUnmarked unmarked)

/-- Every step has one of the effects. -/
theorem ConcurrentState.step_effect
    (state : ConcurrentState)
    (step : ConcurrentStep) :
    state.Effect environment params step
      (state.step environment params step) := by
  cases step with
  | resume invocation =>
      rw [ConcurrentState.step]
      cases phase : state.phase invocation with
      | idle =>
          rw [TransferPhase.resume]
          cases chosen : chooseNotes (environment invocation)
              (params invocation) state.storage with
          | ok notes => exact .starts invocation notes rfl phase chosen
          | error exception =>
              exact .fails invocation exception (by rw [phase]; exact id)
      | awaitingPaths notes =>
          rw [TransferPhase.resume]
          apply ConcurrentState.effect_ofResult
          · rw [phase]
            rfl
          · rw [phase]
            exact id
          · intro prepared _
            exact ⟨rfl, id⟩
      | proving notes prepared =>
          rw [TransferPhase.resume]
          apply ConcurrentState.effect_ofResult
          · rw [phase]
            rfl
          · rw [phase]
            exact id
          · intro generated _
            exact ⟨rfl, id⟩
      | verifying notes prepared generated =>
          rw [TransferPhase.resume]
          apply ConcurrentState.effect_ofResult
          · rw [phase]
            rfl
          · rw [phase]
            exact id
          · intro pending submits
            obtain ⟨_, rfl⟩ := (submitTransfer_eq_ok_iff _ _ _ _ _).mp submits
            exact ⟨rfl, Nat.not_lt_zero 0⟩
      | submitted pending events =>
          rw [TransferPhase.resume, ← phase, Function.update_eq_self]
          exact .unchanged
      | failed exception =>
          rw [TransferPhase.resume, ← phase, Function.update_eq_self]
          exact .unchanged
  | deliver invocation event =>
      rw [ConcurrentState.step]
      cases phase : state.phase invocation with
      | submitted pending events =>
          simp only [Subscription.deliver_storage]
          cases success : event.inBlockSuccess with
          | true =>
              refine .marks invocation _ pending.notes (by rw [phase]; rfl) rfl ?_
              simp [TransferPhase.Marked, inBlockCount, List.countP_append,
                success]
          | false =>
              refine .continues invocation _ pending.notes (by rw [phase]; rfl)
                rfl ?_
              rw [phase]
              simp [TransferPhase.Marked, inBlockCount, List.countP_append,
                success]
      | _ => exact .unchanged

/-- An invocation that runs undisturbed submits what `executePrivateTransfer`
does. -/
theorem run_invocation
    {state : ConcurrentState}
    (invocation : Invocation)
    (idle : state.phase invocation = .idle)
    {pending : PendingTransfer}
    (submits : executePrivateTransfer (environment invocation)
      (params invocation) state.storage = .ok pending) :
    run (ConcurrentState.step environment params) state
        (List.replicate 4 (.resume invocation)) =
      { state with
        phase := Function.update state.phase invocation
          (.submitted pending []) } := by
  obtain ⟨notes, prepared, generated, chosen, prepares, proves, submitted⟩ :=
    (executePrivateTransfer_eq_ok_iff _ _ _ _).mp submits
  simp only [List.replicate, run_cons, run_nil, ConcurrentState.step, idle,
    Function.update_self, Function.update_idem, TransferPhase.resume,
    TransferPhase.ofResult, chosen, prepares, proves, submitted]

/-! ## Spendable notes and inputs -/

/-- A note that is spendable after a settlement was spendable before, and is no
input. -/
theorem TransferNotes.spendable_of_settle
    {notes : TransferNotes}
    {before : List Note}
    {note : Note}
    (member : note ∈ notes.settle before)
    (spendable : note.Spendable) :
    note ∈ before ∧ note.commitment ∉ notes.inputCommitments := by
  rcases List.mem_append.mp member with isKept | isAdded
  · obtain ⟨original, isOriginal, rfl⟩ := List.mem_map.mp isKept
    by_cases isInput : original.commitment ∈ notes.inputCommitments
    · -- an input is spent, whether it was marked now or earlier
      have isSpent : (markSpent notes.inputCommitments original).spent = true := by
        rw [markSpent]
        cases spent : original.spent <;> simp [isInput, spent]
      rw [Note.Spendable, isSpent] at spendable
      exact absurd spendable.1 (by decide)
    · have unchanged : markSpent notes.inputCommitments original = original := by
        simp [markSpent, isInput]
      rw [unchanged]
      exact ⟨isOriginal, isInput⟩
  · obtain ⟨output, _, rfl⟩ := List.mem_map.mp isAdded
    exact absurd rfl spendable.2.1

/-- The chosen inputs are spendable, and the first spendable note is one of
them. -/
theorem chooseNotes_takes_first
    {environment : TransferEnvironment}
    {params : TransferParams}
    {storage : LocalStorage}
    {notes : TransferNotes}
    (chosen : chooseNotes environment params storage = .ok notes) :
    notes.selectedNotes ⊆ getSpendableNotes storage ∧
      ∃ first ∈ notes.selectedNotes,
        (getSpendableNotes storage).head? = some first := by
  obtain ⟨selection, _, selects, _, selected, _⟩ :=
    (chooseNotes_eq_ok_iff _ _ _ _).mp chosen
  rw [selected]
  exact selectNotesForTransfer_takes_first (by decide) selects

/-! ## Runs in which every transfer starts alone -/

/-- No spendable note is an input of the transfer. -/
def Exhausted (storage : LocalStorage) (notes : TransferNotes) : Prop :=
  ∀ note ∈ loadNotes storage, note.Spendable ->
    note.commitment ∉ notes.inputCommitments

/-- Marked inputs are not spendable any more, and the inputs chosen by the two
invocations are disjoint. -/
structure ConcurrentState.Separate (state : ConcurrentState) : Prop where
  exhausted : ∀ invocation notes,
    (state.phase invocation).notes = some notes ->
    (state.phase invocation).Marked -> Exhausted state.storage notes
  disjoint : ∀ invocation notes others,
    (state.phase invocation).notes = some notes ->
    (state.phase invocation.other).notes = some others ->
    notes.inputCommitments.Disjoint others.inputCommitments

theorem Invocation.other_ne (invocation : Invocation) :
    invocation.other ≠ invocation := by
  cases invocation <;> decide

theorem Invocation.other_other (invocation : Invocation) :
    invocation.other.other = invocation := by
  cases invocation <;> rfl

theorem Invocation.eq_or_eq_other (invocation another : Invocation) :
    another = invocation ∨ another = invocation.other := by
  cases invocation <;> cases another <;> decide

/-- Settling makes the inputs of the transfer unspendable, and no other note
spendable. -/
theorem Exhausted.onInBlock
    {storage : LocalStorage}
    {notes : TransferNotes}
    (exhausted : Exhausted storage notes)
    (settled : TransferNotes) :
    Exhausted (settled.onInBlock storage) notes := by
  intro note member spendable
  rw [TransferNotes.loadNotes_onInBlock] at member
  exact exhausted note (TransferNotes.spendable_of_settle member spendable).1
    spendable

theorem exhausted_onInBlock (storage : LocalStorage) (notes : TransferNotes) :
    Exhausted (notes.onInBlock storage) notes := by
  intro note member spendable
  rw [TransferNotes.loadNotes_onInBlock] at member
  exact (TransferNotes.spendable_of_settle member spendable).2

/-- Inputs chosen from an exhausted wallet are none of the exhausted ones. -/
theorem Exhausted.disjoint_of_chooseNotes
    {environment : TransferEnvironment}
    {params : TransferParams}
    {storage : LocalStorage}
    {notes others : TransferNotes}
    (exhausted : Exhausted storage others)
    (chosen : chooseNotes environment params storage = .ok notes) :
    notes.inputCommitments.Disjoint others.inputCommitments := by
  intro commitment isInput isOther
  obtain ⟨note, isSelected, rfl⟩ := List.mem_map.mp isInput
  obtain ⟨stored, spendable⟩ := (mem_getSpendableNotes storage note).mp
    ((chooseNotes_takes_first chosen).1 isSelected)
  exact exhausted note stored spendable isOther

/-- Replacing one phase keeps the inputs separate when the new phase is
separate from the other one, and every marked phase is exhausted. -/
theorem separate_update
    {state : ConcurrentState}
    {storage : LocalStorage}
    {invocation : Invocation}
    {next : TransferPhase}
    (exhaustedHere : ∀ notes, next.notes = some notes -> next.Marked ->
      Exhausted storage notes)
    (exhaustedThere : ∀ others,
      (state.phase invocation.other).notes = some others ->
      (state.phase invocation.other).Marked -> Exhausted storage others)
    (disjoint : ∀ notes others, next.notes = some notes ->
      (state.phase invocation.other).notes = some others ->
      notes.inputCommitments.Disjoint others.inputCommitments) :
    ConcurrentState.Separate
      ⟨storage, Function.update state.phase invocation next⟩ := by
  have here : Function.update state.phase invocation next invocation = next :=
    Function.update_self ..
  have there : Function.update state.phase invocation next invocation.other =
      state.phase invocation.other :=
    Function.update_of_ne invocation.other_ne ..
  constructor
  · intro another notes
    rcases invocation.eq_or_eq_other another with rfl | rfl
    · simp only [here]
      exact exhaustedHere notes
    · simp only [there]
      exact exhaustedThere notes
  · intro another notes others
    rcases invocation.eq_or_eq_other another with rfl | rfl
    · simp only [here, there]
      exact disjoint notes others
    · simp only [Invocation.other_other, here, there]
      intro notesThere othersHere
      exact (disjoint others notes othersHere notesThere).symm

/-- A step that starts no transfer beside one in flight keeps the inputs
separate. -/
theorem ConcurrentState.Separate.step
    {state : ConcurrentState}
    {step : ConcurrentStep}
    (alone : StartsAlone state step)
    (separate : state.Separate) :
    (state.step environment params step).Separate := by
  have effect := state.step_effect environment params step
  generalize state.step environment params step = after at effect ⊢
  cases effect with
  | unchanged => exact separate
  | starts invocation notes resumed idle chosen =>
      subst resumed
      apply separate_update
      · rintro _ _ ⟨⟩
      · exact separate.exhausted invocation.other
      · rintro _ others ⟨⟩ othersThere
        -- the other transfer is not in flight, so its inputs are marked
        have marked : (state.phase invocation.other).Marked := by
          by_contra unmarked
          refine alone idle ⟨?_, unmarked⟩
          rw [othersThere]
          exact Option.some_ne_none others
        exact (separate.exhausted _ _ othersThere marked).disjoint_of_chooseNotes
          chosen
  | fails invocation exception _ =>
      apply separate_update
      · rintro _ _ ⟨⟩
      · exact separate.exhausted invocation.other
      · rintro _ _ ⟨⟩
  | continues invocation phase notes before after sameMarking =>
      apply separate_update
      · intro same sameNotes marked
        rw [after, ← before] at sameNotes
        exact separate.exhausted invocation same sameNotes
          (sameMarking.mp marked)
      · exact separate.exhausted invocation.other
      · intro same others sameNotes othersThere
        rw [after, ← before] at sameNotes
        exact separate.disjoint invocation same others sameNotes othersThere
  | marks invocation phase notes before after marked =>
      apply separate_update
      · intro same sameNotes _
        obtain rfl : notes = same := Option.some.inj (after.symm.trans sameNotes)
        exact exhausted_onInBlock state.storage notes
      · intro others othersThere alreadyMarked
        exact (separate.exhausted _ others othersThere alreadyMarked).onInBlock
          notes
      · intro same others sameNotes othersThere
        rw [after, ← before] at sameNotes
        exact separate.disjoint invocation same others sameNotes othersThere

/-! ## Runs in which a transfer starts beside another -/

/-- While an invocation is idle and the other one has not marked its inputs,
the first spendable note is one of these. -/
def ConcurrentState.HoldsFirst (state : ConcurrentState) : Prop :=
  ∀ invocation notes,
    (state.phase invocation).notes = some notes ->
    ¬(state.phase invocation).Marked ->
    state.phase invocation.other = .idle ->
    ∃ first ∈ notes.selectedNotes,
      (getSpendableNotes state.storage).head? = some first

/-- Replacing one phase by one that is not idle. -/
theorem holdsFirst_update
    {state : ConcurrentState}
    {storage : LocalStorage}
    {invocation : Invocation}
    {next : TransferPhase}
    (started : next ≠ .idle)
    (here : ∀ notes, next.notes = some notes -> ¬next.Marked ->
      state.phase invocation.other = .idle ->
      ∃ first ∈ notes.selectedNotes,
        (getSpendableNotes storage).head? = some first) :
    ConcurrentState.HoldsFirst
      ⟨storage, Function.update state.phase invocation next⟩ := by
  intro another notes
  rcases invocation.eq_or_eq_other another with rfl | rfl
  · simp only [Function.update_self, Function.update_of_ne (Invocation.other_ne _)]
    exact here notes
  · simp only [Invocation.other_other, Function.update_self]
    intro _ _ idle
    exact absurd idle started

/-- A phase with notes is not idle. -/
theorem TransferPhase.ne_idle_of_notes
    {phase : TransferPhase}
    {notes : TransferNotes}
    (hasNotes : phase.notes = some notes) :
    phase ≠ .idle := by
  rintro rfl
  cases hasNotes

/-- Every step keeps the first spendable note among the unmarked inputs. -/
theorem ConcurrentState.HoldsFirst.step
    {state : ConcurrentState}
    (step : ConcurrentStep)
    (holdsFirst : state.HoldsFirst) :
    (state.step environment params step).HoldsFirst := by
  have effect := state.step_effect environment params step
  generalize state.step environment params step = after at effect ⊢
  cases effect with
  | unchanged => exact holdsFirst
  | starts invocation notes _ idle chosen =>
      refine holdsFirst_update (TransferPhase.ne_idle_of_notes rfl) ?_
      rintro _ ⟨⟩ _ _
      exact (chooseNotes_takes_first chosen).2
  | fails invocation exception _ =>
      refine holdsFirst_update (by simp) ?_
      rintro _ ⟨⟩
  | continues invocation phase notes before after sameMarking =>
      refine holdsFirst_update (TransferPhase.ne_idle_of_notes after) ?_
      intro same sameNotes unmarked otherIdle
      rw [after, ← before] at sameNotes
      rw [sameMarking] at unmarked
      exact holdsFirst _ same sameNotes unmarked otherIdle
  | marks invocation phase notes before after marked =>
      refine holdsFirst_update (TransferPhase.ne_idle_of_notes after) ?_
      intro _ _ unmarked
      exact absurd marked unmarked

/-- One of the invocations failed, or their inputs share a commitment. -/
def ConcurrentState.Spoiled (state : ConcurrentState) : Prop :=
  ∃ invocation,
    (∃ exception, state.phase invocation = .failed exception) ∨
    ∃ notes others,
      (state.phase invocation).notes = some notes ∧
      (state.phase invocation.other).notes = some others ∧
      ¬notes.inputCommitments.Disjoint others.inputCommitments

/-- A failed invocation stays failed when a phase other than a failed one is
replaced. -/
theorem spoiled_of_failed
    {state : ConcurrentState}
    {storage : LocalStorage}
    {invocation another : Invocation}
    {next : TransferPhase}
    {exception : Exception}
    (failed : state.phase another = .failed exception)
    (notFailed : ∀ thrown, state.phase invocation ≠ .failed thrown) :
    ConcurrentState.Spoiled
      ⟨storage, Function.update state.phase invocation next⟩ := by
  have different : another ≠ invocation := by
    rintro rfl
    exact notFailed exception failed
  refine ⟨another, .inl ⟨exception, ?_⟩⟩
  simpa only [Function.update_of_ne different] using failed

/-- A started invocation does not get back to disjoint inputs by going on. -/
theorem spoiled_update
    {state : ConcurrentState}
    {storage : LocalStorage}
    {invocation : Invocation}
    {next : TransferPhase}
    {notes : TransferNotes}
    (before : (state.phase invocation).notes = some notes)
    (after : next.notes = some notes)
    (spoiled : state.Spoiled) :
    ConcurrentState.Spoiled
      ⟨storage, Function.update state.phase invocation next⟩ := by
  have sameNotes : ∀ another,
      (Function.update state.phase invocation next another).notes =
        (state.phase another).notes := by
    intro another
    by_cases same : another = invocation
    · rw [same, Function.update_self, before, after]
    · rw [Function.update_of_ne same]
  obtain ⟨another, ⟨exception, failed⟩ | ⟨chosen, others, here, there, overlap⟩⟩
    := spoiled
  · apply spoiled_of_failed failed
    intro thrown failedHere
    rw [failedHere] at before
    cases before
  · refine ⟨another, .inr ⟨chosen, others, ?_, ?_, overlap⟩⟩
    · simpa only [sameNotes] using here
    · simpa only [sameNotes] using there

/-- Every step keeps a spoiled state spoiled. -/
theorem ConcurrentState.Spoiled.step
    {state : ConcurrentState}
    (step : ConcurrentStep)
    (spoiled : state.Spoiled) :
    (state.step environment params step).Spoiled := by
  have effect := state.step_effect environment params step
  generalize state.step environment params step = after at effect ⊢
  cases effect with
  | unchanged => exact spoiled
  | starts invocation notes _ idle _ =>
      obtain ⟨another, ⟨exception, failed⟩ | ⟨_, _, here, there, _⟩⟩ := spoiled
      · apply spoiled_of_failed failed
        intro thrown failedHere
        cases idle.symm.trans failedHere
      · rcases invocation.eq_or_eq_other another with rfl | rfl
        · exact absurd idle (TransferPhase.ne_idle_of_notes here)
        · rw [Invocation.other_other] at there
          exact absurd idle (TransferPhase.ne_idle_of_notes there)
  | fails invocation exception _ =>
      exact ⟨invocation, .inl ⟨exception, Function.update_self ..⟩⟩
  | continues invocation phase notes before after _ =>
      exact spoiled_update before after spoiled
  | marks invocation phase notes before after _ =>
      exact spoiled_update before after spoiled

/-- A transfer that starts beside one in flight fails or selects the same first
note. -/
theorem ConcurrentState.HoldsFirst.spoiled_of_start
    {state : ConcurrentState}
    {step : ConcurrentStep}
    (holdsFirst : state.HoldsFirst)
    (beside : ¬StartsAlone state step) :
    (state.step environment params step).Spoiled := by
  cases step with
  | deliver invocation event => exact absurd trivial beside
  | resume invocation =>
      simp only [StartsAlone, Classical.not_imp, not_not] at beside
      obtain ⟨idle, hasNotes, unmarked⟩ := beside
      obtain ⟨others, othersThere⟩ := Option.ne_none_iff_exists'.mp hasNotes
      obtain ⟨first, isOther, atHead⟩ := holdsFirst invocation.other others
        othersThere unmarked (by rwa [Invocation.other_other])
      refine ⟨invocation, ?_⟩
      simp only [ConcurrentState.step, idle, TransferPhase.resume,
        Function.update_self, Function.update_of_ne invocation.other_ne]
      cases chosen : chooseNotes (environment invocation) (params invocation)
          state.storage with
      | error exception => exact .inl ⟨exception, rfl⟩
      | ok notes =>
          obtain ⟨_, same, isInput, alsoAtHead⟩ := chooseNotes_takes_first chosen
          obtain rfl : first = same :=
            Option.some.inj (atHead.symm.trans alsoAtHead)
          refine .inr ⟨notes, others, rfl, othersThere, ?_⟩
          intro disjoint
          exact disjoint (List.mem_map_of_mem isInput)
            (List.mem_map_of_mem isOther)

/-! ## Disjoint inputs -/

/-- After a run in which every transfer starts alone, the inputs are
separate. -/
theorem separate_of_startsAlone
    {storage : LocalStorage}
    {steps : List ConcurrentStep}
    (alone : Allowed (ConcurrentState.step environment params) StartsAlone
      (ConcurrentState.initial storage) steps) :
    (run (ConcurrentState.step environment params)
      (ConcurrentState.initial storage) steps).Separate := by
  apply run_invariant ConcurrentState.Separate
    (fun _ _ next separate => separate.step environment params next) _ alone
  constructor
  · rintro _ _ ⟨⟩
  · rintro _ _ _ ⟨⟩

/-- After a run in which a transfer starts beside one in flight, the state is
spoiled. -/
theorem spoiled_of_not_startsAlone
    {storage : LocalStorage}
    {steps : List ConcurrentStep}
    (beside : ¬Allowed (ConcurrentState.step environment params) StartsAlone
      (ConcurrentState.initial storage) steps) :
    (run (ConcurrentState.step environment params)
      (ConcurrentState.initial storage) steps).Spoiled := by
  rw [allowed_iff_forall_split] at beside
  push Not at beside
  obtain ⟨earlier, next, later, rfl, notAlone⟩ := beside
  have holdsFirst : (run (ConcurrentState.step environment params)
      (ConcurrentState.initial storage) earlier).HoldsFirst := by
    apply run_invariant_of_preserved ConcurrentState.HoldsFirst
    · intro _ next holdsFirst
      exact holdsFirst.step environment params next
    · rintro _ _ ⟨⟩
  rw [run_append, run_cons]
  apply run_invariant_of_preserved ConcurrentState.Spoiled
  · intro _ next spoiled
    exact spoiled.step environment params next
  · exact holdsFirst.spoiled_of_start environment params notAlone

/-- Two submitted transfers of a spoiled state share an input. -/
theorem ConcurrentState.Spoiled.not_disjoint
    {state : ConcurrentState}
    (spoiled : state.Spoiled)
    {first second : PendingTransfer}
    {firstEvents secondEvents : List ClientEvent}
    (firstSubmitted : state.phase .first = .submitted first firstEvents)
    (secondSubmitted : state.phase .second = .submitted second secondEvents) :
    ¬first.notes.inputCommitments.Disjoint second.notes.inputCommitments := by
  obtain ⟨invocation, ⟨exception, failed⟩ |
    ⟨notes, others, here, there, overlap⟩⟩ := spoiled
  · cases invocation with
    | first => cases firstSubmitted.symm.trans failed
    | second => cases secondSubmitted.symm.trans failed
  · cases invocation with
    | first =>
        rw [firstSubmitted] at here
        rw [Invocation.other, secondSubmitted] at there
        cases here
        cases there
        exact overlap
    | second =>
        rw [secondSubmitted] at here
        rw [Invocation.other, firstSubmitted] at there
        cases here
        cases there
        exact fun disjoint => overlap disjoint.symm

/-- **Two submitted transfers have disjoint inputs exactly when the later one
started after the earlier one had marked its inputs.** -/
theorem concurrentTransfers_disjoint_iff
    (storage : LocalStorage)
    (steps : List ConcurrentStep)
    {first second : PendingTransfer}
    {firstEvents secondEvents : List ClientEvent}
    (firstSubmitted : (run (ConcurrentState.step environment params)
      (ConcurrentState.initial storage) steps).phase .first =
        .submitted first firstEvents)
    (secondSubmitted : (run (ConcurrentState.step environment params)
      (ConcurrentState.initial storage) steps).phase .second =
        .submitted second secondEvents) :
    first.notes.inputCommitments.Disjoint second.notes.inputCommitments ↔
      Allowed (ConcurrentState.step environment params) StartsAlone
        (ConcurrentState.initial storage) steps := by
  constructor
  · intro disjoint
    by_contra beside
    exact (spoiled_of_not_startsAlone environment params beside).not_disjoint
      firstSubmitted secondSubmitted disjoint
  · intro alone
    apply (separate_of_startsAlone environment params alone).disjoint .first
    · rw [firstSubmitted]
      rfl
    · rw [Invocation.other, secondSubmitted]
      rfl

end Interleaving

/-! ## Two sample transfers -/

/-- Two payments from the sample wallet, the second one started while the first
one awaits its inclusion. -/
def besideSteps : List ConcurrentStep :=
  List.replicate 4 (.resume .first) ++ List.replicate 4 (.resume .second)

/-- Both payments are submitted, with the same inputs. -/
theorem besideSteps_submits :
    ∃ pending,
      executePrivateTransfer sampleEnvironment sampleParams sampleStorage =
        .ok pending ∧
      (run (ConcurrentState.step (fun _ => sampleEnvironment)
          fun _ => sampleParams)
        (ConcurrentState.initial sampleStorage) besideSteps).phase .first =
          .submitted pending [] ∧
      (run (ConcurrentState.step (fun _ => sampleEnvironment)
          fun _ => sampleParams)
        (ConcurrentState.initial sampleStorage) besideSteps).phase .second =
          .submitted pending [] := by
  obtain ⟨pending, submits⟩ := sampleStorage_submits
  refine ⟨pending, submits, ?_⟩
  rw [besideSteps, run_append, run_invocation _ _ .first rfl submits,
    run_invocation _ _ .second rfl submits]
  exact ⟨rfl, rfl⟩

/-- The sample payments, and when their inputs are disjoint. -/
theorem besideSteps_disjoint_iff :
    ∃ first second,
      (run (ConcurrentState.step (fun _ => sampleEnvironment)
          fun _ => sampleParams)
        (ConcurrentState.initial sampleStorage) besideSteps).phase .first =
          .submitted first [] ∧
      (run (ConcurrentState.step (fun _ => sampleEnvironment)
          fun _ => sampleParams)
        (ConcurrentState.initial sampleStorage) besideSteps).phase .second =
          .submitted second [] ∧
      (first.notes.inputCommitments.Disjoint second.notes.inputCommitments ↔
        Allowed (ConcurrentState.step (fun _ => sampleEnvironment)
            fun _ => sampleParams) StartsAlone
          (ConcurrentState.initial sampleStorage) besideSteps) := by
  obtain ⟨pending, _, firstSubmitted, secondSubmitted⟩ := besideSteps_submits
  exact ⟨pending, pending, firstSubmitted, secondSubmitted,
    concurrentTransfers_disjoint_iff _ _ _ _ firstSubmitted secondSubmitted⟩

/-- Two concurrent transfers spend the same note. -/
theorem concurrentTransfers_share_input :
    ¬∀ (environment : Invocation -> TransferEnvironment)
        (params : Invocation -> TransferParams) (storage : LocalStorage)
        (steps : List ConcurrentStep) (first second : PendingTransfer)
        (firstEvents secondEvents : List ClientEvent),
      (run (ConcurrentState.step environment params)
        (ConcurrentState.initial storage) steps).phase .first =
          .submitted first firstEvents ->
      (run (ConcurrentState.step environment params)
        (ConcurrentState.initial storage) steps).phase .second =
          .submitted second secondEvents ->
      first.notes.inputCommitments.Disjoint second.notes.inputCommitments := by
  intro disjoint
  obtain ⟨pending, submits, firstSubmitted, secondSubmitted⟩ :=
    besideSteps_submits
  obtain ⟨_, first, isInput, _⟩ := chooseNotes_takes_first
    (chooseNotes_of_executePrivateTransfer submits)
  exact disjoint _ _ _ _ _ _ _ _ firstSubmitted secondSubmitted
    (List.mem_map_of_mem isInput) (List.mem_map_of_mem isInput)

end Client
end Privachain
