import Privachain.Foundation.Runs
import Mathlib.Data.List.Basic

/-!
# Event subscriptions of the chain API

A subscription listens to the events of the chain and calls back for those that
match.  The handle that ends it arrives in a promise, and `unsubscribe()` uses it
only when it is there.
-/

namespace Privachain
namespace Client

open Foundation

/-! ## Events and callbacks -/

/-- An event of the chain: one of the privacy pallet with its data, or another. -/
inductive ChainEvent
  | deposited (sender commitment amount : String)
  | privateTransfer (nullifiers commitments : List String)
  | withdrawn (nullifier recipient amount : String)
  | other
  deriving DecidableEq

/-- A record of `system.events`, with the index of its extrinsic if it has one. -/
structure EventRecord where
  event : ChainEvent
  applyExtrinsic : Option Nat
  deriving DecidableEq

/-- The argument of a callback. -/
inductive CallbackData
  | deposit (commitment amount sender : String) (blockNumber : Nat)
  | privateTransfer (nullifiers commitments : List String) (blockNumber : Nat)
  | withdraw (nullifier amount recipient : String) (blockNumber : Nat)
  deriving DecidableEq

/-- The events that a listener waits for. -/
inductive ListenerKind
  | deposits
  | privateTransfers
  | withdraws
  deriving DecidableEq

/-- What the callback gets for a record, if the record matches. -/
def ListenerKind.callbackData
    (kind : ListenerKind)
    (record : EventRecord) : Option CallbackData :=
  let blockNumber := record.applyExtrinsic.getD 0
  match kind, record.event with
  | .deposits, .deposited sender commitment amount =>
      some (.deposit commitment amount sender blockNumber)
  | .privateTransfers, .privateTransfer nullifiers commitments =>
      some (.privateTransfer nullifiers commitments blockNumber)
  | .withdraws, .withdrawn nullifier recipient amount =>
      some (.withdraw nullifier amount recipient blockNumber)
  | _, _ => none

/-! ## Subscriptions -/

/-- The chain delivers batches of events to a listener, record by record, the
handle of a listener arrives, or `unsubscribe()` is called, possibly by a callback
between two records. -/
inductive SubscriptionStep
  | handleArrives (listener : Nat)
  | batchStarts (listener : Nat)
  | record (listener : Nat) (record : EventRecord)
  | unsubscribe
  deriving DecidableEq

/-- A listener: whether its handle has arrived, whether the chain still starts
batches for it, whether the last batch that started reaches it, and the calls of
its callback. -/
structure Listener where
  kind : ListenerKind
  handle : Bool := false
  streaming : Bool := true
  delivering : Bool := true
  calls : List CallbackData := []
  deriving DecidableEq

namespace Listener

variable (listener : Listener)

/-- The callback of `system.events` on records of its batch. -/
def receive (records : List EventRecord) : Listener :=
  { listener with
    calls := listener.calls ++
      if listener.delivering then records.filterMap listener.kind.callbackData
      else [] }

/-- `if (unsubscribe) unsubscribe()`: no further batch starts. -/
def unsubscribe : Listener :=
  { listener with
    streaming := if listener.handle then false else listener.streaming }

end Listener

/-- The effect of a step on the listener at an index. -/
def Listener.step
    (index : Nat)
    (listener : Listener) : SubscriptionStep -> Listener
  | .handleArrives other =>
      { listener with handle := listener.handle || other = index }
  | .batchStarts other =>
      { listener with
        delivering :=
          if other = index then listener.streaming else listener.delivering }
  | .record other record =>
      listener.receive (if other = index then [record] else [])
  | .unsubscribe => listener.unsubscribe

/-- The listeners behind one `EventSubscription`. -/
abbrev EventSubscription := List Listener

/-- A subscription that has just been made to some kinds of events. -/
def subscribe (kinds : List ListenerKind) : EventSubscription :=
  kinds.map fun kind => { kind }

/-- `subscribeToDeposits(callback)` -/
def subscribeToDeposits : EventSubscription := subscribe [.deposits]

/-- `subscribeToPrivateTransfers(callback)` -/
def subscribeToPrivateTransfers : EventSubscription := subscribe [.privateTransfers]

/-- `subscribeToWithdraws(callback)` -/
def subscribeToWithdraws : EventSubscription := subscribe [.withdraws]

/-- `subscribeToAllEvents(callbacks)`, by the callbacks that are given. -/
def subscribeToAllEvents (onDeposit onPrivateTransfer onWithdraw : Bool) :
    EventSubscription :=
  (if onDeposit then subscribeToDeposits else []) ++
    (if onPrivateTransfer then subscribeToPrivateTransfers else []) ++
    if onWithdraw then subscribeToWithdraws else []

/-- The calls that subscribe. -/
inductive SubscribeCall
  | deposits
  | privateTransfers
  | withdraws
  | allEvents (onDeposit onPrivateTransfer onWithdraw : Bool)
  deriving DecidableEq

namespace SubscribeCall

/-- The subscription that a call returns. -/
def subscription : SubscribeCall -> EventSubscription
  | .deposits => subscribeToDeposits
  | .privateTransfers => subscribeToPrivateTransfers
  | .withdraws => subscribeToWithdraws
  | .allEvents onDeposit onPrivateTransfer onWithdraw =>
      subscribeToAllEvents onDeposit onPrivateTransfer onWithdraw

/-- The kinds of events that its callbacks are for. -/
def kinds : SubscribeCall -> List ListenerKind
  | .deposits => [.deposits]
  | .privateTransfers => [.privateTransfers]
  | .withdraws => [.withdraws]
  | .allEvents onDeposit onPrivateTransfer onWithdraw =>
      (if onDeposit then [.deposits] else []) ++
        (if onPrivateTransfer then [.privateTransfers] else []) ++
        if onWithdraw then [.withdraws] else []

theorem subscription_eq (call : SubscribeCall) :
    call.subscription = subscribe call.kinds := by
  cases call with
  | allEvents onDeposit onPrivateTransfer onWithdraw =>
      cases onDeposit <;> cases onPrivateTransfer <;> cases onWithdraw <;> rfl
  | _ => rfl

end SubscribeCall

namespace EventSubscription

/-- The effect of a step. -/
def step
    (subscription : EventSubscription)
    (next : SubscriptionStep) : EventSubscription :=
  subscription.mapIdx fun index listener => listener.step index next

/-- The calls of each callback. -/
def calls (subscription : EventSubscription) : List (List CallbackData) :=
  subscription.map Listener.calls

end EventSubscription

/-- The records for a listener, in order. -/
def recordsFor (index : Nat) (steps : List SubscriptionStep) : List EventRecord :=
  steps.filterMap fun
    | .record other record => if other = index then some record else none
    | _ => none

/-- No callback is called after an `unsubscribe()`, and before the first one each
is called once for each matching event, in order. -/
structure UnsubscribingIsFinal
    (call : SubscribeCall)
    (steps : List SubscriptionStep) : Prop where
  final : ∀ before after later,
    steps = before ++ .unsubscribe :: (after ++ later) ->
    EventSubscription.calls (run EventSubscription.step call.subscription
        (before ++ .unsubscribe :: after)) =
      EventSubscription.calls (run EventSubscription.step call.subscription before)
  exact : ∀ before later, steps = before ++ later -> .unsubscribe ∉ before ->
    EventSubscription.calls (run EventSubscription.step call.subscription before) =
      call.kinds.mapIdx fun index kind =>
        (recordsFor index before).filterMap kind.callbackData

/-- What matches after an `unsubscribe()` is in a batch that starts after one which
found the handle of the listener. -/
def HandledInTime
    (call : SubscribeCall)
    (steps : List SubscriptionStep) : Prop :=
  ∀ earlier index record later kind,
    steps = earlier ++ .record index record :: later ->
    .unsubscribe ∈ earlier -> call.kinds[index]? = some kind ->
    (kind.callbackData record).isSome = true ->
    ∃ before after, earlier = before ++ .unsubscribe :: after ∧
      .handleArrives index ∈ before ∧ .batchStarts index ∈ after

/-! ## One listener -/

/-- A listener after some steps. -/
abbrev Listener.after
    (kind : ListenerKind)
    (index : Nat)
    (steps : List SubscriptionStep) : Listener :=
  run (Listener.step index) { kind } steps

/-- The listeners of a subscription run side by side. -/
theorem EventSubscription.run_eq
    (subscription : EventSubscription)
    (steps : List SubscriptionStep) :
    run step subscription steps =
      subscription.mapIdx fun index listener =>
        run (Listener.step index) listener steps := by
  induction steps generalizing subscription with
  | nil => exact (List.ext_getElem? fun index => by simp).symm
  | cons first rest inductionHypothesis =>
      rw [run_cons, inductionHypothesis, step, List.mapIdx_mapIdx]
      rfl

theorem EventSubscription.calls_run
    (call : SubscribeCall)
    (steps : List SubscriptionStep) :
    calls (run step call.subscription steps) =
      call.kinds.mapIdx fun index kind =>
        (Listener.after kind index steps).calls := by
  rw [run_eq, calls, call.subscription_eq, subscribe]
  refine List.ext_getElem? fun index => ?_
  simp only [List.getElem?_map, List.getElem?_mapIdx, Option.map_map]
  rfl

theorem recordsFor_append
    (index : Nat)
    (earlier later : List SubscriptionStep) :
    recordsFor index (earlier ++ later) =
      recordsFor index earlier ++ recordsFor index later :=
  List.filterMap_append

theorem recordsFor_record (index other : Nat) (record : EventRecord) :
    recordsFor index [.record other record] =
      if other = index then [record] else [] := by
  unfold recordsFor
  by_cases isIndex : other = index
  · simp [isIndex]
  · simp [isIndex]

section Listening

variable
  {kind : ListenerKind}
  {index : Nat}

theorem Listener.after_concat (steps : List SubscriptionStep) (last : SubscriptionStep) :
    Listener.after kind index (steps ++ [last]) =
      (Listener.after kind index steps).step index last :=
  run_append _ _ _ _

theorem Listener.after_kind (steps : List SubscriptionStep) :
    (Listener.after kind index steps).kind = kind := by
  induction steps using List.reverseRecOn with
  | nil => rfl
  | append_singleton steps last inductionHypothesis =>
      rw [after_concat]
      cases last <;> exact inductionHypothesis

/-- The handle is there once it has arrived. -/
theorem Listener.after_handle (steps : List SubscriptionStep) :
    (Listener.after kind index steps).handle = true ↔
      .handleArrives index ∈ steps := by
  induction steps using List.reverseRecOn with
  | nil => simp [Listener.after]
  | append_singleton steps last inductionHypothesis =>
      rw [after_concat, List.mem_append, List.mem_singleton, ← inductionHypothesis]
      cases last with
      | handleArrives other =>
          change (_ || decide (other = index)) = true ↔ _
          rw [Bool.or_eq_true, decide_eq_true_eq, SubscriptionStep.handleArrives.injEq,
            @eq_comm _ index]
      | batchStarts other => exact (or_iff_left nofun).symm
      | record other record => exact (or_iff_left nofun).symm
      | unsubscribe => exact (or_iff_left nofun).symm

/-- The stream ends at an `unsubscribe()` after the arrival of the handle. -/
theorem Listener.after_streaming (steps : List SubscriptionStep) :
    (Listener.after kind index steps).streaming = false ↔
      ∃ before after, steps = before ++ .unsubscribe :: after ∧
        .handleArrives index ∈ before := by
  induction steps using List.reverseRecOn with
  | nil => simp [Listener.after]
  | append_singleton steps last inductionHypothesis =>
      rw [after_concat, exists_split_concat_iff, ← inductionHypothesis]
      cases last with
      | unsubscribe =>
          rw [← @after_handle kind index steps, eq_self_iff_true, true_and]
          change (if _ then false else _) = false ↔ _
          cases (Listener.after kind index steps).handle <;> simp
      | handleArrives other => exact (or_iff_left nofun).symm
      | batchStarts other => exact (or_iff_left nofun).symm
      | record other record => exact (or_iff_left nofun).symm

/-- A batch is not delivered when it starts after the end of the stream. -/
theorem Listener.after_delivering (steps : List SubscriptionStep) :
    (Listener.after kind index steps).delivering = false ↔
      ∃ before after, steps = before ++ .unsubscribe :: after ∧
        .handleArrives index ∈ before ∧ .batchStarts index ∈ after := by
  induction steps using List.reverseRecOn with
  | nil => simp [Listener.after]
  | append_singleton steps last inductionHypothesis =>
      rw [after_concat, exists_split_concat_iff]
      have noLater : ¬(last = .unsubscribe ∧ .handleArrives index ∈ steps ∧
          SubscriptionStep.batchStarts index ∈ []) := fun last => by cases last.2.2
      rw [or_iff_left noLater]
      by_cases starts : last = .batchStarts index
      · subst starts
        have streaming : ((Listener.after kind index steps).step index
            (.batchStarts index)).delivering =
              (Listener.after kind index steps).streaming := if_pos rfl
        rw [streaming, after_streaming]
        simp only [List.mem_append, List.mem_singleton, or_true, and_true]
      · have same : ((Listener.after kind index steps).step index last).delivering =
            (Listener.after kind index steps).delivering := by
          cases last with
          | batchStarts other => exact if_neg fun isIndex => starts (by rw [isIndex])
          | _ => rfl
        rw [same, inductionHypothesis]
        simp only [List.mem_append, List.mem_singleton, Ne.symm starts, or_false]

/-- **Step.**  While a batch is delivered the callback is called for its matching
records. -/
theorem Listener.after_calls_concat
    (steps : List SubscriptionStep)
    (last : SubscriptionStep) :
    (Listener.after kind index (steps ++ [last])).calls =
      (Listener.after kind index steps).calls ++
        if (Listener.after kind index steps).delivering then
          (recordsFor index [last]).filterMap kind.callbackData
        else [] := by
  rw [after_concat]
  cases last with
  | record other record =>
      change _ ++ (if _ then List.filterMap _ (if other = index then _ else _) else _) = _
      rw [after_kind, recordsFor_record]
  | _ =>
      change _ = _ ++ if _ then [] else []
      rw [ite_self, List.append_nil]
      rfl

/-- **Run.**  Until the first `unsubscribe()` the callback is called for each
match. -/
theorem Listener.after_calls
    {steps : List SubscriptionStep}
    (subscribed : .unsubscribe ∉ steps) :
    (Listener.after kind index steps).calls =
      (recordsFor index steps).filterMap kind.callbackData := by
  induction steps using List.reverseRecOn with
  | nil => rfl
  | append_singleton steps last inductionHypothesis =>
      rw [List.mem_append, not_or] at subscribed
      have delivering : (Listener.after kind index steps).delivering = true := by
        rw [← Bool.not_eq_false, after_delivering]
        rintro ⟨before, after, rfl, _⟩
        exact subscribed.1 (by simp)
      rw [after_calls_concat, delivering, if_pos rfl, inductionHypothesis subscribed.1,
        ← List.filterMap_append, recordsFor_append]

/-- Nothing is called after an `unsubscribe()` exactly when no match is
delivered. -/
theorem Listener.after_calls_concat_eq_iff
    (steps : List SubscriptionStep)
    (last : SubscriptionStep) :
    (Listener.after kind index (steps ++ [last])).calls =
        (Listener.after kind index steps).calls ↔
      ∀ record, last = .record index record ->
        (kind.callbackData record).isSome = true ->
        (Listener.after kind index steps).delivering = false := by
  rw [after_calls_concat, List.append_right_eq_self]
  cases (Listener.after kind index steps).delivering with
  | false => exact iff_of_true rfl fun _ _ _ => rfl
  | true =>
      rw [if_pos rfl, List.filterMap_eq_nil_iff]
      constructor
      · rintro noMatch record rfl matching
        rw [noMatch record (by simp [recordsFor_record])] at matching
        cases matching
      · intro noMatch record member
        cases last with
        | record other received =>
            rw [recordsFor_record] at member
            split at member
            next isIndex =>
              obtain rfl := List.mem_singleton.mp member
              have notSome := noMatch record (by rw [isIndex])
              cases matching : kind.callbackData record with
              | none => rfl
              | some data =>
                  rw [matching] at notSome
                  cases notSome rfl
            next => cases member
        | _ => cases member

end Listening

/-! ## When unsubscribing is final -/

theorem calls_run_eq_iff
    (call : SubscribeCall)
    (first second : List SubscriptionStep) :
    EventSubscription.calls (run EventSubscription.step call.subscription first) =
        EventSubscription.calls
          (run EventSubscription.step call.subscription second) ↔
      ∀ index kind, call.kinds[index]? = some kind ->
        (Listener.after kind index first).calls =
          (Listener.after kind index second).calls := by
  rw [EventSubscription.calls_run, EventSubscription.calls_run,
    List.mapIdx_eq_mapIdx_iff]
  constructor
  · intro same index kind isKind
    obtain ⟨isIndex, rfl⟩ := List.getElem?_eq_some_iff.mp isKind
    exact same index isIndex
  · intro same index isIndex
    exact same index _ (List.getElem?_eq_getElem isIndex)

/-- Matches that are handled in time do not reach a callback after an
`unsubscribe()`. -/
theorem HandledInTime.after_unsubscribe
    {call : SubscribeCall}
    {steps : List SubscriptionStep}
    (inTime : HandledInTime call steps)
    {index : Nat}
    {kind : ListenerKind}
    (isKind : call.kinds[index]? = some kind)
    (before after : List SubscriptionStep)
    {later : List SubscriptionStep}
    (split : steps = before ++ .unsubscribe :: (after ++ later)) :
    (Listener.after kind index (before ++ .unsubscribe :: after)).calls =
      (Listener.after kind index before).calls := by
  induction after using List.reverseRecOn generalizing later with
  | nil =>
      rw [Listener.after_calls_concat_eq_iff]
      rintro record isRecord
      cases isRecord
  | append_singleton after last inductionHypothesis =>
      have earlierSame := @inductionHypothesis (last :: later) (by simp [split])
      rw [← earlierSame, ← List.cons_append, ← List.append_assoc,
        Listener.after_calls_concat_eq_iff]
      rintro record rfl matching
      rw [Listener.after_delivering]
      exact inTime (before ++ .unsubscribe :: after) index record later kind
        (by simp [split]) (by simp) isKind matching

/-- **Unsubscribing.**  In a run of a subscription no callback is called after an
`unsubscribe()`, and each once for each matching event before, exactly when the
matches that come later are handled in time. -/
theorem unsubscribingIsFinal_iff
    (call : SubscribeCall)
    (steps : List SubscriptionStep) :
    UnsubscribingIsFinal call steps ↔ HandledInTime call steps := by
  constructor
  · rintro isFinal earlier index record later kind rfl unsubscribed isKind matching
    obtain ⟨before, after, rfl⟩ := List.append_of_mem unsubscribed
    have atRecord := (calls_run_eq_iff call _ _).mp
      (isFinal.final before (after ++ [.record index record]) later (by simp))
      index kind isKind
    have atEarlier := (calls_run_eq_iff call _ _).mp
      (isFinal.final before after (.record index record :: later) (by simp))
      index kind isKind
    rw [← Listener.after_delivering]
    refine (Listener.after_calls_concat_eq_iff _ _).mp ?_ record rfl matching
    rw [List.append_assoc, List.cons_append, atRecord, atEarlier]
  · intro inTime
    constructor
    · intro before after later split
      rw [calls_run_eq_iff]
      intro index kind isKind
      exact inTime.after_unsubscribe isKind before after split
    · rintro before later rfl subscribed
      rw [EventSubscription.calls_run]
      refine List.mapIdx_eq_mapIdx_iff.mpr fun index isIndex => ?_
      exact Listener.after_calls subscribed

/-- The handle arrives after the caller has unsubscribed. -/
def lateHandle : List SubscriptionStep :=
  [.unsubscribe, .handleArrives 0, .batchStarts 0,
    .record 0 { event := .deposited "5F" "0xc0" "10", applyExtrinsic := some 1 }]

/-- A deposit is reported after `unsubscribe()`. -/
theorem lateHandle_calls_back : ¬UnsubscribingIsFinal .deposits lateHandle := by
  intro isFinal
  have same := isFinal.final [] (lateHandle.drop 1) [] rfl
  revert same
  decide

end Client
end Privachain
