import Privachain.Foundation.JavaScript
import Privachain.Foundation.Runs

/-!
# Connecting a component

The effect of `useChainConnection` depends on a callback that is recreated
whenever `connecting` has changed.  The cleanup of the effect disconnects, and the
effect connects again.
-/

namespace Privachain
namespace Client

open Foundation
open Foundation.JavaScript

/-! ## The hook -/

/-- A call of the chain module. -/
inductive ChainCall
  | connect
  | disconnect
  deriving DecidableEq

/-- The state and the references of `useChainConnection`, the flag that the
rendered callback captured, the connection of the chain module, the connects that
have not settled and the calls so far. -/
structure ConnectionHook where
  connected : Bool := false
  connecting : Bool := false
  error : Option Exception := none
  blockNumber : Nat := 0
  mounted : Bool := true
  healthCheckInterval : Bool := false
  present : Bool := true
  captured : Bool := false
  chainConnected : Bool := false
  pending : Nat := 0
  calls : List ChainCall := []
  deriving DecidableEq

/-- A render, a connect that settles, a health check with the block number of the
node, or the removal of the component. -/
inductive ConnectionStep
  | rerender
  | connectSucceeds
  | connectFails (reason : Exception)
  | healthCheck (blockNumber : Nat)
  | unmount
  deriving DecidableEq

namespace ConnectionHook

variable (hook : ConnectionHook)

/-- `connectToChain()` up to its await, as the rendered callback. -/
def connectToChain : ConnectionHook :=
  if hook.captured then hook
  else
    { hook with
      connecting := true
      error := none
      pending := hook.pending + 1
      calls := hook.calls ++ [.connect] }

/-- The effect. -/
def effect : ConnectionHook := { hook with mounted := true }.connectToChain

/-- The cleanup of the effect. -/
def cleanup : ConnectionHook :=
  { hook with
    mounted := false
    healthCheckInterval := false
    chainConnected := false
    calls := hook.calls ++ [.disconnect] }

/-- The component is rendered for the first time. -/
def mount : ConnectionHook := effect {}

/-- A render: the callback changes, and with it the effect, when `connecting`
has. -/
def rerender : ConnectionHook :=
  if hook.present && hook.captured != hook.connecting then
    { hook.cleanup with captured := hook.connecting }.effect
  else hook

/-- A pending `connect(config)` resolves. -/
def connectSucceeds : ConnectionHook :=
  if hook.pending = 0 then hook
  else
    let settled :=
      { hook with pending := hook.pending - 1, chainConnected := true }
    if hook.mounted then
      { settled with
        connected := true
        connecting := false
        healthCheckInterval := true }
    else settled

/-- A pending `connect(config)` rejects. -/
def connectFails (reason : Exception) : ConnectionHook :=
  if hook.pending = 0 then hook
  else
    let settled := { hook with pending := hook.pending - 1 }
    if hook.mounted then
      { settled with
        error := some reason
        connected := false
        connecting := false }
    else settled

/-- The function of the interval. -/
def healthCheck (blockNumber : Nat) : ConnectionHook :=
  if hook.healthCheckInterval && hook.mounted then
    { hook with connected := hook.chainConnected, blockNumber := blockNumber }
  else hook

/-- The component is removed. -/
def unmount : ConnectionHook :=
  if hook.present then { hook.cleanup with present := false } else hook

/-- The effect of a step. -/
def step : ConnectionStep -> ConnectionHook
  | .rerender => hook.rerender
  | .connectSucceeds => hook.connectSucceeds
  | .connectFails reason => hook.connectFails reason
  | .healthCheck blockNumber => hook.healthCheck blockNumber
  | .unmount => hook.unmount

end ConnectionHook

/-- From the first success of a connect until the component is removed, neither
`connect` nor `disconnect` is called. -/
def StaysConnected (steps : List ConnectionStep) : Prop :=
  ∀ before after later,
    steps = before ++ .connectSucceeds :: (after ++ later) ->
    .connectSucceeds ∉ before -> .unmount ∉ before -> .unmount ∉ after ->
    (run ConnectionHook.step .mount (before ++ .connectSucceeds :: after)).calls =
      (run ConnectionHook.step .mount (before ++ [.connectSucceeds])).calls

/-- The component is not rendered both while it connects for the first time and
afterwards. -/
def RenderedOnOneSide (steps : List ConnectionStep) : Prop :=
  ∀ before after later,
    steps = before ++ .connectSucceeds :: (after ++ later) ->
    .connectSucceeds ∉ before -> .unmount ∉ before -> .unmount ∉ after ->
    .rerender ∈ before -> .rerender ∉ after

/-! ## Phases of a run -/

namespace ConnectionHook

/-- The first connect has not settled; the callback has captured whether the
component was rendered since. -/
structure Connecting (hook : ConnectionHook) (rerendered : Bool) : Prop where
  connecting : hook.connecting = true
  mounted : hook.mounted = true
  present : hook.present = true
  idle : hook.healthCheckInterval = false
  pending : hook.pending = 1
  captured : hook.captured = rerendered

/-- No connect is pending. -/
structure Connected (hook : ConnectionHook) (rerendered : Bool) : Prop where
  connecting : hook.connecting = false
  present : hook.present = true
  pending : hook.pending = 0
  captured : hook.captured = rerendered

variable
  {hook : ConnectionHook}
  {rerendered : Bool}

theorem connecting_mount : mount.Connecting false :=
  ⟨rfl, rfl, rfl, rfl, rfl, rfl⟩

/-- **Step.**  While the first connect is pending a render is captured. -/
theorem Connecting.step
    (isConnecting : hook.Connecting rerendered)
    {next : ConnectionStep}
    (notSettled : next ≠ .connectSucceeds)
    (notFailed : ∀ reason, next ≠ .connectFails reason)
    (notRemoved : next ≠ .unmount) :
    (hook.step next).Connecting (rerendered || next = .rerender) := by
  obtain ⟨connecting, mounted, present, idle, pending, captured⟩ := isConnecting
  cases next with
  | rerender =>
      cases rerendered with
      | false =>
          simp only [ConnectionHook.step, ConnectionHook.rerender, present, captured,
            connecting]
          exact ⟨connecting, rfl, present, rfl, pending, rfl⟩
      | true =>
          simp only [ConnectionHook.step, ConnectionHook.rerender, present, captured,
            connecting]
          exact ⟨connecting, mounted, present, idle, pending, captured⟩
  | connectSucceeds => exact absurd rfl notSettled
  | connectFails reason => exact absurd rfl (notFailed reason)
  | healthCheck blockNumber =>
      simp only [ConnectionHook.step, ConnectionHook.healthCheck, idle,
        Bool.false_and, Bool.false_eq_true, if_false]
      exact ⟨connecting, mounted, present, idle, pending, by simpa using captured⟩
  | unmount => exact absurd rfl notRemoved

/-- **Run.**  The callback has captured whether the component was rendered while
the first connect was pending. -/
theorem connecting_run
    {steps : List ConnectionStep}
    (notSettled : .connectSucceeds ∉ steps)
    (notFailed : ∀ reason, .connectFails reason ∉ steps)
    (notRemoved : .unmount ∉ steps) :
    (run ConnectionHook.step mount steps).Connecting
      (decide (.rerender ∈ steps)) := by
  induction steps using List.reverseRecOn with
  | nil => exact connecting_mount
  | append_singleton steps last inductionHypothesis =>
      simp only [List.mem_append, List.mem_singleton, not_or] at notSettled
      simp only [List.mem_append, List.mem_singleton, not_or] at notFailed
      simp only [List.mem_append, List.mem_singleton, not_or] at notRemoved
      have before := inductionHypothesis notSettled.1
        (fun reason => (notFailed reason).1) notRemoved.1
      have after := before.step (Ne.symm notSettled.2)
        (fun reason => Ne.symm (notFailed reason).2) (Ne.symm notRemoved.2)
      rw [run_append, run_cons, run_nil]
      simpa [eq_comm] using after

/-- The first success leaves no connect pending. -/
theorem Connecting.connectSucceeds (isConnecting : hook.Connecting rerendered) :
    hook.connectSucceeds.Connected rerendered := by
  obtain ⟨connecting, mounted, present, idle, pending, captured⟩ := isConnecting
  simp only [ConnectionHook.connectSucceeds, pending, mounted]
  exact ⟨rfl, present, rfl, captured⟩

/-- **Step.**  A connected component calls nothing unless it is rendered with a
callback of the time when it was connecting. -/
theorem Connected.step
    (isConnected : hook.Connected rerendered)
    {next : ConnectionStep}
    (notRemoved : next ≠ .unmount)
    (notRendered : rerendered = true -> next ≠ .rerender) :
    (hook.step next).Connected rerendered ∧
      (hook.step next).calls = hook.calls := by
  obtain ⟨connecting, present, pending, captured⟩ := isConnected
  cases next with
  | rerender =>
      cases rerendered with
      | true => exact absurd rfl (notRendered rfl)
      | false =>
          simp only [ConnectionHook.step, ConnectionHook.rerender, present, captured,
            connecting]
          exact ⟨⟨connecting, present, pending, captured⟩, rfl⟩
  | connectSucceeds =>
      have nothing : hook.connectSucceeds = hook := if_pos pending
      rw [ConnectionHook.step, nothing]
      exact ⟨⟨connecting, present, pending, captured⟩, rfl⟩
  | connectFails reason =>
      have nothing : hook.connectFails reason = hook := if_pos pending
      rw [ConnectionHook.step, nothing]
      exact ⟨⟨connecting, present, pending, captured⟩, rfl⟩
  | healthCheck blockNumber =>
      change (hook.healthCheck blockNumber).Connected rerendered ∧
        (hook.healthCheck blockNumber).calls = hook.calls
      unfold ConnectionHook.healthCheck
      split
      · exact ⟨⟨connecting, present, pending, captured⟩, rfl⟩
      · exact ⟨⟨connecting, present, pending, captured⟩, rfl⟩
  | unmount => exact absurd rfl notRemoved

/-- **Run.**  Such a component stays connected. -/
theorem Connected.run
    (isConnected : hook.Connected rerendered)
    {steps : List ConnectionStep}
    (notRemoved : .unmount ∉ steps)
    (notRendered : rerendered = true -> .rerender ∉ steps) :
    (Foundation.run ConnectionHook.step hook steps).Connected rerendered ∧
      (Foundation.run ConnectionHook.step hook steps).calls = hook.calls := by
  induction steps generalizing hook with
  | nil => exact ⟨isConnected, rfl⟩
  | cons first rest inductionHypothesis =>
      rw [List.mem_cons, not_or] at notRemoved
      simp only [List.mem_cons, not_or] at notRendered
      obtain ⟨afterFirst, sameCalls⟩ := isConnected.step (Ne.symm notRemoved.1)
        fun captured => Ne.symm (notRendered captured).1
      obtain ⟨afterRest, sameAgain⟩ := inductionHypothesis afterFirst notRemoved.2
        fun captured => (notRendered captured).2
      exact ⟨afterRest, sameAgain.trans sameCalls⟩

/-- Rendered with the earlier callback, it disconnects and connects again. -/
theorem Connected.rerender (isConnected : hook.Connected true) :
    (hook.step .rerender).calls = hook.calls ++ [.disconnect, .connect] := by
  obtain ⟨connecting, present, pending, captured⟩ := isConnected
  simp only [ConnectionHook.step, ConnectionHook.rerender, present, captured,
    connecting]
  exact List.append_assoc _ _ _

end ConnectionHook

/-! ## When the connection is stable -/

/-- The calls after a first success, and what the component captured then. -/
theorem connected_after_success
    {before : List ConnectionStep}
    (first : .connectSucceeds ∉ before)
    (notFailed : ∀ reason, .connectFails reason ∉ before)
    (notRemoved : .unmount ∉ before) :
    (run ConnectionHook.step .mount (before ++ [.connectSucceeds])).Connected
      (decide (.rerender ∈ before)) := by
  rw [run_append]
  exact (ConnectionHook.connecting_run first notFailed notRemoved).connectSucceeds

/-- **Stable connections.**  When no connect fails, a run stays connected exactly
when the component is not rendered on both sides of its first success. -/
theorem staysConnected_iff
    {steps : List ConnectionStep}
    (succeed : ∀ reason, .connectFails reason ∉ steps) :
    StaysConnected steps ↔ RenderedOnOneSide steps := by
  have split : ∀ before after : List ConnectionStep,
      run ConnectionHook.step .mount (before ++ .connectSucceeds :: after) =
        run ConnectionHook.step
          (run ConnectionHook.step .mount (before ++ [.connectSucceeds])) after := by
    intro before after
    rw [← run_append, List.append_assoc, List.singleton_append]
  constructor
  · rintro stays before after later rfl first notRemoved stillThere rendered renderedAgain
    have connected := connected_after_success first
      (fun reason => fun member => succeed reason (by simp [member])) notRemoved
    rw [decide_eq_true rendered] at connected
    obtain ⟨between, rest, rfl, notYet⟩ := List.eq_append_cons_of_mem renderedAgain
    rw [List.mem_append, not_or] at stillThere
    -- nothing is called up to the first later render
    obtain ⟨stillConnected, sameCalls⟩ :=
      connected.run stillThere.1 fun _ => notYet
    have same := stays before (between ++ [.rerender]) (rest ++ later) (by simp) first
      notRemoved (by simpa using stillThere.1)
    rw [split, run_append, run_cons, run_nil, stillConnected.rerender, sameCalls] at same
    exact absurd same (by simp)
  · rintro oneSide before after later rfl first notRemoved stillThere
    have connected := connected_after_success first
      (fun reason => fun member => succeed reason (by simp [member])) notRemoved
    rw [split]
    refine (connected.run stillThere fun rendered => ?_).2
    exact oneSide before after later rfl first notRemoved stillThere
      (of_decide_eq_true rendered)

/-- The component is rendered after each change of its state. -/
def renderedTwice : List ConnectionStep :=
  [.rerender, .connectSucceeds, .rerender]

theorem staysConnected_iff_renderedTwice :
    StaysConnected renderedTwice ↔ RenderedOnOneSide renderedTwice :=
  staysConnected_iff fun _ => by simp [renderedTwice]

/-- After its first success the component disconnects and connects again. -/
theorem renderedTwice_reconnects : ¬StaysConnected renderedTwice := by
  intro stays
  have same := stays [.rerender] [.rerender] [] rfl (by decide) (by decide)
    (by decide)
  revert same
  decide

end Client
end Privachain
