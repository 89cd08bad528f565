import Privachain.Foundation.JavaScript
import Privachain.Foundation.Runs
import Privachain.Foundation.Entries

/-!
# The connection of the chain module

`connect` and `disconnect` of the real chain API share four variables, which they
read and write between their awaits.  The calls are interleaved with the answers of
the library in any order.
-/

namespace Privachain
namespace Client

open Foundation
open Foundation.JavaScript

/-! ## The module -/

/-- `interface ChainConfig`; the connection depends on the endpoint only. -/
structure ChainConfig where
  endpoint : String
  ss58Format : Option Nat := none
  deriving DecidableEq

/-- A `WsProvider`, numbered in the order of construction. -/
structure WsProvider where
  number : Nat
  endpoint : String
  deriving DecidableEq

/-- An `ApiPromise` on a provider. -/
structure ApiPromise where
  provider : WsProvider
  deriving DecidableEq

/-- What a `connect` resolves with: the value of `apiInstance`, which may be `null`,
and whether its provider is open then. -/
structure ConnectResult where
  api : Option ApiPromise
  connected : Bool
  deriving DecidableEq

/-- The await at which the function of a `connectionPromise` stands, or how it
ended. -/
inductive AttemptStage
  | disconnecting (provider : WsProvider)
  | creating (provider : WsProvider)
  | waitingReady (api : ApiPromise)
  | readingChain (api : ApiPromise)
  | fulfilled (result : ConnectResult)
  | rejected (reason : Exception)
  deriving DecidableEq

/-- The function of a `connectionPromise`. -/
structure Attempt where
  config : ChainConfig
  stage : AttemptStage

/-- The await at which a `disconnect` stands. -/
inductive DisconnectStage
  | closingApi (provider : WsProvider)
  | closingProvider (provider : WsProvider)
  | done
  deriving DecidableEq

/-- How a `connect` is answered: at once, or with the promise of an attempt. -/
inductive ConnectAnswer
  | returned (result : ConnectResult)
  | promise (attempt : Nat)
  deriving DecidableEq

/-- A call that was started. -/
inductive ConnectionCall
  | connect (config : ChainConfig) (answer : ConnectAnswer)
  | disconnect (stage : DisconnectStage)
  deriving DecidableEq

/-- The four variables of the module, the providers that are open, the number of
those constructed, the attempts, and the calls in the order of their start. -/
structure ChainModule where
  apiInstance : Option ApiPromise := none
  providerInstance : Option WsProvider := none
  isConnecting : Bool := false
  connectionPromise : Option Nat := none
  openProviders : List WsProvider := []
  constructed : Nat := 0
  attempts : List Attempt := []
  calls : List ConnectionCall := []

/-- Whether the attempt has ended. -/
def AttemptStage.settled : AttemptStage -> Bool
  | .fulfilled _ => true
  | .rejected _ => true
  | _ => false

/-- The provider that a pending attempt has constructed. -/
def AttemptStage.provider : AttemptStage -> Option WsProvider
  | .creating provider => some provider
  | .waitingReady api => some api.provider
  | .readingChain api => some api.provider
  | _ => none

/-- Whether the await is on the `disconnect()` of the provider. -/
def DisconnectStage.awaits (provider : WsProvider) : DisconnectStage -> Bool
  | .closingApi closing => closing = provider
  | .closingProvider closing => closing = provider
  | .done => false

/-- Whether a pending call awaits the `disconnect()` of the provider. -/
def ConnectionCall.awaits (provider : WsProvider) : ConnectionCall -> Bool
  | .connect _ _ => false
  | .disconnect stage => stage.awaits provider

/-- Whether a pending `disconnect` is yet to read `providerInstance`. -/
def ConnectionCall.readsProvider : ConnectionCall -> Bool
  | .disconnect (.closingApi _) => true
  | _ => false

namespace ChainModule

variable (chain : ChainModule)

/-! ### Providers -/

/-- `apiInstance`, if it is connected: `apiInstance?.isConnected`. -/
def connectedApi : Option ApiPromise :=
  chain.apiInstance.filter fun api => api.provider ∈ chain.openProviders

/-- `new WsProvider(endpoint)`, before its connection is opened. -/
def newProvider (endpoint : String) : WsProvider where
  number := chain.constructed
  endpoint := endpoint

/-- `providerInstance = new WsProvider(endpoint)` -/
def openProvider (endpoint : String) : ChainModule :=
  { chain with
    providerInstance := some (chain.newProvider endpoint)
    openProviders := chain.openProviders ++ [chain.newProvider endpoint]
    constructed := chain.constructed + 1 }

/-- The connection of a provider is closed. -/
def closeProvider (provider : WsProvider) : ChainModule :=
  { chain with
    openProviders := chain.openProviders.filter (· ≠ provider) }

/-- Whether the `disconnect()` of the provider is pending. -/
def isClosing (provider : WsProvider) : Bool :=
  chain.calls.any (ConnectionCall.awaits provider) ||
    chain.attempts.any (·.stage = .disconnecting provider)

/-- A provider whose `disconnect()` is pending closes, at the latest when the await
of it resumes. -/
def closes (provider : WsProvider) : ChainModule :=
  if chain.isClosing provider then chain.closeProvider provider else chain

/-! ### Connecting -/

/-- An attempt goes on to another stage. -/
def setStage
    (index : Nat)
    (attempt : Attempt)
    (stage : AttemptStage) : ChainModule :=
  { chain with
    attempts := chain.attempts.set index { attempt with stage := stage } }

/-- The `catch` of an attempt. -/
def failAttempt
    (index : Nat)
    (attempt : Attempt)
    (error : String) : ChainModule :=
  { chain with
    isConnecting := false
    connectionPromise := none
    apiInstance := none
    providerInstance := none }.setStage index attempt
      (.rejected (.error s!"Failed to connect to parachain: {error}"))

/-- An attempt up to its first await. -/
def startAttempt (config : ChainConfig) : ChainModule :=
  let started : ChainModule :=
    match chain.providerInstance with
    | some provider =>
        { chain with
          attempts := chain.attempts ++
            [{ config := config, stage := .disconnecting provider }] }
    | none =>
        { chain.openProvider config.endpoint with
          attempts := chain.attempts ++
            [{ config := config
               stage := .creating (chain.newProvider config.endpoint) }] }
  { started with
    isConnecting := true
    connectionPromise := some chain.attempts.length
    calls := chain.calls ++
      [.connect config (.promise chain.attempts.length)] }

/-- `connect(config)`, up to its first await. -/
def connect (config : ChainConfig) : ChainModule :=
  match chain.connectedApi with
  | some api =>
      { chain with
        calls := chain.calls ++
          [.connect config (.returned { api := some api, connected := true })] }
  | none =>
      match chain.isConnecting, chain.connectionPromise with
      | true, some attempt =>
          { chain with
            calls := chain.calls ++ [.connect config (.promise attempt)] }
      | _, _ => chain.startAttempt config

/-- An attempt resumes.  Of the awaited promises only those of
`ApiPromise.create` and `rpc.system.chain()` may be rejected, with an error of the
given text. -/
def resumeAttempt (index : Nat) (answer : Except String Unit) : ChainModule :=
  match chain.attempts[index]? with
  | none => chain
  | some attempt =>
      match attempt.stage, answer with
      | .disconnecting provider, _ =>
          let closed := chain.closeProvider provider
          (closed.openProvider attempt.config.endpoint).setStage index attempt
            (.creating (closed.newProvider attempt.config.endpoint))
      | .creating provider, .ok _ =>
          { chain with
            apiInstance := some { provider := provider } }.setStage index attempt
              (.waitingReady { provider := provider })
      | .creating _, .error error => chain.failAttempt index attempt error
      | .waitingReady _, _ =>
          match chain.apiInstance with
          | some api => chain.setStage index attempt (.readingChain api)
          | none =>
              chain.failAttempt index attempt
                "TypeError: Cannot read properties of null (reading 'rpc')"
      | .readingChain _, .ok _ =>
          { chain with
            isConnecting := false
            connectionPromise := none }.setStage index attempt
              (.fulfilled
                { api := chain.apiInstance
                  connected := chain.connectedApi.isSome })
      | .readingChain _, .error error => chain.failAttempt index attempt error
      | .fulfilled _, _ => chain
      | .rejected _, _ => chain

/-! ### Disconnecting -/

/-- The second part of `disconnect`, up to its await. -/
def providerStage : DisconnectStage :=
  match chain.providerInstance with
  | some provider => .closingProvider provider
  | none => .done

/-- `disconnect()`, up to its first await. -/
def disconnect : ChainModule :=
  let stage : DisconnectStage :=
    match chain.apiInstance with
    | some api => .closingApi api.provider
    | none => chain.providerStage
  { chain with calls := chain.calls ++ [.disconnect stage] }

/-- A `disconnect` resumes. -/
def resumeDisconnect (index : Nat) : ChainModule :=
  match chain.calls[index]? with
  | some (.disconnect (.closingApi provider)) =>
      { chain.closeProvider provider with
        apiInstance := none
        calls := chain.calls.set index (.disconnect chain.providerStage) }
  | some (.disconnect (.closingProvider provider)) =>
      { chain.closeProvider provider with
        providerInstance := none
        calls := chain.calls.set index (.disconnect .done) }
  | _ => chain

/-- `getApi()` -/
def getApi : Except Exception ApiPromise :=
  match chain.connectedApi with
  | some api => .ok api
  | none => .error (.error "Not connected to parachain. Call connect() first.")

/-- `isConnected()` -/
def isConnected : Bool := chain.connectedApi.isSome

end ChainModule

/-! ## Interleavings -/

/-- A call is started, a provider closes, or an await resumes. -/
inductive ConnectionEvent
  | connect (config : ChainConfig)
  | disconnect
  | closes (provider : WsProvider)
  | resumeAttempt (index : Nat) (answer : Except String Unit)
  | resumeDisconnect (index : Nat)

/-- The module after an event. -/
def ChainModule.step (chain : ChainModule) : ConnectionEvent -> ChainModule
  | .connect config => chain.connect config
  | .disconnect => chain.disconnect
  | .closes provider => chain.closes provider
  | .resumeAttempt index answer => chain.resumeAttempt index answer
  | .resumeDisconnect index => chain.resumeDisconnect index

/-- The module after a list of events, which starts without a connection. -/
def chainAfter (events : List ConnectionEvent) : ChainModule :=
  run ChainModule.step {} events

/-! ## One connection -/

namespace ChainModule

variable (chain : ChainModule)

/-- What a `connect` has resolved with. -/
def resultOf : ConnectAnswer -> Option ConnectResult
  | .returned result => some result
  | .promise index =>
      match (chain.attempts[index]?).map Attempt.stage with
      | some (.fulfilled result) => some result
      | _ => none

/-- Whether a call has completed. -/
def isCompleted : ConnectionCall -> Bool
  | .connect _ (.returned _) => true
  | .connect _ (.promise index) =>
      ((chain.attempts[index]?).map fun attempt => attempt.stage.settled).getD false
  | .disconnect stage => stage = .done

/-- All calls that were started have completed. -/
def AllCompleted : Prop :=
  ∀ call ∈ chain.calls, chain.isCompleted call = true

instance : Decidable chain.AllCompleted :=
  inferInstanceAs
    (Decidable (∀ call ∈ chain.calls, chain.isCompleted call = true))

/-- The call that was started last is a `disconnect`. -/
def LastIsDisconnect : Prop :=
  ∃ stage, chain.calls.getLast? = some (.disconnect stage)

/-- The result is an API that is connected to the endpoint of the configuration. -/
def ConnectsTo (config : ChainConfig) (result : ConnectResult) : Prop :=
  ∃ api, result.api = some api ∧ api.provider.endpoint = config.endpoint ∧
    result.connected = true

/-- Once all calls have completed at most one provider is open, and none after a last
`disconnect`; and every resolved `connect` returned a connection to its
endpoint. -/
structure SingleConnection : Prop where
  atMostOne : chain.AllCompleted -> chain.openProviders.length ≤ 1
  returned : ∀ config answer, .connect config answer ∈ chain.calls ->
    ∀ result, chain.resultOf answer = some result -> ConnectsTo config result
  closed : chain.AllCompleted -> chain.LastIsDisconnect ->
    chain.openProviders = []

/-- The `disconnect()` of the provider is awaited by a pending call. -/
def Awaits (provider : WsProvider) : Prop :=
  ∃ call ∈ chain.calls, call.awaits provider = true

/-- The endpoint of the connection or of the attempt that a `connect` would reuse. -/
def reusedEndpoint : Option String :=
  match chain.connectedApi with
  | some api => some api.provider.endpoint
  | none =>
      if chain.isConnecting then
        (chain.connectionPromise.bind fun index => chain.attempts[index]?).map
          fun attempt => attempt.config.endpoint
      else none

/-- A `disconnect` that is yet to read `providerInstance` is pending. -/
def ReadsProvider : Prop :=
  ∃ call ∈ chain.calls, call.readsProvider = true

/-- The provider is closed or being closed. -/
def Released (provider : WsProvider) : Prop :=
  provider ∈ chain.openProviders -> chain.Awaits provider

/-- The provider that an attempt opens after a last `disconnect` will be closed; an
attempt is rejected by the library only when its provider is released; and it is
resolved only while the API is connected. -/
def MayResumeAttempt (attempt : Attempt) (answer : Except String Unit) : Prop :=
  match attempt.stage, answer with
  | .disconnecting _, _ => chain.LastIsDisconnect -> chain.ReadsProvider
  | .creating provider, .error _ => chain.Released provider
  | .readingChain api, .error _ => chain.Released api.provider
  | .readingChain _, .ok _ => chain.isConnected = true
  | _, _ => True

/-- A `disconnect` that sets `apiInstance` to `null` loses no connection, and one that
sets `providerInstance` to `null` loses none that a last `disconnect` is to close. -/
def MayResumeDisconnect : DisconnectStage -> Prop
  | .closingApi _ =>
      ∀ api, chain.connectedApi = some api ->
        chain.Awaits api.provider ∨ chain.providerInstance = some api.provider
  | .closingProvider _ =>
      chain.LastIsDisconnect ->
        ∀ provider, chain.providerInstance = some provider ->
          chain.Released provider
  | .done => True

/-- A `connect` reuses only a connection or an attempt to its endpoint; when a
`disconnect` starts, every open provider is being closed or is in a variable; and
the awaits resume as above. -/
def Orderly : ConnectionEvent -> Prop
  | .connect config =>
      ∀ endpoint, chain.reusedEndpoint = some endpoint ->
        endpoint = config.endpoint
  | .disconnect =>
      ∀ provider ∈ chain.openProviders,
        chain.Awaits provider ∨
          chain.apiInstance = some { provider := provider } ∨
          chain.providerInstance = some provider
  | .closes _ => True
  | .resumeAttempt index answer =>
      ∀ attempt, chain.attempts[index]? = some attempt ->
        chain.MayResumeAttempt attempt answer
  | .resumeDisconnect index =>
      ∀ stage, chain.calls[index]? = some (.disconnect stage) ->
        chain.MayResumeDisconnect stage

/-! ## The invariant -/

/-- The provider is open, or one of the variables or a pending `disconnect` refers to
it. -/
def Mentions (provider : WsProvider) : Prop :=
  provider ∈ chain.openProviders ∨
    chain.apiInstance = some { provider := provider } ∨
    chain.providerInstance = some provider ∨ chain.Awaits provider

/-- The provider is one to the endpoint of the attempt, and `providerInstance` holds
no other. -/
structure Serves (attempt : Attempt) (provider : WsProvider) : Prop where
  endpoint : provider.endpoint = attempt.config.endpoint
  constructed : provider.number < chain.constructed
  only : ∀ other, chain.providerInstance = some other -> other = provider

/-- `apiInstance` holds the API on the provider, or it is `null` and the provider is
released. -/
def HoldsApi (provider : WsProvider) : Prop :=
  chain.apiInstance = some { provider := provider } ∨
    chain.apiInstance = none ∧ chain.Released provider

/-- What holds of an attempt at its stage. -/
def Supports (attempt : Attempt) : Prop :=
  match attempt.stage with
  | .disconnecting provider =>
      ∀ other, chain.providerInstance = some other -> other = provider
  | .creating provider => chain.Serves attempt provider
  | .waitingReady api =>
      chain.Serves attempt api.provider ∧ chain.HoldsApi api.provider
  | .readingChain api =>
      chain.Serves attempt api.provider ∧ chain.HoldsApi api.provider
  | .fulfilled result => ConnectsTo attempt.config result
  | .rejected _ => True

/-- An open provider is being closed, or it is the connection or that of a pending
attempt. -/
def Owned (provider : WsProvider) : Prop :=
  chain.Awaits provider ∨
    (chain.isConnecting = false ∧
      chain.apiInstance = some { provider := provider }) ∨
    ∃ attempt ∈ chain.attempts, attempt.stage.provider = some provider

/-- The provider is being closed, or a pending `disconnect` will read it. -/
def Doomed (provider : WsProvider) : Prop :=
  chain.Awaits provider ∨
    chain.providerInstance = some provider ∧ chain.ReadsProvider

/-- What orderly events keep: at most one attempt is pending, every open provider has
an owner, and after a last `disconnect` all of them are doomed. -/
structure Invariant : Prop where
  distinct : chain.openProviders.Nodup
  numbered : ∀ provider, chain.Mentions provider ->
    provider.number < chain.constructed
  pending : chain.isConnecting = true ->
    ∃ index attempt, chain.connectionPromise = some index ∧
      chain.attempts[index]? = some attempt ∧ attempt.stage.settled = false
  single : ∀ index attempt, chain.attempts[index]? = some attempt ->
    attempt.stage.settled = false ->
      chain.isConnecting = true ∧ chain.connectionPromise = some index
  called : ∀ index attempt, chain.attempts[index]? = some attempt ->
    ∃ config, .connect config (.promise index) ∈ chain.calls
  joined : ∀ config index, .connect config (.promise index) ∈ chain.calls ->
    ∃ attempt, chain.attempts[index]? = some attempt ∧
      attempt.config.endpoint = config.endpoint
  supports : ∀ attempt ∈ chain.attempts, chain.Supports attempt
  returned : ∀ config result, .connect config (.returned result) ∈ chain.calls ->
    ConnectsTo config result
  owned : ∀ provider ∈ chain.openProviders, chain.Owned provider
  closing : chain.LastIsDisconnect ->
    ∀ provider ∈ chain.openProviders, chain.Doomed provider

end ChainModule

namespace ChainModule

variable {chain : ChainModule}

/-! ### What the invariant gives -/

theorem Invariant.single_attempt
    (invariant : chain.Invariant)
    {first second : Nat}
    {attempt other : Attempt}
    (atFirst : chain.attempts[first]? = some attempt)
    (atSecond : chain.attempts[second]? = some other)
    (unsettled : attempt.stage.settled = false)
    (otherUnsettled : other.stage.settled = false) :
    first = second ∧ attempt = other := by
  have isFirst := (invariant.single first attempt atFirst unsettled).2
  have isSecond := (invariant.single second other atSecond otherUnsettled).2
  obtain rfl := Option.some.inj (isFirst.symm.trans isSecond)
  exact ⟨rfl, Option.some.inj (atFirst.symm.trans atSecond)⟩

/-- An attempt with a provider is pending. -/
theorem unsettled_of_provider
    {stage : AttemptStage}
    {provider : WsProvider}
    (has : stage.provider = some provider) :
    stage.settled = false := by
  cases stage with
  | fulfilled result => cases has
  | rejected reason => cases has
  | _ => rfl

/-- While no attempt is pending none has a provider. -/
theorem Invariant.provider_eq_none
    (invariant : chain.Invariant)
    (idle : chain.isConnecting = false)
    {attempt : Attempt}
    (member : attempt ∈ chain.attempts)
    (provider : WsProvider) :
    attempt.stage.provider ≠ some provider := by
  intro has
  obtain ⟨index, atIndex⟩ := List.mem_iff_getElem?.mp member
  have connecting := (invariant.single index attempt atIndex
    (unsettled_of_provider has)).1
  rw [idle] at connecting
  cases connecting

/-- Where all calls have completed nothing is pending. -/
theorem Invariant.idle_of_allCompleted
    (invariant : chain.Invariant)
    (completed : chain.AllCompleted) :
    chain.isConnecting = false ∧ (∀ provider, ¬chain.Awaits provider) ∧
      ¬chain.ReadsProvider := by
  have isDone : ∀ stage, .disconnect stage ∈ chain.calls -> stage = .done :=
    fun stage member => of_decide_eq_true (completed _ member)
  refine ⟨?_, ?_, ?_⟩
  · rw [← Bool.not_eq_true]
    intro connecting
    obtain ⟨index, attempt, -, atIndex, unsettled⟩ := invariant.pending connecting
    obtain ⟨config, isCalled⟩ := invariant.called index attempt atIndex
    have isSettled := completed _ isCalled
    rw [isCompleted, atIndex] at isSettled
    exact absurd isSettled (by simp [unsettled])
  · rintro provider ⟨call, member, awaits⟩
    cases call with
    | connect config answer => cases awaits
    | disconnect stage =>
        rw [isDone stage member] at awaits
        cases awaits
  · rintro ⟨call, member, reads⟩
    cases call with
    | connect config answer => cases reads
    | disconnect stage =>
        rw [isDone stage member] at reads
        cases reads

/-- The invariant gives the single connection. -/
theorem Invariant.singleConnection
    (invariant : chain.Invariant) :
    chain.SingleConnection where
  atMostOne completed := by
    obtain ⟨idle, notAwaited, -⟩ := invariant.idle_of_allCompleted completed
    have isConnection : ∀ provider ∈ chain.openProviders,
        chain.apiInstance = some { provider := provider } := by
      intro provider isOpen
      rcases invariant.owned provider isOpen with
        awaited | ⟨-, isApi⟩ | ⟨attempt, member, has⟩
      · exact absurd awaited (notAwaited provider)
      · exact isApi
      · exact absurd has (invariant.provider_eq_none idle member provider)
    apply length_le_one_of_nodup invariant.distinct
    intro first isFirst second isSecond
    have same := (isConnection first isFirst).symm.trans
      (isConnection second isSecond)
    exact congrArg ApiPromise.provider (Option.some.inj same)
  returned config answer member result resolved := by
    cases answer with
    | returned returned =>
        cases resolved
        exact invariant.returned config _ member
    | promise index =>
        obtain ⟨attempt, atIndex, sameEndpoint⟩ :=
          invariant.joined config index member
        rw [resultOf, atIndex, Option.map_some] at resolved
        have supports := invariant.supports attempt
          (List.mem_of_getElem? atIndex)
        unfold Supports at supports
        cases stage : attempt.stage with
        | fulfilled fulfilled =>
            rw [stage] at resolved supports
            cases resolved
            obtain ⟨api, isApi, endpoint, connected⟩ := supports
            exact ⟨api, isApi, endpoint.trans sameEndpoint, connected⟩
        | _ =>
            rw [stage] at resolved
            cases resolved
  closed completed last := by
    obtain ⟨-, notAwaited, notReads⟩ := invariant.idle_of_allCompleted completed
    rw [List.eq_nil_iff_forall_not_mem]
    intro provider isOpen
    rcases invariant.closing last provider isOpen with awaited | ⟨-, reads⟩
    · exact notAwaited provider awaited
    · exact notReads reads

/-! ### Calls and providers -/

theorem awaits_concat_iff
    {next : ChainModule}
    {call : ConnectionCall}
    (calls : next.calls = chain.calls ++ [call])
    (provider : WsProvider) :
    next.Awaits provider ↔
      chain.Awaits provider ∨ call.awaits provider = true := by
  simp [Awaits, calls, or_and_right, exists_or]

/-- A `connect` does not await the closing of a provider. -/
theorem awaits_concat_connect_iff
    {next : ChainModule}
    {config : ChainConfig}
    {answer : ConnectAnswer}
    (calls : next.calls = chain.calls ++ [.connect config answer])
    (provider : WsProvider) :
    next.Awaits provider ↔ chain.Awaits provider := by
  rw [awaits_concat_iff calls]
  exact or_iff_left Bool.false_ne_true

theorem not_lastIsDisconnect_concat_connect
    {next : ChainModule}
    {config : ChainConfig}
    {answer : ConnectAnswer}
    (calls : next.calls = chain.calls ++ [.connect config answer]) :
    ¬next.LastIsDisconnect := by
  rintro ⟨stage, last⟩
  rw [calls, List.getLast?_concat] at last
  cases last

/-- A connected API is on an open provider. -/
theorem connectedApi_eq_some_iff
    (api : ApiPromise) :
    chain.connectedApi = some api ↔
      chain.apiInstance = some api ∧ api.provider ∈ chain.openProviders := by
  simp [connectedApi, Option.filter_eq_some_iff]

/-- An attempt keeps its support where the variables keep to its provider. -/
theorem Supports.transfer
    {next : ChainModule}
    {attempt : Attempt}
    (supports : chain.Supports attempt)
    (only : ∀ other, next.providerInstance = some other ->
      chain.providerInstance = some other)
    (constructed : chain.constructed ≤ next.constructed)
    (holdsApi : ∀ provider, chain.HoldsApi provider -> next.HoldsApi provider) :
    next.Supports attempt := by
  have transfers : ∀ provider, chain.Serves attempt provider ->
      next.Serves attempt provider := by
    intro provider serves
    exact ⟨serves.endpoint, Nat.lt_of_lt_of_le serves.constructed constructed,
      fun other named => serves.only other (only other named)⟩
  unfold Supports at supports ⊢
  cases stage : attempt.stage with
  | disconnecting provider =>
      rw [stage] at supports
      exact fun other named => supports other (only other named)
  | creating provider =>
      rw [stage] at supports
      exact transfers provider supports
  | waitingReady api =>
      rw [stage] at supports
      exact ⟨transfers _ supports.1, holdsApi _ supports.2⟩
  | readingChain api =>
      rw [stage] at supports
      exact ⟨transfers _ supports.1, holdsApi _ supports.2⟩
  | fulfilled result =>
      rw [stage] at supports
      exact supports
  | rejected reason => trivial

/-- A settled attempt is not affected. -/
theorem Supports.of_settled
    {attempt : Attempt}
    (supports : chain.Supports attempt)
    (settled : attempt.stage.settled = true)
    (next : ChainModule) :
    next.Supports attempt := by
  unfold Supports at supports ⊢
  cases stage : attempt.stage with
  | fulfilled result =>
      rw [stage] at supports
      exact supports
  | rejected reason => trivial
  | _ =>
      rw [stage] at settled
      cases settled

/-- While an attempt is pending, every open provider is being closed or its own. -/
theorem Invariant.owned_of_unsettled
    (invariant : chain.Invariant)
    {index : Nat}
    {attempt : Attempt}
    (atIndex : chain.attempts[index]? = some attempt)
    (unsettled : attempt.stage.settled = false)
    {provider : WsProvider}
    (isOpen : provider ∈ chain.openProviders) :
    chain.Awaits provider ∨ attempt.stage.provider = some provider := by
  have connecting := (invariant.single index attempt atIndex unsettled).1
  rcases invariant.owned provider isOpen with
    awaited | ⟨idle, -⟩ | ⟨other, member, has⟩
  · exact .inl awaited
  · rw [connecting] at idle
    cases idle
  · obtain ⟨position, atPosition⟩ := List.mem_iff_getElem?.mp member
    obtain ⟨-, rfl⟩ := invariant.single_attempt atIndex atPosition unsettled
      (unsettled_of_provider has)
    exact .inr has

/-- While no attempt is pending and no API is connected, every open provider is being
closed. -/
theorem Invariant.awaits_of_not_connected
    (invariant : chain.Invariant)
    (idle : chain.isConnecting = false)
    (notConnected : chain.connectedApi = none)
    {provider : WsProvider}
    (isOpen : provider ∈ chain.openProviders) :
    chain.Awaits provider := by
  rcases invariant.owned provider isOpen with
    awaited | ⟨-, isApi⟩ | ⟨attempt, member, has⟩
  · exact awaited
  · have connected := (connectedApi_eq_some_iff _).mpr ⟨isApi, isOpen⟩
    rw [notConnected] at connected
    cases connected
  · exact absurd has (invariant.provider_eq_none idle member provider)

/-- Nothing refers to a provider before it is constructed. -/
theorem Invariant.not_mentions_newProvider
    (invariant : chain.Invariant)
    (endpoint : String) :
    ¬chain.Mentions (chain.newProvider endpoint) := by
  intro mentions
  exact Nat.lt_irrefl _ (invariant.numbered _ mentions)

theorem Invariant.distinct_openProvider
    (invariant : chain.Invariant)
    (endpoint : String) :
    (chain.openProvider endpoint).openProviders.Nodup := by
  refine List.nodup_append.mpr
    ⟨invariant.distinct, List.nodup_singleton _, ?_⟩
  intro provider isOpen new isNew same
  rw [List.mem_singleton.mp isNew] at same
  rw [same] at isOpen
  exact invariant.not_mentions_newProvider endpoint (.inl isOpen)

theorem Invariant.numbered_openProvider
    (invariant : chain.Invariant)
    (endpoint : String)
    (provider : WsProvider)
    (mentions : (chain.openProvider endpoint).Mentions provider) :
    provider.number < (chain.openProvider endpoint).constructed := by
  have before : chain.Mentions provider ∨
      provider = chain.newProvider endpoint := by
    rcases mentions with isOpen | isApi | isProvider | awaited
    · rcases List.mem_append.mp isOpen with wasOpen | isNew
      · exact .inl (.inl wasOpen)
      · exact .inr (List.mem_singleton.mp isNew)
    · exact .inl (.inr (.inl isApi))
    · exact .inr (Option.some.inj isProvider).symm
    · exact .inl (.inr (.inr (.inr awaited)))
  rcases before with mentioned | rfl
  · exact Nat.lt_succ_of_lt (invariant.numbered provider mentioned)
  · exact Nat.lt_succ_self _

/-- The provider that an attempt constructs is in `providerInstance`. -/
theorem serves_openProvider
    (attempt : Attempt) :
    (chain.openProvider attempt.config.endpoint).Serves attempt
      (chain.newProvider attempt.config.endpoint) where
  endpoint := rfl
  constructed := Nat.lt_succ_self _
  only _ named := (Option.some.inj named).symm

/-- With the same API a released provider stays released. -/
theorem HoldsApi.transfer
    {next : ChainModule}
    {provider : WsProvider}
    (holds : chain.HoldsApi provider)
    (sameApi : next.apiInstance = chain.apiInstance)
    (released : chain.Released provider -> next.Released provider) :
    next.HoldsApi provider := by
  rw [HoldsApi, sameApi]
  exact holds.imp_right (And.imp_right released)

/-- An attempt keeps its support with the same variables, while released providers stay
released. -/
theorem Supports.of_released
    {next : ChainModule}
    {attempt : Attempt}
    (supports : chain.Supports attempt)
    (sameApi : next.apiInstance = chain.apiInstance)
    (sameProvider : next.providerInstance = chain.providerInstance)
    (sameConstructed : next.constructed = chain.constructed)
    (released : ∀ provider, chain.Released provider -> next.Released provider) :
    next.Supports attempt := by
  apply supports.transfer
  · rw [sameProvider]
    exact fun _ => id
  · exact Nat.le_of_eq sameConstructed.symm
  · exact fun provider holds => holds.transfer sameApi (released provider)

/-! ### Starting a call -/

/-- A `connect` that is answered at once, or with the promise of an earlier attempt. -/
theorem Invariant.concat_connect
    (invariant : chain.Invariant)
    {config : ChainConfig}
    {answer : ConnectAnswer}
    (returned : ∀ result, answer = .returned result -> ConnectsTo config result)
    (joined : ∀ index, answer = .promise index ->
      ∃ attempt, chain.attempts[index]? = some attempt ∧
        attempt.config.endpoint = config.endpoint)
    {next : ChainModule}
    (isNext : next =
      { chain with calls := chain.calls ++ [.connect config answer] }) :
    next.Invariant := by
  have calls : next.calls = chain.calls ++ [.connect config answer] := by
    rw [isNext]
  have awaits := awaits_concat_connect_iff calls
  subst isNext
  exact
    { distinct := invariant.distinct
      numbered := by
        intro provider mentions
        apply invariant.numbered provider
        rwa [Mentions, awaits] at mentions
      pending := invariant.pending
      single := invariant.single
      called := by
        intro index attempt atIndex
        obtain ⟨called, member⟩ := invariant.called index attempt atIndex
        exact ⟨called, List.mem_append_left _ member⟩
      joined := by
        intro called index member
        rcases List.mem_append.mp member with earlier | isNew
        · exact invariant.joined called index earlier
        · cases List.mem_singleton.mp isNew
          exact joined index rfl
      supports := by
        intro attempt member
        refine (invariant.supports attempt member).of_released rfl rfl rfl ?_
        intro provider released isOpen
        exact (awaits provider).mpr (released isOpen)
      returned := by
        intro called result member
        rcases List.mem_append.mp member with earlier | isNew
        · exact invariant.returned called result earlier
        · cases List.mem_singleton.mp isNew
          exact returned result rfl
      owned := by
        intro provider isOpen
        rw [Owned, awaits]
        exact invariant.owned provider isOpen
      closing := by
        intro last
        exact absurd last (not_lastIsDisconnect_concat_connect calls) }

/-- A `connect` that starts an attempt while none is pending. -/
theorem Invariant.of_started
    (invariant : chain.Invariant)
    (idle : chain.isConnecting = false)
    {next : ChainModule}
    {attempt : Attempt}
    (attempts : next.attempts = chain.attempts ++ [attempt])
    (calls : next.calls = chain.calls ++
      [.connect attempt.config (.promise chain.attempts.length)])
    (connecting : next.isConnecting = true)
    (promise : next.connectionPromise = some chain.attempts.length)
    (unsettled : attempt.stage.settled = false)
    (distinct : next.openProviders.Nodup)
    (numbered : ∀ provider, next.Mentions provider ->
      provider.number < next.constructed)
    (supports : next.Supports attempt)
    (owned : ∀ provider ∈ next.openProviders, next.Owned provider) :
    next.Invariant := by
  -- the earlier attempts are settled
  have isSettled : ∀ (index : Nat) (other : Attempt),
      chain.attempts[index]? = some other -> other.stage.settled = true := by
    intro index other atIndex
    rw [← Bool.not_eq_false]
    intro otherUnsettled
    have wasConnecting := (invariant.single index other atIndex otherUnsettled).1
    rw [idle] at wasConnecting
    cases wasConnecting
  have atEnd : next.attempts[chain.attempts.length]? = some attempt := by
    rw [attempts, List.getElem?_concat_length]
  exact
    { distinct := distinct
      numbered := numbered
      pending := fun _ => ⟨_, attempt, promise, atEnd, unsettled⟩
      single := by
        intro index other atIndex otherUnsettled
        rw [attempts, getElem?_concat_eq_some_iff] at atIndex
        rcases atIndex with earlier | ⟨rfl, -⟩
        · rw [isSettled index other earlier] at otherUnsettled
          cases otherUnsettled
        · exact ⟨connecting, promise⟩
      called := by
        intro index other atIndex
        rw [attempts, getElem?_concat_eq_some_iff] at atIndex
        rw [calls]
        rcases atIndex with earlier | ⟨rfl, rfl⟩
        · obtain ⟨config, member⟩ := invariant.called index other earlier
          exact ⟨config, List.mem_append_left _ member⟩
        · exact ⟨_, List.mem_append_right _ List.mem_cons_self⟩
      joined := by
        intro config index member
        rw [calls] at member
        rcases List.mem_append.mp member with earlier | isNew
        · obtain ⟨other, atIndex, same⟩ := invariant.joined config index earlier
          refine ⟨other, ?_, same⟩
          rw [attempts, getElem?_concat_eq_some_iff]
          exact .inl atIndex
        · cases List.mem_singleton.mp isNew
          exact ⟨attempt, atEnd, rfl⟩
      supports := by
        intro other member
        rw [attempts] at member
        rcases List.mem_append.mp member with earlier | isNew
        · obtain ⟨index, atIndex⟩ := List.mem_iff_getElem?.mp earlier
          exact (invariant.supports other earlier).of_settled
            (isSettled index other atIndex) next
        · rw [List.mem_singleton.mp isNew]
          exact supports
      returned := by
        intro config result member
        rw [calls] at member
        rcases List.mem_append.mp member with earlier | isNew
        · exact invariant.returned config result earlier
        · cases List.mem_singleton.mp isNew
      owned := owned
      closing := by
        intro last
        exact absurd last (not_lastIsDisconnect_concat_connect calls) }

/-- A new attempt awaits the disconnect of an earlier provider, or has its own. -/
theorem Invariant.startAttempt
    (invariant : chain.Invariant)
    (idle : chain.isConnecting = false)
    (notConnected : chain.connectedApi = none)
    (config : ChainConfig) :
    (chain.startAttempt config).Invariant := by
  have awaited : ∀ provider ∈ chain.openProviders, chain.Awaits provider :=
    fun provider isOpen =>
      invariant.awaits_of_not_connected idle notConnected isOpen
  unfold ChainModule.startAttempt
  cases isProvider : chain.providerInstance with
  | some provider =>
      refine invariant.of_started idle rfl rfl rfl rfl rfl invariant.distinct
        ?_ ?_ ?_
      · intro other mentions
        apply invariant.numbered other
        rw [Mentions, awaits_concat_connect_iff rfl] at mentions
        rw [Mentions, isProvider]
        exact mentions
      · exact fun other named => (Option.some.inj named).symm
      · intro other isOpen
        rw [Owned, awaits_concat_connect_iff rfl]
        exact .inl (awaited other isOpen)
  | none =>
      refine invariant.of_started idle rfl rfl rfl rfl rfl
        (invariant.distinct_openProvider config.endpoint) ?_ ?_ ?_
      · intro other mentions
        apply invariant.numbered_openProvider config.endpoint other
        rw [Mentions, awaits_concat_connect_iff rfl] at mentions
        exact mentions
      · have serves := @serves_openProvider chain
          { config := config
            stage := .creating (chain.newProvider config.endpoint) }
        exact ⟨serves.endpoint, serves.constructed, serves.only⟩
      · intro other isOpen
        rw [Owned, awaits_concat_connect_iff rfl]
        rcases List.mem_append.mp isOpen with wasOpen | isNew
        · exact .inl (awaited other wasOpen)
        · rw [List.mem_singleton.mp isNew]
          exact .inr (.inr ⟨_, List.mem_append_right _ List.mem_cons_self, rfl⟩)

/-- A `connect` reuses the connected API, joins the pending attempt, or starts its
own. -/
theorem Invariant.connect
    (invariant : chain.Invariant)
    {config : ChainConfig}
    (orderly : chain.Orderly (.connect config)) :
    (chain.connect config).Invariant := by
  cases connected : chain.connectedApi with
  | some api =>
      have sameEndpoint : api.provider.endpoint = config.endpoint := by
        apply orderly
        rw [reusedEndpoint, connected]
      have isNext : chain.connect config = { chain with
          calls := chain.calls ++
            [.connect config (.returned { api := some api, connected := true })] } := by
        rw [ChainModule.connect, connected]
      apply invariant.concat_connect _ _ isNext
      · rintro result ⟨⟩
        exact ⟨api, rfl, sameEndpoint, rfl⟩
      · rintro index ⟨⟩
  | none =>
      cases connecting : chain.isConnecting with
      | false =>
          have isNext : chain.connect config = chain.startAttempt config := by
            simp only [ChainModule.connect, connected, connecting]
          rw [isNext]
          exact invariant.startAttempt connecting connected config
      | true =>
          obtain ⟨index, attempt, isPromise, atIndex, -⟩ :=
            invariant.pending connecting
          have sameEndpoint : attempt.config.endpoint = config.endpoint := by
            apply orderly
            rw [reusedEndpoint, connected, connecting, isPromise]
            simp [atIndex]
          have isNext : chain.connect config = { chain with
              calls := chain.calls ++ [.connect config (.promise index)] } := by
            simp only [ChainModule.connect, connected, connecting, isPromise]
          apply invariant.concat_connect _ _ isNext
          · rintro result ⟨⟩
          · rintro joined ⟨⟩
            exact ⟨attempt, atIndex, sameEndpoint⟩

theorem providerStage_awaits_iff
    (provider : WsProvider) :
    chain.providerStage.awaits provider = true ↔
      chain.providerInstance = some provider := by
  unfold providerStage
  cases chain.providerInstance <;> simp [DisconnectStage.awaits]

/-- When a `disconnect` starts, it closes the provider of `apiInstance`, and that of
`providerInstance` at once or later. -/
theorem Invariant.disconnect
    (invariant : chain.Invariant)
    (orderly : chain.Orderly .disconnect) :
    chain.disconnect.Invariant := by
  unfold ChainModule.disconnect
  generalize isStage : (match chain.apiInstance with
    | some api => DisconnectStage.closingApi api.provider
    | none => chain.providerStage) = stage
  have awaits : ∀ provider,
      ChainModule.Awaits { chain with
        calls := chain.calls ++ [.disconnect stage] } provider ↔
        chain.Awaits provider ∨ stage.awaits provider = true :=
    @awaits_concat_iff chain _ (.disconnect stage) rfl
  have mentioned : ∀ provider, stage.awaits provider = true ->
      chain.Mentions provider := by
    intro provider isAwaited
    rw [← isStage] at isAwaited
    cases isApi : chain.apiInstance with
    | some api =>
        rw [isApi] at isAwaited
        obtain rfl : api.provider = provider := of_decide_eq_true isAwaited
        exact .inr (.inl isApi)
    | none =>
        rw [isApi] at isAwaited
        exact .inr (.inr (.inl ((providerStage_awaits_iff provider).mp isAwaited)))
  exact
    { distinct := invariant.distinct
      numbered := by
        intro provider mentions
        apply invariant.numbered provider
        rw [Mentions, awaits] at mentions
        rcases mentions with isOpen | isApi | isProvider | awaited | isAwaited
        · exact .inl isOpen
        · exact .inr (.inl isApi)
        · exact .inr (.inr (.inl isProvider))
        · exact .inr (.inr (.inr awaited))
        · exact mentioned provider isAwaited
      pending := invariant.pending
      single := invariant.single
      called := by
        intro index attempt atIndex
        obtain ⟨config, member⟩ := invariant.called index attempt atIndex
        exact ⟨config, List.mem_append_left _ member⟩
      joined := by
        intro config index member
        apply invariant.joined config index
        simpa using member
      supports := by
        intro attempt member
        refine (invariant.supports attempt member).of_released rfl rfl rfl ?_
        intro provider released isOpen
        exact (awaits provider).mpr (.inl (released isOpen))
      returned := by
        intro config result member
        apply invariant.returned config result
        simpa using member
      owned := by
        intro provider isOpen
        rw [Owned, awaits]
        exact (invariant.owned provider isOpen).imp_left .inl
      closing := by
        intro _ provider isOpen
        rw [Doomed, awaits]
        rcases orderly provider isOpen with awaited | isApi | isProvider
        · exact .inl (.inl awaited)
        · rw [isApi] at isStage
          rw [← isStage]
          exact .inl (.inr (decide_eq_true rfl))
        · cases isApi : chain.apiInstance with
          | some api =>
              rw [isApi] at isStage
              refine .inr ⟨isProvider, .disconnect stage,
                List.mem_append_right _ List.mem_cons_self, ?_⟩
              rw [← isStage]
              rfl
          | none =>
              rw [isApi] at isStage
              rw [← isStage]
              exact .inl (.inr ((providerStage_awaits_iff provider).mpr isProvider)) }

/-! ### Closing a provider -/

/-- A provider may close at any time. -/
theorem Invariant.closeProvider
    (invariant : chain.Invariant)
    (provider : WsProvider) :
    (chain.closeProvider provider).Invariant := by
  have wasOpen : ∀ other ∈ (chain.closeProvider provider).openProviders,
      other ∈ chain.openProviders :=
    fun other isOpen => (List.mem_filter.mp isOpen).1
  exact
    { distinct := invariant.distinct.filter _
      numbered := by
        intro other mentions
        exact invariant.numbered other (mentions.imp_left (wasOpen other))
      pending := invariant.pending
      single := invariant.single
      called := invariant.called
      joined := invariant.joined
      supports := by
        intro attempt member
        refine (invariant.supports attempt member).of_released rfl rfl rfl ?_
        intro other released isOpen
        exact released (wasOpen other isOpen)
      returned := invariant.returned
      owned := fun other isOpen => invariant.owned other (wasOpen other isOpen)
      closing := fun last other isOpen =>
        invariant.closing last other (wasOpen other isOpen) }

theorem ne_of_mem_closeProvider
    {provider other : WsProvider}
    (isOpen : other ∈ (chain.closeProvider provider).openProviders) :
    other ≠ provider :=
  of_decide_eq_true (List.mem_filter.mp isOpen).2

theorem Invariant.closes
    (invariant : chain.Invariant)
    (provider : WsProvider) :
    (chain.closes provider).Invariant := by
  unfold ChainModule.closes
  split
  · exact invariant.closeProvider provider
  · exact invariant

/-! ### Resuming an attempt -/

/-- The pending attempt goes on to another stage. -/
theorem Invariant.of_advanced
    (invariant : chain.Invariant)
    {index : Nat}
    {attempt : Attempt}
    (atIndex : chain.attempts[index]? = some attempt)
    (unsettled : attempt.stage.settled = false)
    {next : ChainModule}
    {stage : AttemptStage}
    (calls : next.calls = chain.calls)
    (attempts : next.attempts =
      chain.attempts.set index { attempt with stage := stage })
    (connecting : next.isConnecting = !stage.settled)
    (promise : stage.settled = false -> next.connectionPromise = some index)
    (distinct : next.openProviders.Nodup)
    (numbered : ∀ provider, next.Mentions provider ->
      provider.number < next.constructed)
    (supports : next.Supports { attempt with stage := stage })
    (owned : ∀ provider ∈ next.openProviders, next.Owned provider)
    (closing : next.LastIsDisconnect ->
      ∀ provider ∈ next.openProviders, next.Doomed provider) :
    next.Invariant := by
  have found : ∀ (position : Nat) (other : Attempt),
      next.attempts[position]? = some other ↔
        position = index ∧ other = { attempt with stage := stage } ∨
          position ≠ index ∧ chain.attempts[position]? = some other := by
    intro position other
    rw [attempts]
    exact getElem?_set_eq_some_iff atIndex _ _ _
  -- the other attempts are settled
  have othersSettled : ∀ (position : Nat) (other : Attempt), position ≠ index ->
      chain.attempts[position]? = some other -> other.stage.settled = true := by
    intro position other different atPosition
    rw [← Bool.not_eq_false]
    intro otherUnsettled
    exact different
      (invariant.single_attempt atPosition atIndex otherUnsettled unsettled).1
  exact
    { distinct := distinct
      numbered := numbered
      pending := by
        intro isConnecting
        rw [connecting, Bool.not_eq_true'] at isConnecting
        exact ⟨index, _, promise isConnecting,
          (found index _).mpr (.inl ⟨rfl, rfl⟩), isConnecting⟩
      single := by
        intro position other atPosition otherUnsettled
        rcases (found position other).mp atPosition with
          ⟨rfl, rfl⟩ | ⟨different, wasThere⟩
        · exact ⟨connecting.trans (congrArg not otherUnsettled),
            promise otherUnsettled⟩
        · rw [othersSettled position other different wasThere] at otherUnsettled
          cases otherUnsettled
      called := by
        intro position other atPosition
        rw [calls]
        rcases (found position other).mp atPosition with
          ⟨rfl, -⟩ | ⟨-, wasThere⟩
        · exact invariant.called position attempt atIndex
        · exact invariant.called position other wasThere
      joined := by
        intro config position member
        rw [calls] at member
        obtain ⟨other, wasThere, same⟩ := invariant.joined config position member
        by_cases isIndex : position = index
        · rw [isIndex, atIndex] at wasThere
          cases wasThere
          exact ⟨_, (found position _).mpr (.inl ⟨isIndex, rfl⟩), same⟩
        · exact ⟨other, (found position other).mpr (.inr ⟨isIndex, wasThere⟩),
            same⟩
      supports := by
        intro other member
        obtain ⟨position, atPosition⟩ := List.mem_iff_getElem?.mp member
        rcases (found position other).mp atPosition with
          ⟨-, rfl⟩ | ⟨different, wasThere⟩
        · exact supports
        · exact (invariant.supports other (List.mem_of_getElem? wasThere)).of_settled
            (othersSettled position other different wasThere) next
      returned := by
        rw [calls]
        exact invariant.returned
      owned := owned
      closing := closing }

/-- The pending attempt goes on with the API on its provider. -/
theorem Invariant.of_continued
    (invariant : chain.Invariant)
    {index : Nat}
    {attempt : Attempt}
    (atIndex : chain.attempts[index]? = some attempt)
    {provider : WsProvider}
    (has : attempt.stage.provider = some provider)
    (serves : chain.Serves attempt provider)
    {api : Option ApiPromise}
    (isApi : api = some { provider := provider })
    {stage : AttemptStage}
    (isStage : stage = .waitingReady { provider := provider } ∨
      stage = .readingChain { provider := provider }) :
    ({ chain with apiInstance := api }.setStage index attempt stage).Invariant := by
  have keeps : stage.provider = some provider := by
    rcases isStage with rfl | rfl <;> rfl
  have unsettled := unsettled_of_provider has
  have stillUnsettled := unsettled_of_provider keeps
  obtain ⟨connecting, promise⟩ := invariant.single index attempt atIndex unsettled
  refine invariant.of_advanced atIndex unsettled rfl rfl ?_ (fun _ => promise)
    invariant.distinct ?_ ?_ ?_ invariant.closing
  · rw [stillUnsettled]
    exact connecting
  · rintro other (isOpen | named | rest)
    · exact invariant.numbered other (.inl isOpen)
    · obtain rfl : provider = other := by
        rw [isApi] at named
        exact congrArg ApiPromise.provider (Option.some.inj named)
      exact serves.constructed
    · exact invariant.numbered other (.inr (.inr rest))
  · rcases isStage with rfl | rfl
    all_goals
      exact ⟨⟨serves.endpoint, serves.constructed, serves.only⟩, .inl isApi⟩
  · intro other isOpen
    rcases invariant.owned_of_unsettled atIndex unsettled isOpen with
      awaited | isOwn
    · exact .inl awaited
    · obtain rfl := Option.some.inj (has.symm.trans isOwn)
      exact .inr (.inr ⟨_, List.mem_set (List.getElem?_eq_some_iff.mp atIndex).1 _,
        keeps⟩)

/-- After the first await of an attempt only its own provider is in
`providerInstance`. -/
theorem Invariant.of_disconnected
    (invariant : chain.Invariant)
    {index : Nat}
    {attempt : Attempt}
    (atIndex : chain.attempts[index]? = some attempt)
    {provider : WsProvider}
    (isStage : attempt.stage = .disconnecting provider)
    (closed : provider ∉ chain.openProviders)
    (closesLater : chain.LastIsDisconnect -> chain.ReadsProvider) :
    ((chain.openProvider attempt.config.endpoint).setStage index attempt
      (.creating (chain.newProvider attempt.config.endpoint))).Invariant := by
  have unsettled : attempt.stage.settled = false :=
    congrArg AttemptStage.settled isStage
  have only := invariant.supports attempt (List.mem_of_getElem? atIndex)
  rw [Supports, isStage] at only
  obtain ⟨connecting, promise⟩ := invariant.single index attempt atIndex unsettled
  have serves := @serves_openProvider chain attempt
  refine invariant.of_advanced atIndex unsettled rfl rfl connecting
    (fun _ => promise) (invariant.distinct_openProvider attempt.config.endpoint)
    (invariant.numbered_openProvider attempt.config.endpoint)
    ⟨serves.endpoint, serves.constructed, serves.only⟩ ?_ ?_
  · intro other isOpen
    rcases List.mem_append.mp isOpen with wasOpen | isNew
    · rcases invariant.owned_of_unsettled atIndex unsettled wasOpen with
        awaited | isOwn
      · exact .inl awaited
      · rw [isStage] at isOwn
        cases isOwn
    · rw [List.mem_singleton.mp isNew]
      exact .inr (.inr ⟨_, List.mem_set (List.getElem?_eq_some_iff.mp atIndex).1 _,
        rfl⟩)
  · intro last other isOpen
    rcases List.mem_append.mp isOpen with wasOpen | isNew
    · rcases invariant.closing last other wasOpen with awaited | ⟨named, -⟩
      · exact .inl awaited
      · rw [only other named] at wasOpen
        exact absurd wasOpen closed
    · rw [List.mem_singleton.mp isNew]
      exact .inr ⟨rfl, closesLater last⟩

/-- An attempt that fails loses no open provider. -/
theorem Invariant.failAttempt
    (invariant : chain.Invariant)
    {index : Nat}
    {attempt : Attempt}
    (atIndex : chain.attempts[index]? = some attempt)
    {provider : WsProvider}
    (has : attempt.stage.provider = some provider)
    (released : chain.Released provider)
    (error : String) :
    (chain.failAttempt index attempt error).Invariant := by
  have unsettled := unsettled_of_provider has
  have awaited : ∀ other ∈ chain.openProviders, chain.Awaits other := by
    intro other isOpen
    rcases invariant.owned_of_unsettled atIndex unsettled isOpen with
      awaited | isOwn
    · exact awaited
    · obtain rfl := Option.some.inj (has.symm.trans isOwn)
      exact released isOpen
  refine invariant.of_advanced atIndex unsettled rfl rfl rfl ?_
    invariant.distinct ?_ trivial ?_ ?_
  · rintro ⟨⟩
  · rintro other (isOpen | named | named | isAwaited)
    · exact invariant.numbered other (.inl isOpen)
    · cases named
    · cases named
    · exact invariant.numbered other (.inr (.inr (.inr isAwaited)))
  · exact fun other isOpen => .inl (awaited other isOpen)
  · exact fun _ other isOpen => .inl (awaited other isOpen)

/-- The last await of an attempt resolves it with the API on its provider. -/
theorem Invariant.of_fulfilled
    (invariant : chain.Invariant)
    {index : Nat}
    {attempt : Attempt}
    (atIndex : chain.attempts[index]? = some attempt)
    {api : ApiPromise}
    (isStage : attempt.stage = .readingChain api)
    (connected : chain.isConnected = true) :
    ({ chain with
        isConnecting := false
        connectionPromise := none }.setStage index attempt
      (.fulfilled
        { api := chain.apiInstance
          connected := chain.connectedApi.isSome })).Invariant := by
  have has : attempt.stage.provider = some api.provider :=
    congrArg AttemptStage.provider isStage
  have unsettled := unsettled_of_provider has
  have supports := invariant.supports attempt (List.mem_of_getElem? atIndex)
  rw [Supports, isStage] at supports
  obtain ⟨serves, holds⟩ := supports
  have isApi : chain.apiInstance = some api := by
    obtain ⟨current, isCurrent⟩ := Option.isSome_iff_exists.mp connected
    rcases holds with isApi | ⟨isNull, -⟩
    · exact isApi
    · rw [((connectedApi_eq_some_iff current).mp isCurrent).1] at isNull
      cases isNull
  refine invariant.of_advanced atIndex unsettled rfl rfl rfl ?_
    invariant.distinct invariant.numbered ?_ ?_ invariant.closing
  · rintro ⟨⟩
  · exact ⟨api, isApi, serves.endpoint, connected⟩
  · intro other isOpen
    rcases invariant.owned_of_unsettled atIndex unsettled isOpen with
      awaited | isOwn
    · exact .inl awaited
    · obtain rfl := Option.some.inj (has.symm.trans isOwn)
      exact .inr (.inl ⟨rfl, isApi⟩)

/-- An attempt keeps the invariant at each of its awaits. -/
theorem Invariant.resumeAttempt
    (invariant : chain.Invariant)
    {index : Nat}
    {answer : Except String Unit}
    (orderly : chain.Orderly (.resumeAttempt index answer)) :
    (chain.resumeAttempt index answer).Invariant := by
  unfold ChainModule.resumeAttempt
  cases atIndex : chain.attempts[index]? with
  | none => exact invariant
  | some attempt =>
      dsimp only
      have supports := invariant.supports attempt (List.mem_of_getElem? atIndex)
      have mayResume := orderly attempt atIndex
      unfold Supports at supports
      unfold MayResumeAttempt at mayResume
      cases isStage : attempt.stage with
      | disconnecting provider =>
          rw [isStage] at mayResume
          have closed : provider ∉ (chain.closeProvider provider).openProviders :=
            fun isOpen => ne_of_mem_closeProvider isOpen rfl
          exact (invariant.closeProvider provider).of_disconnected atIndex isStage
            closed mayResume
      | creating provider =>
          rw [isStage] at supports mayResume
          have has : attempt.stage.provider = some provider :=
            congrArg AttemptStage.provider isStage
          cases answer with
          | ok resolved =>
              exact invariant.of_continued atIndex has supports rfl (.inl rfl)
          | error error =>
              exact invariant.failAttempt atIndex has mayResume error
      | waitingReady api =>
          rw [isStage] at supports
          have has : attempt.stage.provider = some api.provider :=
            congrArg AttemptStage.provider isStage
          obtain ⟨serves, isApi | ⟨isNull, released⟩⟩ := supports
          · dsimp only
            rw [isApi]
            exact invariant.of_continued atIndex has serves isApi (.inr rfl)
          · dsimp only
            rw [isNull]
            exact invariant.failAttempt atIndex has released _
      | readingChain api =>
          rw [isStage] at mayResume
          have has : attempt.stage.provider = some api.provider :=
            congrArg AttemptStage.provider isStage
          cases answer with
          | ok resolved => exact invariant.of_fulfilled atIndex isStage mayResume
          | error error =>
              exact invariant.failAttempt atIndex has mayResume error
      | fulfilled result => exact invariant
      | rejected reason => exact invariant

/-! ### Resuming a disconnect -/

section Resumed

variable
  {next : ChainModule}
  {index : Nat}
  {old new : DisconnectStage}
  (found : chain.calls[index]? = some (.disconnect old))
  (calls : next.calls = chain.calls.set index (.disconnect new))

include found calls

/-- What the old stage did not await is still awaited. -/
theorem Awaits.of_set
    {provider : WsProvider}
    (awaited : chain.Awaits provider)
    (notOld : old.awaits provider = false) :
    next.Awaits provider := by
  obtain ⟨call, member, awaits⟩ := awaited
  obtain ⟨position, atPosition⟩ := List.mem_iff_getElem?.mp member
  refine ⟨call, ?_, awaits⟩
  rw [calls, List.mem_iff_getElem?]
  refine ⟨position,
    (getElem?_set_eq_some_iff found _ _ _).mpr (.inr ⟨?_, atPosition⟩)⟩
  rintro rfl
  obtain rfl := Option.some.inj (found.symm.trans atPosition)
  rw [ConnectionCall.awaits, notOld] at awaits
  cases awaits

/-- What is awaited was awaited before, or is what the new stage awaits. -/
theorem awaits_of_set
    {provider : WsProvider}
    (awaited : next.Awaits provider) :
    chain.Awaits provider ∨ new.awaits provider = true := by
  obtain ⟨call, member, awaits⟩ := awaited
  rw [calls, List.mem_iff_getElem?] at member
  obtain ⟨position, atPosition⟩ := member
  rcases (getElem?_set_eq_some_iff found _ _ _).mp atPosition with
    ⟨-, rfl⟩ | ⟨-, wasThere⟩
  · exact .inr awaits
  · exact .inl ⟨call, List.mem_of_getElem? wasThere, awaits⟩

/-- What the new stage awaits is awaited. -/
theorem awaits_of_new
    {provider : WsProvider}
    (awaits : new.awaits provider = true) :
    next.Awaits provider := by
  refine ⟨.disconnect new, ?_, awaits⟩
  rw [calls]
  exact List.mem_set (List.getElem?_eq_some_iff.mp found).1 _

/-- The calls are in the order of their start. -/
theorem lastIsDisconnect_of_set
    (last : next.LastIsDisconnect) :
    chain.LastIsDisconnect := by
  obtain ⟨stage, isLast⟩ := last
  rw [calls, List.getLast?_eq_getElem?, List.length_set] at isLast
  rcases (getElem?_set_eq_some_iff found _ _ _).mp isLast with
    ⟨isIndex, -⟩ | ⟨-, wasLast⟩
  · refine ⟨old, ?_⟩
    rw [List.getLast?_eq_getElem?, isIndex]
    exact found
  · refine ⟨stage, ?_⟩
    rw [List.getLast?_eq_getElem?]
    exact wasLast

theorem mem_connect_set_iff
    (config : ChainConfig)
    (answer : ConnectAnswer) :
    .connect config answer ∈ next.calls ↔
      .connect config answer ∈ chain.calls := by
  rw [calls]
  apply mem_set_iff_of_ne found
  · rintro ⟨⟩
  · rintro ⟨⟩

end Resumed

/-- A `disconnect` whose provider is closed goes on to another stage and changes the
two variables. -/
theorem Invariant.of_resumed
    (invariant : chain.Invariant)
    {index : Nat}
    {old new : DisconnectStage}
    (found : chain.calls[index]? = some (.disconnect old))
    (closed : ∀ provider ∈ chain.openProviders, old.awaits provider = false)
    {api : Option ApiPromise}
    {held : Option WsProvider}
    {next : ChainModule}
    (isNext : next =
      { chain with
        apiInstance := api
        providerInstance := held
        calls := chain.calls.set index (.disconnect new) })
    (mentions : ∀ provider, next.Mentions provider -> chain.Mentions provider)
    (only : ∀ other, held = some other -> chain.providerInstance = some other)
    (holdsApi : ∀ provider, chain.HoldsApi provider -> next.HoldsApi provider)
    (kept : ∀ provider ∈ chain.openProviders,
      chain.apiInstance = some { provider := provider } ->
        next.Awaits provider ∨ api = some { provider := provider })
    (read : chain.LastIsDisconnect -> ∀ provider ∈ chain.openProviders,
      chain.providerInstance = some provider -> next.Awaits provider) :
    next.Invariant := by
  have calls : next.calls = chain.calls.set index (.disconnect new) := by
    rw [isNext]
  have sameOpen : next.openProviders = chain.openProviders := by
    rw [isNext]
  have sameConstructed : next.constructed = chain.constructed := by
    rw [isNext]
  have stillAwaited : ∀ provider ∈ chain.openProviders, chain.Awaits provider ->
      next.Awaits provider :=
    fun provider isOpen awaited =>
      awaited.of_set found calls (closed provider isOpen)
  exact
    { distinct := sameOpen ▸ invariant.distinct
      numbered := by
        intro provider mentioned
        have before := invariant.numbered provider (mentions provider mentioned)
        rwa [isNext]
      pending := by
        rw [isNext]
        exact invariant.pending
      single := by
        rw [isNext]
        exact invariant.single
      called := by
        intro position attempt atPosition
        rw [isNext] at atPosition
        obtain ⟨config, member⟩ := invariant.called position attempt atPosition
        exact ⟨config, (mem_connect_set_iff found calls _ _).mpr member⟩
      joined := by
        intro config position member
        rw [isNext]
        exact invariant.joined config position
          ((mem_connect_set_iff found calls _ _).mp member)
      supports := by
        intro attempt member
        have wasMember : attempt ∈ chain.attempts := by
          rwa [isNext] at member
        refine (invariant.supports attempt wasMember).transfer ?_
          (Nat.le_of_eq sameConstructed.symm) holdsApi
        rw [isNext]
        exact only
      returned := by
        intro config result member
        exact invariant.returned config result
          ((mem_connect_set_iff found calls _ _).mp member)
      owned := by
        intro provider isOpen
        rw [sameOpen] at isOpen
        rcases invariant.owned provider isOpen with
          awaited | ⟨idle, isApi⟩ | serving
        · exact .inl (stillAwaited provider isOpen awaited)
        · rcases kept provider isOpen isApi with awaited | keepsApi
          · exact .inl awaited
          · rw [isNext]
            exact .inr (.inl ⟨idle, keepsApi⟩)
        · rw [isNext]
          exact .inr (.inr serving)
      closing := by
        intro last provider isOpen
        rw [sameOpen] at isOpen
        have wasLast := lastIsDisconnect_of_set found calls last
        rcases invariant.closing wasLast provider isOpen with
          awaited | ⟨named, -⟩
        · exact .inl (stillAwaited provider isOpen awaited)
        · exact .inl (read wasLast provider isOpen named) }

/-- A `disconnect` that closed its API goes on with `providerInstance`. -/
theorem Invariant.of_closedApi
    (invariant : chain.Invariant)
    {index : Nat}
    {provider : WsProvider}
    (found : chain.calls[index]? = some (.disconnect (.closingApi provider)))
    (keeps : ∀ api, chain.connectedApi = some api ->
      chain.Awaits api.provider ∨
        chain.providerInstance = some api.provider) :
    ChainModule.Invariant
      { chain.closeProvider provider with
        apiInstance := none
        calls := chain.calls.set index (.disconnect chain.providerStage) } := by
  generalize isNext : ({ chain.closeProvider provider with
    apiInstance := none
    calls := chain.calls.set index (.disconnect chain.providerStage) } :
      ChainModule) = next
  have calls : next.calls =
      chain.calls.set index (.disconnect chain.providerStage) := by
    rw [← isNext]
  have sameOpen : next.openProviders =
      (chain.closeProvider provider).openProviders := by
    rw [← isNext]
  have notOld : ∀ other ∈ (chain.closeProvider provider).openProviders,
      (DisconnectStage.closingApi provider).awaits other = false :=
    fun other isOpen => decide_eq_false (ne_of_mem_closeProvider isOpen).symm
  have stillAwaited : ∀ other ∈ (chain.closeProvider provider).openProviders,
      chain.Awaits other -> next.Awaits other :=
    fun other isOpen awaited => awaited.of_set found calls (notOld other isOpen)
  -- what `providerInstance` holds is awaited now
  have readNow : ∀ other, chain.providerInstance = some other ->
      next.Awaits other :=
    fun other named =>
      awaits_of_new found calls ((providerStage_awaits_iff other).mpr named)
  have kept : ∀ other ∈ (chain.closeProvider provider).openProviders,
      chain.apiInstance = some { provider := other } -> next.Awaits other := by
    intro other isOpen isApi
    have wasOpen := (List.mem_filter.mp isOpen).1
    rcases keeps _ ((connectedApi_eq_some_iff _).mpr ⟨isApi, wasOpen⟩) with
      awaited | named
    · exact stillAwaited other isOpen awaited
    · exact readNow other named
  apply (invariant.closeProvider provider).of_resumed found notOld isNext.symm
  · intro other mentions
    rw [← isNext] at mentions
    rcases mentions with isOpen | named | isProvider | isAwaited
    · exact .inl isOpen
    · cases named
    · exact .inr (.inr (.inl isProvider))
    · rcases awaits_of_set found rfl isAwaited with before | isNew
      · exact .inr (.inr (.inr before))
      · exact .inr (.inr (.inl ((providerStage_awaits_iff other).mp isNew)))
  · exact fun _ => id
  · intro other holds
    refine .inr ⟨by rw [← isNext], ?_⟩
    intro isOpen
    rw [sameOpen] at isOpen
    rcases holds with isApi | ⟨-, released⟩
    · exact kept other isOpen isApi
    · exact stillAwaited other isOpen (released isOpen)
  · exact fun other isOpen isApi => .inl (kept other isOpen isApi)
  · exact fun _ other _ named => readNow other named

/-- A `disconnect` that closed its provider has completed. -/
theorem Invariant.of_closedProvider
    (invariant : chain.Invariant)
    {index : Nat}
    {provider : WsProvider}
    (found : chain.calls[index]? =
      some (.disconnect (.closingProvider provider)))
    (lost : chain.LastIsDisconnect ->
      ∀ other, chain.providerInstance = some other -> chain.Released other) :
    ChainModule.Invariant
      { chain.closeProvider provider with
        providerInstance := none
        calls := chain.calls.set index (.disconnect .done) } := by
  generalize isNext : ({ chain.closeProvider provider with
    providerInstance := none
    calls := chain.calls.set index (.disconnect .done) } : ChainModule) = next
  have calls : next.calls = chain.calls.set index (.disconnect .done) := by
    rw [← isNext]
  have sameOpen : next.openProviders =
      (chain.closeProvider provider).openProviders := by
    rw [← isNext]
  have notOld : ∀ other ∈ (chain.closeProvider provider).openProviders,
      (DisconnectStage.closingProvider provider).awaits other = false :=
    fun other isOpen => decide_eq_false (ne_of_mem_closeProvider isOpen).symm
  apply (invariant.closeProvider provider).of_resumed found notOld isNext.symm
  · intro other mentions
    rw [← isNext] at mentions
    rcases mentions with isOpen | isApi | named | isAwaited
    · exact .inl isOpen
    · exact .inr (.inl isApi)
    · cases named
    · rcases awaits_of_set found rfl isAwaited with before | isNew
      · exact .inr (.inr (.inr before))
      · cases isNew
  · rintro other ⟨⟩
  · intro other holds
    refine holds.transfer ?_ ?_
    · rw [← isNext]
    · intro released isOpen
      rw [sameOpen] at isOpen
      have awaited : chain.Awaits other := released isOpen
      exact awaited.of_set found calls (notOld other isOpen)
  · exact fun other isOpen isApi => .inr isApi
  · intro last other isOpen named
    have wasOpen := (List.mem_filter.mp isOpen).1
    exact (lost last other named wasOpen).of_set found calls (notOld other isOpen)

/-- A `disconnect` keeps the invariant at each of its awaits. -/
theorem Invariant.resumeDisconnect
    (invariant : chain.Invariant)
    {index : Nat}
    (orderly : chain.Orderly (.resumeDisconnect index)) :
    (chain.resumeDisconnect index).Invariant := by
  unfold ChainModule.resumeDisconnect
  split
  · rename_i provider found
    exact invariant.of_closedApi found (orderly _ found)
  · rename_i provider found
    exact invariant.of_closedProvider found (orderly _ found)
  · exact invariant

/-! ## Runs -/

/-- Before the first call there is nothing. -/
theorem invariant_initial :
    ChainModule.Invariant {} where
  distinct := List.nodup_nil
  numbered := by
    rintro provider (isOpen | isApi | isProvider | ⟨call, member, -⟩)
    · exact absurd isOpen List.not_mem_nil
    · exact absurd isApi nofun
    · exact absurd isProvider nofun
    · exact absurd member List.not_mem_nil
  pending := by
    rintro ⟨⟩
  single := by
    rintro index attempt ⟨⟩
  called := by
    rintro index attempt ⟨⟩
  joined := by
    rintro config index ⟨⟩
  supports := by
    rintro attempt ⟨⟩
  returned := by
    rintro config result ⟨⟩
  owned := by
    rintro provider ⟨⟩
  closing := by
    rintro ⟨stage, ⟨⟩⟩

/-- **Step.**  An orderly event keeps the invariant. -/
theorem Invariant.step
    (invariant : chain.Invariant)
    {event : ConnectionEvent}
    (orderly : chain.Orderly event) :
    (chain.step event).Invariant := by
  cases event with
  | connect config => exact invariant.connect orderly
  | disconnect => exact invariant.disconnect orderly
  | closes provider => exact invariant.closes provider
  | resumeAttempt index answer => exact invariant.resumeAttempt orderly
  | resumeDisconnect index => exact invariant.resumeDisconnect orderly

end ChainModule

/-- **One connection.**  However the calls are interleaved, every state of a run of
orderly events has the single connection. -/
theorem singleConnection_throughout
    {events : List ConnectionEvent}
    (orderly : Allowed ChainModule.step ChainModule.Orderly {} events) :
    Throughout ChainModule.step ChainModule.SingleConnection {} events := by
  rw [throughout_iff_forall_split]
  rintro earlier later rfl
  have orderlyEarlier := ((allowed_append _ _ _ _ _).mp orderly).1
  have invariant := run_invariant ChainModule.Invariant
    (fun _ _ isOrderly holds => ChainModule.Invariant.step holds isOrderly)
    ChainModule.invariant_initial orderlyEarlier
  exact invariant.singleConnection

/-- A `disconnect` is called while a `connect` is pending, as in the connection
hook. -/
def hookEvents : List ConnectionEvent :=
  [.connect { endpoint := "ws://one" }, .resumeAttempt 0 (.ok ()), .disconnect,
    .closes { number := 0, endpoint := "ws://one" }, .resumeDisconnect 1,
    .resumeAttempt 0 (.ok ()), .resumeDisconnect 1]

/-- The overlap of the hook is orderly: the attempt is rejected and no connection is
left. -/
theorem singleConnection_throughout_hook :
    Throughout ChainModule.step ChainModule.SingleConnection {} hookEvents := by
  refine singleConnection_throughout
    ⟨?connect, ?created, ?disconnect, trivial, ?closedApi, ?ready, ?closedProvider,
      trivial⟩
  case connect =>
    intro endpoint reused
    cases reused
  case created =>
    intro attempt atIndex
    cases atIndex
    trivial
  case disconnect =>
    intro provider isOpen
    cases List.mem_singleton.mp isOpen
    exact .inr (.inl rfl)
  case closedApi =>
    intro stage found
    cases found
    intro api connected
    exact absurd ((ChainModule.connectedApi_eq_some_iff api).mp connected).2
      List.not_mem_nil
  case ready =>
    intro attempt atIndex
    cases atIndex
    trivial
  case closedProvider =>
    intro stage found
    cases found
    intro last provider named
    cases named

/-- A `disconnect` and a `connect` to another endpoint one after the other, as when the
configuration of the connection hook changes. -/
def reusedEvents : List ConnectionEvent :=
  [.connect { endpoint := "ws://one" }, .resumeAttempt 0 (.ok ()),
    .resumeAttempt 0 (.ok ()), .resumeAttempt 0 (.ok ()), .disconnect,
    .connect { endpoint := "ws://two" }]

/-- A `connect` whose `ApiPromise.create` is rejected, and a `disconnect`. -/
def rejectedEvents : List ConnectionEvent :=
  [.connect { endpoint := "ws://one" }, .resumeAttempt 0 (.error "Error: metadata"),
    .disconnect]

/-- A `disconnect` that is called while a `connect` awaits the closing of the earlier
provider, which an earlier `disconnect` awaits as well. -/
def overlappingEvents : List ConnectionEvent :=
  [.connect { endpoint := "ws://one" }, .resumeAttempt 0 (.ok ()),
    .resumeAttempt 0 (.ok ()), .resumeAttempt 0 (.ok ()), .disconnect,
    .resumeDisconnect 1, .connect { endpoint := "ws://one" }, .disconnect,
    .resumeAttempt 1 (.ok ()), .resumeDisconnect 1, .resumeDisconnect 3,
    .resumeAttempt 1 (.ok ()), .resumeAttempt 1 (.ok ()),
    .resumeAttempt 1 (.ok ())]

/-- A `connect` returns the API on another endpoint that is being closed, and a last
`disconnect` leaves a connection open after a rejected and after a pending
`connect`. -/
theorem singleConnection_breaks :
    ¬(chainAfter reusedEvents).SingleConnection ∧
      ¬(chainAfter rejectedEvents).SingleConnection ∧
      ¬(chainAfter overlappingEvents).SingleConnection := by
  refine ⟨?_, ?_, ?_⟩
  · intro single
    have member : .connect { endpoint := "ws://two" }
        (.returned
          { api := some { provider := { number := 0, endpoint := "ws://one" } }
            connected := true }) ∈ (chainAfter reusedEvents).calls := by
      decide
    obtain ⟨api, isApi, endpoint, -⟩ := single.returned _ _ member _ rfl
    cases isApi
    exact absurd endpoint (by decide)
  · intro single
    have isEmpty := single.closed (by decide) ⟨.done, by decide⟩
    exact absurd isEmpty (by decide)
  · intro single
    have isEmpty := single.closed (by decide) ⟨.done, by decide⟩
    exact absurd isEmpty (by decide)

end Client
end Privachain
