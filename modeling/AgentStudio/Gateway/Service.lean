import AgentStudio.Gateway.Quota
import AgentStudio.Gateway.Router

/-!
# The gateway service

`gateway/service.py`: `generate` and `_stream_impl`, with every awaited call and
every `yield` a call to the environment, which may answer, raise or cancel it.
Metrics and logging are left out: they never raise and nothing reads them.
-/

namespace AgentStudio.Gateway
open Async Quota

/-- `_request_key`: the canonical JSON of the messages, tools and output schema
determines the three. -/
structure RequestKey where
  messages : List Message
  tools : List Schema
  structuredOutput : Option Schema
  deriving DecidableEq

/-- `CachedEntry`. -/
structure CachedEntry where
  provider : String
  model : String
  content : String
  usage : Usage
  finishReason : Option String := none
  toolCalls : Option (List ToolCall) := none
  deriving DecidableEq

/-- `LLMResponse`; an empty model name stands for an absent one. -/
structure LLMResponse where
  content : String
  model : String := ""
  usage : Usage := []
  finishReason : Option String := none
  toolCalls : Option (List ToolCall) := none

/-- The `type` of an adapter's stream event; `other` is any name the gateway does
not know. -/
inductive AdapterEventType where
  | delta | toolUseStart | toolUseDelta | toolUseEnd | usage | done | error | other
  deriving DecidableEq

/-- `LLMStreamEvent`. -/
structure LLMStreamEvent where
  type : AdapterEventType
  content : String := ""
  index : Option Nat := none
  id : String := ""
  name : String := ""
  arguments : String := ""
  usage : Usage := []
  finishReason : Option String := none
  error : String := ""

/-- What an adapter's stream delivers: its events, then its end or what was
raised while the next one was awaited. -/
structure Script where
  events : List LLMStreamEvent
  ending : Option Raised := none

/-- `UsageRecord`. -/
structure UsageRecord where
  tenantId : String
  provider : String
  model : String
  inputTokens : ℤ
  outputTokens : ℤ
  reasoningTokens : ℤ
  cachedTokens : ℤ
  usd : ℚ
  surfaceId : Option String
  endUserId : Option String
  conversationId : Option String
  sessionId : Option String
  requestId : String

/-- The calls that leave the gateway. `emit` is a `yield` of the stream. -/
inductive Op where
  | reserve (args : ReserveArgs)
  | reconcile (reservation : Option Reservation) (actualUsd : ℚ)
  | release (reservation : Option Reservation)
  | getExact (tenantId promptVersion : String) (key : RequestKey)
  | setExact (tenantId promptVersion : String) (key : RequestKey) (entry : CachedEntry)
  | resolveKey (tenant : TenantConfig)
  | isAvailable (d : Deployment)
  | recordSuccess (d : Deployment)
  | recordFailure (d : Deployment)
  | getAdapter (d : Deployment) (request : Request) (apiKey : String)
  | chat (d : Deployment) (messages : List Message) (timeout : ℚ)
  | openStream (d : Deployment) (messages : List Message) (timeout : ℚ)
  | aclose
  | ledger (record : UsageRecord)
  | emit (event : StreamEvent)

abbrev Calls : Interface where
  Op := Op
  Ans
    | .reserve _ => Option Reservation
    | .getExact .. => Option CachedEntry
    | .resolveKey _ => String
    | .isAvailable _ => Bool
    | .chat .. => LLMResponse
    | .openStream .. => Script
    | _ => Unit

/-- The gateway with its collaborators. `latencies n` is the latency table at the
`n`-th look at it, since other requests update it in between. -/
structure Service where
  router : Router := {}
  defaultCatalog : Catalog := Catalog.seed
  latencies : Nat → Latencies := fun _ _ => 0
  window : String := ""
  uuid : String := ""
  decodeObject : String → Option String := some

/-- `quota_limits_from_cfg`. -/
def quotaLimits (cfg : Cfg) : Limits where
  platformUsd := cfg.quotaPlatformUsd.getD 0
  tenantUsd := cfg.quotaTenantUsd.getD 0
  surfaceUsd := cfg.quotaSurfaceUsd.getD 0
  endUserUsd := cfg.quotaEndUserUsd.getD 0

def requestKey (request : Request) : RequestKey :=
  ⟨request.messages, request.tools, request.structuredOutput⟩

/-- `request.timeout_seconds or float(budgets.get("llm_timeout_seconds") or 60.0)`. -/
def callTimeout (request : Request) (tenant : TenantConfig) : ℚ :=
  match request.timeoutSeconds.filter (· ≠ 0) with
  | some t => t
  | none => (tenant.llmTimeoutSeconds.filter (· ≠ 0)).getD 60

/-- The exact cache serves requests without tools and without output schema. -/
def cacheable (request : Request) (cfg : Cfg) : Bool :=
  cfg.caching && request.tools.isEmpty && request.structuredOutput.isNone

/-- `ProviderCallError`. -/
structure ProviderCallError where
  failureClass : FailureClass
  provider : String
  model : String
  cause : String
  deriving DecidableEq

def ProviderCallError.of (e : Raised) (d : Deployment) : ProviderCallError :=
  ⟨classifyFailure e.text, d.1, d.2, e.text⟩

section
variable (gw : Service) (request : Request) (tenant : TenantConfig) (cfg : Cfg)

/-- `router.candidates` at the `n`-th look at the latency table. -/
def candidatesAt (n : Nat) : List Deployment :=
  gw.router.candidates (gw.latencies n) request cfg

/-- `_estimate_max_spend`. -/
def estimateMaxSpend (candidates : List Deployment) : ℚ :=
  match request.estimatedInputTokens with
  | none | some 0 => 0
  | some tokens =>
    match candidates.filterMap fun d => gw.router.catalog.estimateCost d tokens 1024 with
    | [] => 0
    | cost :: costs => costs.foldl max cost

def reserveArgs : ReserveArgs where
  limits := quotaLimits cfg
  tenantId := tenant.id
  surfaceId := request.surfaceId
  endUserId := request.endUserId
  estimatedUsd := estimateMaxSpend gw request (candidatesAt gw request cfg 0)
  requestId := request.requestId
  uuid := gw.uuid
  window := gw.window

def fallbackChain (candidates : List Deployment) : FallbackChain where
  request := request
  candidates := candidates
  cfg := cfg
  crossFamily := cfg.crossFamilyFallback
  defaultCatalog := gw.defaultCatalog

/-- `_result_usd`. -/
def resultUsd (result : Result) : ℚ :=
  (gw.router.catalog.estimateCost (result.provider, result.model)
    (result.usage.count "input_tokens") (result.usage.count "output_tokens")).getD 0

def usageRecord (result : Result) : UsageRecord where
  tenantId := request.tenantId
  provider := result.provider
  model := result.model
  inputTokens := result.usage.count "input_tokens"
  outputTokens := result.usage.count "output_tokens"
  reasoningTokens := result.usage.count "reasoning_tokens"
  cachedTokens := result.usage.count "cached_tokens"
  usd := resultUsd gw result
  surfaceId := request.surfaceId
  endUserId := request.endUserId
  conversationId := request.conversationId
  sessionId := request.sessionId
  requestId := request.requestId

def toCached (result : Result) : CachedEntry :=
  ⟨result.provider, result.model, result.content, result.usage, result.finishReason,
    result.toolCalls⟩

/-- `_from_cache`. -/
def fromCache (entry : CachedEntry) : Result where
  content := entry.content
  model := entry.model
  provider := entry.provider
  usage := entry.usage
  finishReason := entry.finishReason
  toolCalls := entry.toolCalls
  routedVia := "cache:" ++ entry.provider ++ ":" ++ entry.model
  attempts := 0
  cached := true

section
variable {σ : Type}

/-- `try: c except Exception: pass`. -/
def suppress (c : Coro Calls Raised σ Unit) : Coro Calls Raised σ Unit :=
  tryCatch c fun e => if e.isException then pure () else throw e

/-- The availability snapshot of `_decide`. -/
def snapshot : List Deployment → Coro Calls Raised σ (List (Deployment × Bool))
  | [] => pure []
  | d :: ds => do
    let up ← Coro.call (I := Calls) (.isAvailable d)
    let rest ← snapshot ds
    pure ((d, up) :: rest)

/-- `_decide`. A later answer for one deployment replaces an earlier one. -/
def decide : Coro Calls Raised σ Deployment := do
  let snap ← snapshot (candidatesAt gw request cfg 1)
  pure (Router.decide (candidatesAt gw request cfg 2) fun d => (snap.reverse.lookup d).getD true)

/-- `_attempt`: a provider failure is an outcome, not an exception. -/
def attempt (apiKey : String) (d : Deployment) :
    Coro Calls Raised σ (Except ProviderCallError Result) :=
  tryCatch
    (do
      Coro.call (I := Calls) (.getAdapter d request apiKey)
      let response ← Coro.call (I := Calls) (.chat d request.messages (callTimeout request tenant))
      pure (.ok {
        content := response.content
        model := if response.model = "" then d.2 else response.model
        provider := d.1
        usage := response.usage
        finishReason := response.finishReason
        toolCalls := response.toolCalls
        routedVia := d.1 ++ ":" ++ d.2
        attempts := 1 }))
    fun e =>
      if e.isQuotaExceeded then throw e
      else if e.isException then pure (.error (.of e d))
      else throw e

/-- `_after_success`: the cost ledger and the exact cache, failures logged. -/
def afterSuccess (result : Result) : Coro Calls Raised σ Unit := do
  suppress (Coro.call (I := Calls) (.ledger (usageRecord gw request result)))
  if cacheable request cfg then
    suppress (Coro.call (I := Calls)
      (.setExact request.tenantId cfg.promptVersion (requestKey request) (toCached result)))

end

/-! ## `generate` -/

/-- The local variables of `_execute_chain`. -/
structure ChainVars where
  targets : List Deployment
  seen : List Deployment := []
  lastError : Option ProviderCallError := none
  attempts : Nat := 0

/-- One pass of `while targets`; leaves with `none` when there are none. -/
def chainRound (chain : FallbackChain) (apiKey : String) (reservation : Option Reservation) :
    Coro Calls Raised ChainVars (Option (Option Result)) := do
  match (← get).targets with
  | [] => pure (some none)
  | d :: rest =>
    modify fun v => { v with targets := rest }
    if d ∈ (← get).seen then pure none
    else
      modify fun v => { v with seen := v.seen ++ [d], attempts := v.attempts + 1 }
      match ← attempt request tenant apiKey d with
      | .ok result =>
        Coro.call (I := Calls) (.recordSuccess d)
        Coro.call (I := Calls) (.reconcile reservation (resultUsd gw result))
        afterSuccess gw request cfg result
        pure (some (some result))
      | .error failure =>
        modify fun v => { v with lastError := some failure }
        Coro.call (I := Calls) (.recordFailure d)
        modify fun v => { v with
          targets := (chain.targets failure.failureClass).filter (· ∉ v.seen) }
        pure none

/-- Each pass sees one more deployment, so this many passes are enough. -/
def chainFuel (chain : FallbackChain) : Nat := chain.allTargets.length + 3

/-- What `_execute_chain` raises when every target failed. -/
def exhausted (v : ChainVars) : Raised :=
  match v.lastError with
  | some failure => .chainExhausted failure.provider failure.model failure.cause
      failure.failureClass v.attempts
  | none => .configuration "no deployments to try"

/-- The `try` block of `_execute_chain` and what follows it. -/
def runChain (chain : FallbackChain) (apiKey : String) (reservation : Option Reservation) :
    Coro Calls Raised ChainVars Result := do
  let found ← tryCatch
    (do
      match ← Coro.iterate (chainRound gw request tenant cfg chain apiKey reservation)
          (chainFuel chain) with
      | none => throw .outOfFuel
      | some found => pure found)
    fun e =>
      if e.isException then do
        Coro.call (I := Calls) (.release reservation)
        throw e
      else throw e
  match found with
  | some result => pure result
  | none =>
    Coro.call (I := Calls) (.release reservation)
    throw (exhausted (← get))

/-- `_execute_chain`. -/
def executeChain (apiKey : String) (reservation : Option Reservation) :
    Coro Calls Raised Unit Result := do
  let decision ← decide gw request cfg
  let chain := fallbackChain gw request cfg (candidatesAt gw request cfg 3)
  Coro.scope (runChain gw request tenant cfg chain apiKey reservation) { targets := [decision] }

/-- The exact-cache check of `generate`. -/
def lookupExact : Coro Calls Raised Unit (Option CachedEntry) :=
  if cacheable request cfg then
    Coro.call (I := Calls) (.getExact tenant.id cfg.promptVersion (requestKey request))
  else pure none

/-- `generate`. -/
def generate : Coro Calls Raised Unit Result := do
  let reservation ← Coro.call (I := Calls) (.reserve (reserveArgs gw request tenant cfg))
  match ← lookupExact request tenant cfg with
  | some entry =>
    Coro.call (I := Calls) (.release reservation)
    pure (fromCache entry)
  | none =>
    let apiKey ← Coro.call (I := Calls) (.resolveKey tenant)
    executeChain gw request tenant cfg apiKey reservation

/-! ## `_stream_impl` -/

/-- The local variables of `_stream_impl`. -/
structure StreamVars where
  reservation : Option Reservation := none
  finalized : Bool := false
  opened : Bool := false
  targets : List Deployment := []
  seen : List Deployment := []
  lastError : Option ProviderCallError := none
  emitted : Bool := false
  usage : Usage := []
  finishReason : Option String := none
  parts : List String := []
  toolAcc : List (Nat × ToolEntry) := []

/-- `_decode_args`: no text is the empty object. -/
def decodeArgs (raw : String) : Option Args :=
  if raw = "" then some (.object "{}") else (gw.decodeObject raw).map .object

/-- `_finalize_tool_calls`: all of them by index, or none when one is unusable. -/
def finalizeToolCalls (toolAcc : List (Nat × ToolEntry)) : Option (List ToolCall) :=
  let sorted := toolAcc.insertionSort fun a b => a.1 ≤ b.1
  let calls := sorted.mapM fun (_, entry) =>
    if entry.id = "" ∨ entry.name = "" then none
    else (decodeArgs gw entry.args).map fun arguments => ToolCall.mk entry.id entry.name arguments
  calls.filter (· ≠ [])

/-- The entry at an index with the event's id and name written over it. -/
def ToolEntry.withEvent (entry : ToolEntry) (ev : LLMStreamEvent) : ToolEntry :=
  { entry with
    id := if ev.id = "" then entry.id else ev.id
    name := if ev.name = "" then entry.name else ev.name }

def toolEntry (v : StreamVars) (index : Nat) : Option ToolEntry := v.toolAcc.lookup index

/-- `tool_acc[index] = entry`. -/
def StreamVars.setEntry (v : StreamVars) (index : Nat) (entry : ToolEntry) : StreamVars :=
  if (v.toolAcc.lookup index).isSome then
    { v with toolAcc := v.toolAcc.map fun e => if e.1 = index then (index, entry) else e }
  else { v with toolAcc := v.toolAcc ++ [(index, entry)] }

/-- `_handle`: fold one adapter event into the variables; the event to yield, if any. -/
def handle (d : Deployment) (ev : LLMStreamEvent) :
    Coro Calls Raised StreamVars (Option StreamEvent) := do
  let index := ev.index.getD 0
  match ev.type with
  | .delta =>
    if ev.content = "" then pure none
    else
      modify fun v => { v with emitted := true, parts := v.parts ++ [ev.content] }
      pure (some { type := .delta, content := ev.content })
  | .toolUseStart =>
    let entry := ((toolEntry (← get) index).getD {}).withEvent ev
    modify fun v => { v.setEntry index entry with emitted := true }
    pure (some {
      type := .toolUseStart, index := ev.index, id := some entry.id, name := some entry.name })
  | .toolUseDelta =>
    let entry := ((toolEntry (← get) index).getD {}).withEvent ev
    let entry := { entry with args := entry.args ++ ev.arguments }
    modify fun v => v.setEntry index entry
    pure (some {
      type := .toolUseDelta, index := ev.index, id := some entry.id, args := some ev.arguments })
  | .toolUseEnd =>
    match toolEntry (← get) index with
    | some entry =>
      let entry := entry.withEvent ev
      modify fun v => v.setEntry index entry
      pure (some {
        type := .toolUseEnd, index := ev.index, id := some entry.id, name := some entry.name,
        arguments := decodeArgs gw entry.args })
    | none =>
      -- an end without a start works on a dict that is thrown away
      pure (some {
        type := .toolUseEnd, index := ev.index, id := nonEmpty (some ev.id),
        name := nonEmpty (some ev.name), arguments := decodeArgs gw "" })
  | .usage =>
    if ev.usage ≠ [] then modify fun v => { v with usage := ev.usage }
    pure none
  | .done =>
    modify fun v => { v with
      finishReason := ev.finishReason
      usage := if ev.usage ≠ [] then ev.usage else v.usage }
    pure none
  | .error =>
    let message := if ev.error = "" then "stream error" else ev.error
    throw (.providerCall (classifyFailure message) d.1 d.2 message)
  | .other => pure none

/-- `_release`: the hold is returned once; a reconciled one never. -/
def releaseOnce : Coro Calls Raised StreamVars Unit := do
  if !(← get).finalized then
    modify fun v => { v with finalized := true }
    Coro.call (I := Calls) (.release (← get).reservation)

/-- `if stream is not None: try: await stream.aclose() except Exception: pass`. -/
def closeUpstream : Coro Calls Raised StreamVars Unit := do
  if (← get).opened then suppress (Coro.call (I := Calls) .aclose)

/-- The events of one adapter stream, each handled and passed on. -/
def forwardEvents (d : Deployment) : List LLMStreamEvent → Coro Calls Raised StreamVars Unit
  | [] => pure ()
  | ev :: rest => do
    match ← handle gw d ev with
    | some out => Coro.call (I := Calls) (.emit out)
    | none => pure ()
    forwardEvents d rest

/-- The inner `try` block. A stream that ends before its first event raises
`StopAsyncIteration`, whose text is empty. -/
def consume (d : Deployment) : Coro Calls Raised StreamVars Unit := do
  let script ← Coro.call (I := Calls)
    (.openStream d request.messages (callTimeout request tenant))
  modify fun v => { v with opened := true }
  forwardEvents gw d script.events
  match script.ending with
  | some e => throw e
  | none => if script.events.isEmpty then throw (.exception "") else pure ()

/-- How the body of the loop goes on: after a completed stream, round again, or
out of the function. -/
inductive Flow where
  | completed | again | left
  deriving DecidableEq

/-- `last_error = e`, wrapped unless it is a `ProviderCallError`. -/
def asProviderCallError (e : Raised) (d : Deployment) : ProviderCallError :=
  match e with
  | .providerCall failureClass provider model cause => ⟨failureClass, provider, model, cause⟩
  | e => .of e d

/-- Disconnect or consumer abort: cancel the upstream, return the hold, re-raise. -/
def abandon {α : Type} (e : Raised) : Coro Calls Raised StreamVars α := do
  closeUpstream
  releaseOnce
  throw e

/-- A provider failure: an `error` event once a byte was emitted, otherwise the
next targets of its class. -/
def failAttempt (chain : FallbackChain) (d : Deployment) (e : Raised) :
    Coro Calls Raised StreamVars Flow := do
  let failure := asProviderCallError e d
  modify fun v => { v with lastError := some failure }
  Coro.call (I := Calls) (.recordFailure d)
  if (← get).emitted then
    Coro.call (I := Calls) (.emit {
      type := .error, error := e.text, failureClass := failure.failureClass.name,
      provider := d.1, model := d.2 })
    releaseOnce
    pure .left
  else
    modify fun v => { v with
      targets := (chain.targets failure.failureClass).filter (· ∉ v.seen) }
    pure .again

/-- The handlers of the inner `try`. -/
def onAttemptRaise (chain : FallbackChain) (d : Deployment) (e : Raised) :
    Coro Calls Raised StreamVars Flow :=
  match e with
  | .cancelled | .generatorExit => abandon e
  | e => if e.isException then failAttempt chain d e else throw e

/-- The attempt with its handlers. -/
def attemptStream (chain : FallbackChain) (d : Deployment) : Coro Calls Raised StreamVars Flow :=
  tryCatch
    (do
      consume gw request tenant d
      pure .completed)
    (onAttemptRaise chain d)

def streamResult (d : Deployment) (v : StreamVars) : Result where
  content := String.join v.parts
  model := d.2
  provider := d.1
  usage := v.usage
  finishReason := v.finishReason
  toolCalls := finalizeToolCalls gw v.toolAcc
  routedVia := d.1 ++ ":" ++ d.2
  attempts := v.seen.length

/-- After a completed stream: bookkeeping, then the two closing events. -/
def complete (d : Deployment) : Coro Calls Raised StreamVars Unit := do
  Coro.call (I := Calls) (.recordSuccess d)
  let v ← get
  let result := streamResult gw d v
  Coro.call (I := Calls) (.reconcile v.reservation (resultUsd gw result))
  modify fun v => { v with finalized := true }
  afterSuccess gw request cfg result
  Coro.call (I := Calls) (.emit {
    type := .usage, usage := v.usage, provider := d.1, model := d.2 })
  Coro.call (I := Calls) (.emit {
    type := .done, finishReason := v.finishReason, usage := v.usage, provider := d.1,
    model := d.2 })

/-- One pass of `while targets`; leaves with `false` when there are none. -/
def streamRound (chain : FallbackChain) (apiKey : String) :
    Coro Calls Raised StreamVars (Option Bool) := do
  match (← get).targets with
  | [] => pure (some false)
  | d :: rest =>
    modify fun v => { v with targets := rest }
    if d ∈ (← get).seen then pure none
    else
      modify fun v => { v with seen := v.seen ++ [d] }
      Coro.call (I := Calls) (.getAdapter d request apiKey)
      modify fun v => { v with usage := [], finishReason := none, parts := [], toolAcc := [] }
      match ← attemptStream gw request tenant chain d with
      | .completed =>
        complete gw request cfg d
        pure (some true)
      | .again => pure none
      | .left => pure (some true)

/-- What `_stream_impl` raises when every target failed before any byte. -/
def streamExhausted (v : StreamVars) : Raised :=
  match v.lastError with
  | some failure => .chainExhausted failure.provider failure.model failure.cause
      failure.failureClass v.seen.length
  | none => .chainExhausted "unknown" "unknown" "no deployments" .general v.seen.length

/-- The outer `try` block. -/
def streamBody : Coro Calls Raised StreamVars Unit := do
  let reservation ← Coro.call (I := Calls) (.reserve (reserveArgs gw request tenant cfg))
  modify fun v => { v with reservation := reservation }
  let apiKey ← Coro.call (I := Calls) (.resolveKey tenant)
  let decision ← decide gw request cfg
  let chain := fallbackChain gw request cfg (candidatesAt gw request cfg 0)
  modify fun v => { v with targets := [decision] }
  match ← Coro.iterate (streamRound gw request tenant cfg chain apiKey) (chainFuel chain) with
  | none => throw .outOfFuel
  | some true => pure ()
  | some false =>
    releaseOnce
    throw (streamExhausted (← get))

/-- `await _release()`, then the failure as an `error` event. -/
def releaseAndReport (e : Raised) (failureClass : String) : Coro Calls Raised StreamVars Unit := do
  releaseOnce
  Coro.call (I := Calls) (.emit { type := .error, error := e.text, failureClass := failureClass })

/-- The handlers of the outer `try`. -/
def onStreamRaise (e : Raised) : Coro Calls Raised StreamVars Unit :=
  match e with
  | .quotaExceeded .. => releaseAndReport e "quota_exceeded"
  | .configuration _ => releaseAndReport e "configuration"
  | .chainExhausted _ _ _ failureClass _ =>
    Coro.call (I := Calls) (.emit
      { type := .error, error := e.text, failureClass := failureClass.name })
  | e => if e.isException then releaseAndReport e "general" else abandon e

/-- `_stream_impl`. -/
def streamImpl : Coro Calls Raised StreamVars Unit :=
  tryCatch (streamBody gw request tenant cfg) onStreamRaise

end

end AgentStudio.Gateway
