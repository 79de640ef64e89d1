import AgentStudio.Gateway.Types
import AgentStudio.Gateway.Catalog

/-!
# Routing and fallback chains

`gateway/router.py` and `gateway/fallback.py`: pure functions of the request, the
config, the catalog and the latency table.
-/

namespace AgentStudio.Gateway

inductive Strategy where
  | cost | latency | quality | pinned
  deriving DecidableEq, Repr

/-- An unknown name means cost. -/
def Strategy.ofName : String → Strategy
  | "latency" => .latency
  | "quality" => .quality
  | "pinned" => .pinned
  | _ => .cost

/-- The EWMA latency of each deployment, zero where there is none. -/
abbrev Latencies := Deployment → ℚ

/-- `_DEFAULT_FALLBACKS`. -/
def defaultFallback : String → Option String
  | "openai" => some "gpt-4o-mini"
  | "anthropic" => some "claude-3-5-haiku"
  | "google" => some "gemini-2.0-flash"
  | "azure" => some "gpt-4o-mini"
  | "custom" => some "gpt-4o-mini"
  | _ => none

/-- The table inside `_default_model_for`. -/
def defaultModel : String → Option String
  | "openai" => some "gpt-4o-mini"
  | "anthropic" => some "claude-3-5-sonnet"
  | "google" => some "gemini-2.0-flash"
  | "azure" => some "gpt-4o-mini"
  | "custom" => some "gpt-4o-mini"
  | _ => none

/-- `_default_model_for`. -/
def defaultModelFor (catalog : Catalog) (provider : String) : String :=
  let known := (defaultModel provider).filter fun model => (catalog.get provider model).isSome
  match known with
  | some model => model
  | none =>
    match catalog.listAll.find? (·.provider == provider) with
    | some spec => spec.model
    | none => (defaultModel provider).getD "gpt-4o-mini"

/-- `_split_deployment`. -/
def splitDeployment (entry : String) : Deployment :=
  match Py.splitOnce ':' entry with
  | some (provider, model) => (Py.lower (Py.strip provider), Py.strip model)
  | none => (Py.lower (Py.strip entry), Py.strip entry)

/-- `tenant_fallback_candidates`. -/
def tenantFallbackCandidates (cfg : Cfg) : List String :=
  (cfg.fallbackModels.map Py.strip).filter (· ≠ "")

def appendNew (xs : List Deployment) (x : Deployment) : List Deployment :=
  if x ∈ xs then xs else xs ++ [x]

/-- `None` or an empty string, read as absent. -/
def nonEmpty (s : Option String) : Option String := s.filter (· ≠ "")

/-- The router with its collaborators. -/
structure Router where
  catalog : Catalog := Catalog.seed
  cheapModelFallback : String := "gpt-4o-mini"

namespace Router

/-- A score; `none` is infinity. -/
abbrev Score := Option ℚ

def Score.le : Score → Score → Bool
  | _, none => true
  | none, some _ => false
  | some a, some b => a ≤ b

/-- `_score`. -/
def score (router : Router) (latencies : Latencies) (request : Request) (strategy : Strategy)
    (d : Deployment) : Score :=
  match strategy with
  | .cost =>
    let tokens := match request.estimatedInputTokens with
      | none | some 0 => 1000
      | some n => n
    router.catalog.estimateCost d tokens 256
  | .latency => if latencies d > 0 then some (latencies d) else none
  | .quality | .pinned => some 0

/-- The candidates before scoring: the preferred deployment, the cheap tier, the
tenant's fallbacks, the family default. -/
def unranked (router : Router) (request : Request) (cfg : Cfg) : List Deployment :=
  let preferred :=
    (request.provider, Py.orElse request.model (defaultModelFor router.catalog request.provider))
  let tier :=
    if request.tiered && request.simpleQuery then
      let cheap := Py.orElse cfg.cheapModel router.cheapModelFallback
      if Py.contains cheap ":" then [splitDeployment cheap] else [(request.provider, cheap)]
    else []
  let listed := ((tenantFallbackCandidates cfg).map splitDeployment).foldl appendNew
    (preferred :: tier)
  match defaultFallback request.provider with
  | some model => appendNew listed (request.provider, model)
  | none => listed

/-- `Router.candidates`. -/
def candidates (router : Router) (latencies : Latencies) (request : Request) (cfg : Cfg) :
    List Deployment :=
  match nonEmpty request.pinned with
  | some entry => [splitDeployment entry]
  | none =>
    let strategy := Strategy.ofName request.strategy
    let listed := router.unranked request cfg
    if strategy = .cost ∨ strategy = .latency then
      listed.insertionSort fun a b =>
        (router.score latencies request strategy a).le (router.score latencies request strategy b)
    else listed

/-- `Router.decide`: the first available candidate, or the first one anyway. -/
def decide (candidates : List Deployment) (available : Deployment → Bool) : Deployment :=
  (candidates.find? available).getD (candidates.headD ("", ""))

end Router

/-! ## Fallback chains -/

def contextWindowMarkers : List String := [
  "maximum context length", "context length exceeded", "context window", "prompt is too long",
  "input is too long", "context_length_exceeded", "maximum tokens", "token limit exceeded",
  "too many tokens"]

def contentPolicyMarkers : List String := [
  "content policy", "content_policy", "safety system", "refused", "refusal", "output blocked",
  "output_blocked", "inappropriate content", "filtered", "blocked by policy",
  "violates our policy", "responses_to_same", "moderation", "policy violation"]

/-- `classify_failure` on the exception's text. -/
def classifyFailure (message : String) : FailureClass :=
  let text := Py.lower message
  if contextWindowMarkers.any (Py.contains text) then .contextWindow
  else if contentPolicyMarkers.any (Py.contains text) then .contentPolicy
  else .general

/-- `_FAMILY_CROSS_FALLBACK`. -/
def familyCrossFallback : String → List String
  | "openai" => ["anthropic", "google"]
  | "anthropic" => ["openai", "google"]
  | "google" => ["openai", "anthropic"]
  | "azure" => ["openai"]
  | "custom" => ["openai"]
  | _ => []

/-- `FallbackChain`. The larger windows come from the process-wide catalog. -/
structure FallbackChain where
  request : Request
  candidates : List Deployment
  cfg : Cfg
  crossFamily : Bool := true
  defaultCatalog : Catalog

namespace FallbackChain

/-- One family of `_cross_family`: its candidates, or else its tenant fallbacks. -/
def familyTargets (chain : FallbackChain) (result : List Deployment) (provider : String) :
    List Deployment :=
  let result := (chain.candidates.filter (·.1 == provider)).foldl appendNew result
  if result.any (·.1 == provider) then result
  else
    let entries := (tenantFallbackCandidates chain.cfg).filterMap (Py.splitOnce ':')
    ((entries.map fun e => (Py.lower (Py.strip e.1), Py.strip e.2)).filter (·.1 == provider)).foldl
      appendNew result

/-- `_cross_family`. -/
def crossFamilyTargets (chain : FallbackChain) : List Deployment :=
  (familyCrossFallback chain.request.provider).foldl chain.familyTargets []

/-- `_large_window`: the two largest windows not among the candidates. -/
def largeWindowTargets (chain : FallbackChain) : List Deployment :=
  let specs := chain.defaultCatalog.listAll.insertionSort fun a b =>
    a.contextWindow ≥ b.contextWindow
  let fresh := (specs.map fun s => (s.provider, s.model)).filter (· ∉ chain.candidates)
  (fresh.foldl appendNew []).take 2

/-- `FallbackChain.targets`. -/
def targets (chain : FallbackChain) (failureClass : FailureClass) : List Deployment :=
  let ordered := chain.candidates.foldl appendNew []
  match failureClass with
  | .general => ordered
  | .contentPolicy => if chain.crossFamily then ordered ++ chain.crossFamilyTargets else ordered
  | .contextWindow => ordered ++ chain.largeWindowTargets

/-- Every deployment the chain can name. -/
def allTargets (chain : FallbackChain) : List Deployment :=
  chain.candidates.foldl appendNew [] ++ chain.crossFamilyTargets ++ chain.largeWindowTargets

theorem targets_subset (chain : FallbackChain) (failureClass : FailureClass) :
    chain.targets failureClass ⊆ chain.allTargets := by
  intro d mem
  simp only [targets, allTargets, List.mem_append] at mem ⊢
  cases failureClass with
  | general => exact .inl (.inl mem)
  | contentPolicy =>
    cases cross : chain.crossFamily with
    | true =>
      simp only [cross, if_true, List.mem_append] at mem
      exact .inl mem
    | false =>
      simp only [cross, Bool.false_eq_true, if_false] at mem
      exact .inl (.inl mem)
  | contextWindow =>
    rcases List.mem_append.mp mem with mem | mem
    · exact .inl (.inl mem)
    · exact .inr mem

end FallbackChain

end AgentStudio.Gateway
