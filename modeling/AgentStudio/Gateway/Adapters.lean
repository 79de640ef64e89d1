import AgentStudio.Gateway.Types
import AgentStudio.Gateway.Catalog
import Mathlib.Data.List.Induction
import Mathlib.Logic.Function.Basic

/-!
# The adapters of a gateway

`_get_adapter` of `gateway/service.py` with the calls that `_attempt` and `_stream_impl` make of
the adapter: one adapter for each deployment, which the next request changes in place. Nothing is
awaited between `_get_adapter` and the parameters of the call; the Anthropic adapter looks at its
configuration again when the answer is there.
-/

namespace AgentStudio.Gateway.Adapters

/-- `LLMProviderType`. -/
inductive ProviderType where
  | openai | anthropic | google | azure | custom
  deriving DecidableEq, Repr

/-- `LLMProviderType(provider)`; any other text is a `ValueError`. -/
def ProviderType.of : String → Option ProviderType
  | "openai" => some .openai
  | "anthropic" => some .anthropic
  | "google" => some .google
  | "azure" => some .azure
  | "custom" => some .custom
  | _ => none

structure LLMConfig where
  model : String
  temperature : ℚ
  maxTokens : Option Nat
  tools : List Schema
  structuredOutput : Option Schema
  deriving DecidableEq, Repr

/-- The adapter; its client has the key that the adapter was made with. -/
structure Adapter where
  provider : ProviderType
  apiKey : String
  config : LLMConfig
  deriving DecidableEq, Repr

/-- One attempt of a request at a deployment, with the key that was resolved for it. -/
structure Attempt where
  request : Request
  deployment : Deployment
  apiKey : String
  /-- `stream`, or `chat`. -/
  streaming : Bool := false
  /-- The client is there, and the call starts before its timeout. -/
  starts : Bool := true

def Attempt.provider (a : Attempt) : Option ProviderType := ProviderType.of a.deployment.1

/-- The configuration of the request. -/
def Attempt.config (a : Attempt) : LLMConfig where
  model := a.deployment.2
  temperature := a.request.temperature
  maxTokens := a.request.maxTokens
  tools := a.request.tools
  structuredOutput := a.request.structuredOutput

/-- A call of an adapter, with what it was made with. -/
structure Call where
  attempt : Attempt
  provider : ProviderType
  apiKey : String
  config : LLMConfig

structure State where
  /-- `_adapters`. -/
  adapters : String → Option Adapter := fun _ => none
  /-- The call of each attempt, if one was made. -/
  calls : List (Option Call) := []
  /-- The answers that were parsed, each with the structured output it was parsed for. -/
  parsed : List (Call × Option Schema) := []

inductive Event where
  | attempt (a : Attempt)
  /-- The answer to the call of the `n`th attempt. -/
  | answer (n : Nat)

variable (tenantId : String)

/-- The key of `_adapters`. -/
def cacheKey (a : Attempt) : String := tenantId ++ ":" ++ a.deployment.1 ++ ":" ++ a.deployment.2

/-- `_default_adapter_factory`. -/
def defaultAdapterFactory (a : Attempt) : Option Adapter :=
  a.provider.map fun provider => { provider := provider, apiKey := a.apiKey, config := a.config }

/-- `_get_adapter`: one that is there gets the tools and the structured output. -/
def getAdapter (adapters : String → Option Adapter) (a : Attempt) : Option Adapter :=
  match adapters (cacheKey tenantId a) with
  | none => defaultAdapterFactory a
  | some adapter => some { adapter with config := { adapter.config with
      tools := a.request.tools, structuredOutput := a.request.structuredOutput } }

/-- The attempt to its first await. -/
def attempt (g : State) (a : Attempt) : State :=
  match getAdapter tenantId g.adapters a with
  | none => { g with calls := g.calls ++ [none] }
  | some adapter =>
    { g with
      adapters := Function.update g.adapters (cacheKey tenantId a) (some adapter)
      calls := g.calls ++ [if a.starts then some {
        attempt := a
        provider := adapter.provider
        apiKey := adapter.apiKey
        config := adapter.config } else none] }

/-- Only `AnthropicAdapter.chat` parses by the configuration. -/
def Call.rereads (call : Call) : Bool := call.provider = .anthropic && !call.attempt.streaming

/-- The answer to a call: it is parsed by what the adapter's configuration now is. -/
def answer (g : State) (n : Nat) : State :=
  match g.calls[n]?.join with
  | none => g
  | some call =>
    match g.adapters (cacheKey tenantId call.attempt) with
    | none => g
    | some adapter =>
      if call.rereads then { g with parsed := g.parsed ++ [(call, adapter.config.structuredOutput)] }
      else g

def step (g : State) : Event → State
  | .attempt a => attempt tenantId g a
  | .answer n => answer tenantId g n

/-- The gateway after these events of one tenant's requests. -/
def run (events : List Event) : State := events.foldl (step tenantId) {}

/-! ## What the requests agree on -/

/-- The attempts, in order. -/
def attempts (events : List Event) : List Attempt :=
  events.filterMap fun | .attempt a => some a | .answer _ => none

/-- The attempt that made the adapter. -/
def creator (as : List Attempt) (key : String) : Option Attempt :=
  as.find? fun a => cacheKey tenantId a = key && a.provider.isSome

/-- The attempt that changed it last. -/
def latest (as : List Attempt) (key : String) : Option Attempt :=
  (as.filter fun a => cacheKey tenantId a = key).getLast?

/-- What is not refreshed is the same. -/
structure Attempt.Alike (a b : Attempt) : Prop where
  apiKey : a.apiKey = b.apiKey
  model : a.deployment.2 = b.deployment.2
  temperature : a.request.temperature = b.request.temperature
  maxTokens : a.request.maxTokens = b.request.maxTokens

/-- An attempt asks for what the attempt that made its adapter asked for, and at an answer that
is parsed by the configuration the last one has asked for the structured output of this one. -/
def Fits (before : List Event) : Event → Prop
  | .attempt a => a.starts = true →
    ∀ first, creator tenantId (attempts before ++ [a]) (cacheKey tenantId a) = some first →
      first.Alike a
  | .answer n => ∀ a, (attempts before)[n]? = some a → a.starts = true → a.streaming = false →
    ∀ first,
      creator tenantId ((attempts before).take n ++ [a]) (cacheKey tenantId a) = some first →
      first.provider = some .anthropic →
      ∀ last, latest tenantId (attempts before) (cacheKey tenantId a) = some last →
        last.request.structuredOutput = a.request.structuredOutput

/-- Every event fits those before it. -/
def Agreed (events : List Event) : Prop :=
  ∀ before e, before ++ [e] <+: events → Fits tenantId before e

/-! ## What the calls are made with -/

/-- The call has the key and the configuration of its request. -/
structure Call.Own (call : Call) : Prop where
  apiKey : call.apiKey = call.attempt.apiKey
  config : call.config = call.attempt.config

/-- Every call does, and every answer is parsed for the structured output of its request. -/
structure State.Faithful (g : State) : Prop where
  own : ∀ call, some call ∈ g.calls → call.Own
  parsed : ∀ p ∈ g.parsed, p.2 = p.1.attempt.request.structuredOutput

/-- The configuration of `first`, as `last` left it. -/
def left (first last : Attempt) : LLMConfig :=
  { first.config with
    tools := last.request.tools, structuredOutput := last.request.structuredOutput }

/-- The adapter under a key after these attempts. -/
inductive Cached (as : List Attempt) (key : String) : Option Adapter → Prop
  | missing (none_ : creator tenantId as key = none) : Cached as key none
  | made (first last : Attempt) (provider : ProviderType)
      (made : creator tenantId as key = some first) (is : first.provider = some provider)
      (last_ : latest tenantId as key = some last) : Cached as key (some {
        provider := provider
        apiKey := first.apiKey
        config := left first last })

/-- The call of an attempt after these. -/
inductive Called (as : List Attempt) (a : Attempt) : Option Call → Prop
  | failed (none_ : creator tenantId (as ++ [a]) (cacheKey tenantId a) = none) : Called as a none
  | unstarted (off : a.starts = false) : Called as a none
  | made (first : Attempt) (provider : ProviderType) (starts : a.starts = true)
      (made : creator tenantId (as ++ [a]) (cacheKey tenantId a) = some first)
      (is : first.provider = some provider) : Called as a (some {
        attempt := a
        provider := provider
        apiKey := first.apiKey
        config := left first a })

variable {tenantId : String} {as : List Attempt} {a first : Attempt} {key : String}

theorem latest_concat (as : List Attempt) (a : Attempt) :
    latest tenantId (as ++ [a]) (cacheKey tenantId a) = some a := by
  simp [latest]

theorem latest_other (other : cacheKey tenantId a ≠ key) :
    latest tenantId (as ++ [a]) key = latest tenantId as key := by
  simp [latest, other]

theorem creator_other (other : cacheKey tenantId a ≠ key) :
    creator tenantId (as ++ [a]) key = creator tenantId as key := by
  simp [creator, other]

theorem creator_later {as' : List Attempt} (start : as <+: as')
    (made : creator tenantId as key = some first) : creator tenantId as' key = some first := by
  obtain ⟨rest, rfl⟩ := start
  rw [creator, List.find?_append, show as.find? _ = some first from made]
  rfl

theorem creator_new (none_ : creator tenantId as (cacheKey tenantId a) = none) :
    creator tenantId (as ++ [a]) (cacheKey tenantId a) =
      if a.provider.isSome then some a else none := by
  rw [creator, List.find?_append, show as.find? _ = none from none_]
  cases is : a.provider <;> simp [is]

/-- What an attempt does to the adapter of its key. -/
theorem getAdapter_cached {adapters : String → Option Adapter}
    (cached : ∀ key, Cached tenantId as key (adapters key)) (a : Attempt) :
    Cached tenantId (as ++ [a]) (cacheKey tenantId a) (getAdapter tenantId adapters a) := by
  have here := cached (cacheKey tenantId a)
  unfold getAdapter
  cases is : adapters (cacheKey tenantId a) with
  | none =>
    rw [is] at here
    cases here with
    | missing none_ =>
      have new := creator_new none_
      dsimp only
      unfold defaultAdapterFactory
      cases known : a.provider with
      | none =>
        rw [known] at new
        exact .missing new
      | some provider =>
        rw [known] at new
        exact .made a a provider new known (latest_concat as a)
  | some adapter =>
    rw [is] at here
    cases here with
    | made first last provider made known last_ =>
      exact .made first a provider (creator_later (List.prefix_append _ _) made) known (latest_concat as a)

/-- The adapters and the calls after these events. -/
structure Kept (tenantId : String) (events : List Event) (g : State) : Prop where
  cached : ∀ key, Cached tenantId (attempts events) key (g.adapters key)
  length : g.calls.length = (attempts events).length
  called : ∀ n a c, (attempts events)[n]? = some a → g.calls[n]? = some c →
    Called tenantId ((attempts events).take n) a c

variable {events : List Event} {g : State}

theorem attempts_concat (events : List Event) (a : Attempt) :
    attempts (events ++ [.attempt a]) = attempts events ++ [a] := List.filterMap_append

theorem attempts_answer (events : List Event) (n : Nat) :
    attempts (events ++ [.answer n]) = attempts events := by
  rw [attempts, List.filterMap_append]
  exact List.append_nil _

/-- The call that an attempt makes. -/
theorem attempt_called (kept : Kept tenantId events g) (a : Attempt) :
    ∃ c, (attempt tenantId g a).calls = g.calls ++ [c] ∧ Called tenantId (attempts events) a c := by
  have got := getAdapter_cached kept.cached a
  unfold attempt
  cases is : getAdapter tenantId g.adapters a with
  | none =>
    rw [is] at got
    cases got with
    | missing none_ => exact ⟨none, rfl, .failed none_⟩
  | some adapter =>
    rw [is] at got
    cases got with
    | made first last provider made known last_ =>
      obtain rfl : a = last := by
        rw [latest_concat] at last_
        exact Option.some.inj last_
      refine ⟨_, rfl, ?_⟩
      split
      · rename_i starts
        exact .made first provider starts made known
      · rename_i off
        exact .unstarted (Bool.eq_false_iff.mpr off)

theorem attempt_cached (kept : Kept tenantId events g) (a : Attempt) (key : String) :
    Cached tenantId (attempts events ++ [a]) key ((attempt tenantId g a).adapters key) := by
  have got := getAdapter_cached kept.cached a
  have before := kept.cached key
  by_cases same : cacheKey tenantId a = key
  · subst same
    unfold attempt
    cases is : getAdapter tenantId g.adapters a with
    | none =>
      rw [is] at got
      have missing : g.adapters (cacheKey tenantId a) = none := by
        cases there : g.adapters (cacheKey tenantId a) with
        | none => rfl
        | some adapter => simp [getAdapter, there] at is
      dsimp only
      rwa [missing]
    | some adapter =>
      dsimp only
      rw [Function.update_self, ← is]
      exact got
  · have kept_ : (attempt tenantId g a).adapters key = g.adapters key := by
      unfold attempt
      split
      · rfl
      · exact Function.update_of_ne (Ne.symm same) _ _
    rw [kept_]
    cases is : g.adapters key with
    | none =>
      rw [is] at before
      cases before with
      | missing none_ => exact .missing ((creator_other same).trans none_)
    | some adapter =>
      rw [is] at before
      cases before with
      | made first last provider made known last_ =>
        exact .made first last provider ((creator_other same).trans made) known
          ((latest_other same).trans last_)

theorem Kept.attempt (kept : Kept tenantId events g) (a : Attempt) :
    Kept tenantId (events ++ [.attempt a]) (attempt tenantId g a) := by
  obtain ⟨c, calls, called⟩ := attempt_called kept a
  refine ⟨fun key => ?_, ?_, fun n b d here there => ?_⟩
  · rw [attempts_concat]
    exact attempt_cached kept a key
  · rw [calls, attempts_concat, List.length_append, List.length_append, kept.length]
    rfl
  · rw [attempts_concat] at here ⊢
    rw [calls] at there
    by_cases old : n < (attempts events).length
    · rw [List.getElem?_append_left old] at here
      rw [List.getElem?_append_left (kept.length ▸ old)] at there
      rw [List.take_append_of_le_length old.le]
      exact kept.called n b d here there
    · have last : n = (attempts events).length := by
        obtain ⟨lt, -⟩ := List.getElem?_eq_some_iff.mp here
        rw [List.length_append, List.length_singleton] at lt
        omega
      subst last
      rw [List.getElem?_concat_length] at here
      rw [← kept.length, List.getElem?_concat_length] at there
      cases here
      cases there
      rwa [List.take_left]

theorem Kept.answer (kept : Kept tenantId events g) (n : Nat) :
    Kept tenantId (events ++ [.answer n]) (answer tenantId g n) := by
  have same : (Adapters.answer tenantId g n).adapters = g.adapters ∧
      (Adapters.answer tenantId g n).calls = g.calls := by
    unfold Adapters.answer
    split
    · exact ⟨rfl, rfl⟩
    · split
      · exact ⟨rfl, rfl⟩
      · split
        · exact ⟨rfl, rfl⟩
        · exact ⟨rfl, rfl⟩
  obtain ⟨adapters, calls⟩ := same
  refine ⟨?_, ?_, ?_⟩
  · rw [adapters, attempts_answer]
    exact kept.cached
  · rw [calls, attempts_answer]
    exact kept.length
  · rw [calls, attempts_answer]
    exact kept.called

theorem run_concat (tenantId : String) (events : List Event) (e : Event) :
    run tenantId (events ++ [e]) = step tenantId (run tenantId events) e :=
  List.foldl_concat ..

theorem run_kept (tenantId : String) (events : List Event) :
    Kept tenantId events (run tenantId events) := by
  induction events using List.reverseRecOn with
  | nil => exact ⟨fun key => .missing rfl, rfl, fun n a c here _ => by simp [attempts] at here⟩
  | append_singleton events e ih =>
    rw [run_concat]
    cases e with
    | attempt a => exact ih.attempt a
    | answer n => exact ih.answer n

/-! ## Whose configuration it is -/

theorem own_iff {provider : ProviderType} : Call.Own {
    attempt := a
    provider := provider
    apiKey := first.apiKey
    config := left first a } ↔ first.Alike a := by
  constructor
  · rintro ⟨apiKey, config⟩
    simp only [left, Attempt.config, LLMConfig.mk.injEq] at config
    exact ⟨apiKey, config.1, config.2.1, config.2.2.1⟩
  · rintro ⟨apiKey, model, temperature, maxTokens⟩
    refine ⟨apiKey, ?_⟩
    simp only [left, Attempt.config, LLMConfig.mk.injEq]
    exact ⟨model, temperature, maxTokens, trivial, trivial⟩

/-- The call of an attempt is its own exactly if the attempt fits. -/
theorem called_own_iff {c : Option Call} (called : Called tenantId (attempts events) a c) :
    (∀ call, c = some call → call.Own) ↔ Fits tenantId events (.attempt a) := by
  cases called with
  | failed none_ =>
    refine ⟨fun _ _ first made => ?_, fun _ call is => by cases is⟩
    rw [none_] at made
    cases made
  | unstarted off =>
    refine ⟨fun _ starts => ?_, fun _ call is => by cases is⟩
    rw [off] at starts
    cases starts
  | made first provider starts made known =>
    constructor
    · intro own _ first' made'
      obtain rfl : first = first' := by
        rw [made] at made'
        exact Option.some.inj made'
      exact own_iff.mp (own _ rfl)
    · rintro fits _ ⟨⟩
      exact own_iff.mpr (fits starts first made)

theorem attempt_faithful_iff (kept : Kept tenantId events g) (a : Attempt) :
    (attempt tenantId g a).Faithful ↔ g.Faithful ∧ Fits tenantId events (.attempt a) := by
  obtain ⟨c, calls, called⟩ := attempt_called kept a
  have parsed : (attempt tenantId g a).parsed = g.parsed := by
    unfold attempt
    split
    · rfl
    · rfl
  rw [← called_own_iff called]
  constructor
  · rintro ⟨own, kept_⟩
    rw [calls] at own
    rw [parsed] at kept_
    refine ⟨⟨fun call mem => own call (List.mem_append_left _ mem), kept_⟩, fun call is => ?_⟩
    exact own call (List.mem_append_right _ (List.mem_singleton.mpr is.symm))
  · rintro ⟨⟨own, kept_⟩, last⟩
    refine ⟨fun call mem => ?_, ?_⟩
    · rw [calls] at mem
      rcases List.mem_append.mp mem with mem | mem
      · exact own call mem
      · exact last call (List.mem_singleton.mp mem).symm
    · rw [parsed]
      exact kept_

/-- An answer is parsed for its own request exactly if it fits. -/
theorem answer_faithful_iff (kept : Kept tenantId events g) (n : Nat) :
    (answer tenantId g n).Faithful ↔ g.Faithful ∧ Fits tenantId events (.answer n) := by
  unfold answer
  cases here : g.calls[n]? with
  | none =>
    refine ⟨fun faithful => ⟨faithful, fun a there => ?_⟩, And.left⟩
    have short := List.getElem?_eq_none_iff.mp here
    rw [List.getElem?_eq_none_iff.mpr (kept.length ▸ short)] at there
    cases there
  | some c =>
    obtain ⟨a, there⟩ : ∃ a, (attempts events)[n]? = some a := by
      obtain ⟨lt, -⟩ := List.getElem?_eq_some_iff.mp here
      exact ⟨_, List.getElem?_eq_getElem (kept.length ▸ lt)⟩
    have same (b : Attempt) (is : (attempts events)[n]? = some b) : b = a := by
      rw [there] at is
      exact (Option.some.inj is).symm
    cases kept.called n a c there here with
    | failed none_ =>
      refine ⟨fun faithful => ⟨faithful, fun b is _ _ first made => ?_⟩, And.left⟩
      obtain rfl := same b is
      rw [none_] at made
      cases made
    | unstarted off =>
      refine ⟨fun faithful => ⟨faithful, fun b is starts => ?_⟩, And.left⟩
      obtain rfl := same b is
      rw [off] at starts
      cases starts
    | made first provider starts made known =>
      have created : creator tenantId (attempts events) (cacheKey tenantId a) = some first := by
        refine creator_later ?_ made
        obtain ⟨lt, rfl⟩ := List.getElem?_eq_some_iff.mp there
        rw [List.take_append_getElem lt]
        exact List.take_prefix _ _
      dsimp only [Option.join_some]
      have cached := kept.cached (cacheKey tenantId a)
      cases is : g.adapters (cacheKey tenantId a) with
      | none =>
        rw [is] at cached
        cases cached with
        | missing none_ =>
          rw [created] at none_
          cases none_
      | some adapter =>
        rw [is] at cached
        cases cached with
        | made first' last provider' made' known' last_ =>
          obtain rfl : first = first' := by
            rw [created] at made'
            exact Option.some.inj made'
          dsimp only
          constructor
          · intro faithful
            refine ⟨?_, fun b there' _ plain other made'' anthropic last' latest' => ?_⟩
            · split at faithful
              · exact ⟨faithful.own, fun p mem => faithful.parsed p (List.mem_append_left _ mem)⟩
              · exact faithful
            · obtain rfl := same b there'
              obtain rfl : first = other := by
                rw [made] at made''
                exact Option.some.inj made''
              obtain rfl : last = last' := by
                rw [last_] at latest'
                exact Option.some.inj latest'
              rw [known] at anthropic
              obtain rfl := Option.some.inj anthropic
              rw [if_pos (by simp [Call.rereads, plain])] at faithful
              exact faithful.parsed _ (List.mem_append_right _ (List.mem_singleton_self _))
          · rintro ⟨faithful, fits⟩
            split
            · rename_i rereads
              simp only [Call.rereads, Bool.and_eq_true, decide_eq_true_eq, Bool.not_eq_true']
                at rereads
              obtain ⟨rfl, plain⟩ := rereads
              refine ⟨faithful.own, fun p mem => ?_⟩
              rcases List.mem_append.mp mem with mem | mem
              · exact faithful.parsed p mem
              · rw [List.mem_singleton.mp mem]
                exact fits a there starts plain first made known last last_
            · exact faithful

/-- In every run of one tenant's requests the calls are made, and their answers parsed, with the
configurations of their requests and the keys resolved for them exactly if all requests agree. -/
theorem run_faithful_iff (tenantId : String) (events : List Event) :
    (run tenantId events).Faithful ↔ Agreed tenantId events := by
  induction events using List.reverseRecOn with
  | nil =>
    refine ⟨fun _ before e start => ?_, fun _ => ⟨fun call mem => ?_, fun p mem => ?_⟩⟩
    · have := start.length_le
      simp at this
    · exact absurd mem List.not_mem_nil
    · exact absurd mem List.not_mem_nil
  | append_singleton events e ih =>
    have agreed : Agreed tenantId (events ++ [e]) ↔ Agreed tenantId events ∧ Fits tenantId events e := by
      constructor
      · intro agreed
        exact ⟨fun before e' start => agreed before e' (start.trans (List.prefix_append _ _)),
          agreed events e (List.prefix_refl _)⟩
      · rintro ⟨agreed, fits⟩ before e' start
        rcases List.prefix_concat_iff.mp start with same | start
        · obtain ⟨rfl, rfl⟩ := List.append_singleton_inj.mp same
          exact fits
        · exact agreed before e' start
    rw [agreed, ← ih, run_concat]
    cases e with
    | attempt a => exact attempt_faithful_iff (run_kept tenantId events) a
    | answer n => exact answer_faithful_iff (run_kept tenantId events) n

/-- The second request asks for another temperature and gets the first one's. -/
theorem temperature_stale :
    ¬∀ (tenantId : String) (events : List Event), (run tenantId events).Faithful := by
  intro faithful
  have calls : (run "acme" [
      .attempt ⟨{ tenantId := "acme", messages := [] }, ("openai", "gpt-4o"), "key", false, true⟩,
      .attempt ⟨{ tenantId := "acme", messages := [], temperature := 0 }, ("openai", "gpt-4o"),
        "key", false, true⟩]).calls[1]? = some (some {
      attempt := ⟨{ tenantId := "acme", messages := [], temperature := 0 }, ("openai", "gpt-4o"),
        "key", false, true⟩
      provider := .openai
      apiKey := "key"
      config := ⟨"gpt-4o", 7 / 10, none, [], none⟩ }) := by
    rfl
  have own := (faithful _ _).own _ (List.mem_of_getElem? calls)
  have same : (7 / 10 : ℚ) = 0 := congrArg LLMConfig.temperature own.config
  norm_num at same

end AgentStudio.Gateway.Adapters
