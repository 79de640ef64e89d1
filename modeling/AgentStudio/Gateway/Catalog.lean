import AgentStudio.Py.Text

/-!
# Model facts catalog

`gateway/catalog.py`: context windows and price cards, keyed by the normalised
`provider:model`.
-/

namespace AgentStudio.Gateway

/-- A `(provider, model)` pair. -/
abbrev Deployment := String × String

instance lawfulBEqDeployment : LawfulBEq Deployment := inferInstance

def modelKey (provider model : String) : String :=
  Py.lower (Py.strip provider) ++ ":" ++ Py.lower (Py.strip model)

structure ModelSpec where
  provider : String
  model : String
  contextWindow : Nat := 128000
  inputPricePer1k : ℚ := 0
  outputPricePer1k : ℚ := 0
  deriving DecidableEq

def ModelSpec.key (spec : ModelSpec) : String := modelKey spec.provider spec.model

/-- `_SEED_SPECS`. -/
def seedSpecs : List ModelSpec := [
  ⟨"openai", "gpt-4o", 128000, 250 / 100, 10⟩,
  ⟨"openai", "gpt-4o-mini", 128000, 15 / 100, 60 / 100⟩,
  ⟨"openai", "gpt-4.1", 1000000, 2, 8⟩,
  ⟨"openai", "gpt-4-turbo", 128000, 10, 30⟩,
  ⟨"openai", "gpt-4", 8192, 30, 60⟩,
  ⟨"openai", "o1", 200000, 15, 60⟩,
  ⟨"openai", "o1-mini", 128000, 110 / 100, 440 / 100⟩,
  ⟨"openai", "o3", 200000, 2, 8⟩,
  ⟨"openai", "o3-mini", 200000, 110 / 100, 440 / 100⟩,
  ⟨"openai", "o4-mini", 200000, 110 / 100, 440 / 100⟩,
  ⟨"anthropic", "claude-3-5-sonnet", 200000, 3, 15⟩,
  ⟨"anthropic", "claude-3-5-haiku", 200000, 80 / 100, 4⟩,
  ⟨"anthropic", "claude-3-7-sonnet", 200000, 3, 15⟩,
  ⟨"anthropic", "claude-3-haiku", 200000, 25 / 100, 125 / 100⟩,
  ⟨"anthropic", "claude-sonnet-4", 200000, 3, 15⟩,
  ⟨"anthropic", "claude-sonnet-4.5", 200000, 3, 15⟩,
  ⟨"anthropic", "claude-sonnet-4.6", 200000, 3, 15⟩,
  ⟨"anthropic", "claude-opus-4", 200000, 15, 75⟩,
  ⟨"anthropic", "claude-opus-4.5", 200000, 5, 25⟩,
  ⟨"anthropic", "claude-haiku-4.5", 200000, 1, 5⟩,
  ⟨"google", "gemini-1.5-pro", 1000000, 125 / 100, 5⟩,
  ⟨"google", "gemini-1.5-flash", 1000000, 75 / 1000, 30 / 100⟩,
  ⟨"google", "gemini-2.0-flash", 1000000, 10 / 100, 40 / 100⟩,
  ⟨"google", "gemini-2.5-pro", 1000000, 125 / 100, 10⟩]

/-- The registry: specs in the order in which their keys were first registered. -/
structure Catalog where
  specs : List ModelSpec

namespace Catalog

/-- `register`: a spec with a known key takes the old one's place. -/
def register (catalog : Catalog) (spec : ModelSpec) : Catalog :=
  if catalog.specs.any (·.key == spec.key) then
    ⟨catalog.specs.map fun s => if s.key == spec.key then spec else s⟩
  else ⟨catalog.specs ++ [spec]⟩

def ofSpecs (specs : List ModelSpec) : Catalog := specs.foldl register ⟨[]⟩

def seed : Catalog := ofSpecs seedSpecs

def get (catalog : Catalog) (provider model : String) : Option ModelSpec :=
  catalog.specs.find? (·.key == modelKey provider model)

/-- `estimate_cost`: `none` when there is no price card. -/
def estimateCost (catalog : Catalog) (d : Deployment) (inputTokens outputTokens : ℤ) : Option ℚ :=
  (catalog.get d.1 d.2).map fun spec =>
    inputTokens / 1000 * spec.inputPricePer1k + outputTokens / 1000 * spec.outputPricePer1k

/-- `list_all`: sorted by key. -/
def listAll (catalog : Catalog) : List ModelSpec :=
  catalog.specs.insertionSort fun a b => ¬ b.key < a.key

end Catalog

end AgentStudio.Gateway
