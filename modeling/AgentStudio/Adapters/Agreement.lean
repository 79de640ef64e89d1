import AgentStudio.Gateway.Service
import AgentStudio.Async.Generator
import AgentStudio.Py.Join

/-!
# What the two ways of an adapter come to

An adapter answers at once, by `chat`, or by the events of `stream`. A reader of the events puts the
contents of the deltas together and takes the last usage that is reported and the finish reason of
the end; they agree when that is the response.
-/

namespace AgentStudio.Adapters

open Gateway

/-- A dict under the canonical keys. -/
def canonicalUsage (input output reasoning cached : ℤ) : Usage :=
  [("input_tokens", input), ("output_tokens", output), ("reasoning_tokens", reasoning),
    ("cached_tokens", cached)]

/-- `_ZERO_USAGE`. -/
def zeroUsage : Usage := canonicalUsage 0 0 0 0

/-- Why a provider stopped; it has a name where there is one. -/
structure Reason where
  name : String
  named : name ≠ ""
  deriving DecidableEq

/-- A JSON object, by what `json.dumps` gives for it. -/
structure JsonObject where
  dumps : String
  nonempty : dumps ≠ ""

def JsonObject.empty : JsonObject := ⟨"\x7b\x7d", by decide⟩

def deltaContent (ev : LLMStreamEvent) : Option String :=
  if ev.type = .delta then some ev.content else none

def reportedUsage (ev : LLMStreamEvent) : Option Usage :=
  if ev.type = .usage ∨ ev.type = .done then some ev.usage else none

def finishReason (ev : LLMStreamEvent) : Option (Option String) :=
  if ev.type = .done then some ev.finishReason else none

structure Agrees (events : List LLMStreamEvent) (response : LLMResponse) : Prop where
  content : String.join (events.filterMap deltaContent) = response.content
  usage : (events.filterMap reportedUsage).getLast? = some response.usage
  finishReason : (events.filterMap finishReason).getLast? = some response.finishReason

/-- `done`: the last event of a stream that was not broken off. -/
def doneEvent (reason : Option Reason) (usage : Usage) : LLMStreamEvent where
  type := .done
  finishReason := reason.map Reason.name
  usage := usage

theorem agrees_done {events : List LLMStreamEvent} {reason : Option Reason} {usage : Usage}
    {response : LLMResponse} : Agrees (events ++ [doneEvent reason usage]) response ↔
      String.join (events.filterMap deltaContent) = response.content ∧
        usage = response.usage ∧ reason.map Reason.name = response.finishReason := by
  have content : (events ++ [doneEvent reason usage]).filterMap deltaContent =
      events.filterMap deltaContent := by simp [doneEvent, deltaContent]
  have last : ((events ++ [doneEvent reason usage]).filterMap reportedUsage).getLast? =
      some usage := by simp [doneEvent, reportedUsage]
  have finish : ((events ++ [doneEvent reason usage]).filterMap Adapters.finishReason).getLast? =
      some (reason.map Reason.name) := by simp [doneEvent, Adapters.finishReason]
  constructor
  · rintro ⟨joined, reported, ended⟩
    rw [content] at joined
    rw [last] at reported
    rw [finish] at ended
    exact ⟨joined, Option.some.inj reported, Option.some.inj ended⟩
  · rintro ⟨joined, rfl, ended⟩
    exact ⟨content ▸ joined, last, finish.trans (congrArg some ended)⟩

theorem reason_name_inj {a b : Option Reason} :
    a.map Reason.name = b.map Reason.name ↔ a = b :=
  (Option.map_injective fun x y same => by cases x; cases y; cases same; rfl).eq_iff

end AgentStudio.Adapters
