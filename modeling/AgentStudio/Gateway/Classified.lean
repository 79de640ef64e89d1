import AgentStudio.Async.Upholds
import AgentStudio.Gateway.Settlement

/-!
# The class of an exhausted chain

The exceptions that the gateway makes of a provider's have the class that `classify_failure` gives
the provider's text, and so has the one it raises in the end.
-/

namespace AgentStudio.Gateway.Classed

open Async Quota

/-- An exception of the gateway's own has the class of the text that it carries. -/
def Told : Raised → Prop
  | .chainExhausted _ _ reason failureClass _ => failureClass = classifyFailure reason
  | .providerCall failureClass _ _ cause => failureClass = classifyFailure cause
  | _ => True

/-- Where a call, or a provider's stream, raises an exception of the gateway's own, it is told. -/
def Fair : Ev → Prop
  | ⟨.openStream .., .ok script⟩ => ∀ e, script.ending = some e → Told e
  | ev => ∀ e, raisedBy ev = some e → Told e

/-- A failure that is kept has the class of its cause. -/
def Kept (lastError : Option ProviderCallError) : Prop :=
  ∀ failure, lastError = some failure → failure.failureClass = classifyFailure failure.cause

section
variable {σ α : Type} {P : σ → Prop}

/-- A coroutine that keeps `P` and raises what is told. -/
abbrev Classifies (P : σ → Prop) (Q : α → Prop) (c : Coro Calls Raised σ α) : Prop :=
  c.Upholds Fair P Told Q

theorem classifies_call (op : Op) :
    Classifies P (fun _ => True) (Coro.call (I := Calls) op : Coro Calls Raised σ _) :=
  .call (fun _ _ => trivial) fun e fair => by
    cases op <;> exact fair e rfl

theorem classifies_openStream (d : Deployment) (messages : List Message) (timeout : ℚ) :
    Classifies P (fun script => ∀ e, script.ending = some e → Told e)
      (Coro.call (I := Calls) (.openStream d messages timeout) : Coro Calls Raised σ _) :=
  .call (fun _ fair => fair) fun e fair => fair e rfl

theorem classifies_suppress {c : Coro Calls Raised σ Unit} (classifies : Classifies P (fun _ => True) c) :
    Classifies P (fun _ => True) (suppress c) :=
  .tryCatch classifies fun e told => by
    split
    · exact .pure trivial
    · exact .throw told

end

section
variable (gw : Service) (request : Request) (tenant : TenantConfig) (cfg : Cfg)

section
variable {σ : Type} {P : σ → Prop}

theorem classifies_snapshot (ds : List Deployment) :
    Classifies P (fun _ => True) (snapshot ds : Coro Calls Raised σ _) := by
  induction ds with
  | nil => exact .pure trivial
  | cons d ds ih => exact (classifies_call _).bind fun _ _ => ih.bind fun _ _ => .pure trivial

theorem classifies_decide :
    Classifies P (fun _ => True) (decide gw request cfg : Coro Calls Raised σ _) :=
  (classifies_snapshot _).bind fun _ _ => .pure trivial

theorem classifies_attempt (apiKey : String) (d : Deployment) :
    Classifies P (fun outcome => ∀ failure, outcome = .error failure →
        failure.failureClass = classifyFailure failure.cause)
      (attempt request tenant apiKey d : Coro Calls Raised σ _) := by
  refine .tryCatch (F := Told) ?_ fun e told => ?_
  · exact (classifies_call _).bind fun _ _ => (classifies_call _).bind fun _ _ => .pure nofun
  · split
    · exact .throw told
    · split
      · refine .pure fun failure is => ?_
        obtain rfl := Except.error.inj is
        rfl
      · exact .throw told

theorem classifies_afterSuccess (result : Result) :
    Classifies P (fun _ => True) (afterSuccess gw request cfg result : Coro Calls Raised σ _) := by
  refine (classifies_suppress (classifies_call _)).bind fun _ _ => ?_
  split
  · exact classifies_suppress (classifies_call _)
  · exact .pure trivial

end

/-! ## `generate` -/

theorem classifies_chainRound (chain : FallbackChain) (apiKey : String)
    (reservation : Option Reservation) :
    Classifies (fun v => Kept v.lastError) (fun _ => True)
      (chainRound gw request tenant cfg chain apiKey reservation) := by
  refine Coro.Upholds.get.bind fun v _ => ?_
  split
  · exact .pure trivial
  · rename_i d rest targets
    refine .modify_bind (fun _ kept => kept) ?_
    refine Coro.Upholds.get.bind fun v _ => ?_
    split
    · exact .pure trivial
    · refine .modify_bind (fun _ kept => kept) ?_
      refine (classifies_attempt request tenant apiKey d).bind fun outcome told => ?_
      cases outcome with
      | ok result =>
        refine (classifies_call _).bind fun _ _ => (classifies_call _).bind fun _ _ => ?_
        exact (classifies_afterSuccess gw request cfg result).bind fun _ _ => .pure trivial
      | error failure =>
        have kept : Kept (some failure) := fun _ is => Option.some.inj is ▸ told failure rfl
        refine .modify_bind (fun _ _ => kept) ?_
        refine (classifies_call _).bind fun _ _ => ?_
        exact .modify_bind (fun _ kept => kept) (.pure trivial)

theorem exhausted_told {v : ChainVars} (kept : Kept v.lastError) : Told (exhausted v) := by
  unfold exhausted
  split
  · exact kept _ ‹_›
  · trivial

theorem classifies_runChain (chain : FallbackChain) (apiKey : String)
    (reservation : Option Reservation) :
    Classifies (fun v => Kept v.lastError) (fun _ => True)
      (runChain gw request tenant cfg chain apiKey reservation) := by
  have loop : Classifies (fun v : ChainVars => Kept v.lastError) (fun _ => True)
      (Coro.iterate (chainRound gw request tenant cfg chain apiKey reservation)
        (chainFuel chain)) :=
    (Coro.Upholds.iterate ((classifies_chainRound gw request tenant cfg chain apiKey
      reservation).mono fun _ _ _ _ => trivial) _).mono fun _ _ => trivial
  unfold runChain
  refine .bind (Q := fun _ => True) (.tryCatch (F := Told) ?_ fun e told => ?_) fun found _ => ?_
  · refine loop.bind fun found _ => ?_
    cases found with
    | none => exact .throw trivial
    | some found => exact .pure trivial
  · split
    · exact (classifies_call _).bind fun _ _ => .throw told
    · exact .throw told
  · cases found with
    | some result => exact .pure trivial
    | none =>
      refine (classifies_call _).bind fun _ _ => ?_
      exact Coro.Upholds.get.bind fun v kept => .throw (exhausted_told kept)

theorem classifies_lookupExact :
    Classifies (fun _ => True) (fun _ => True) (lookupExact request tenant cfg) := by
  unfold lookupExact
  split
  · exact classifies_call _
  · exact .pure trivial

/-- What `generate` raises is told. -/
theorem classifies_generate :
    Classifies (fun _ => True) (fun _ => True) (generate gw request tenant cfg) := by
  unfold generate
  refine (classifies_call _).bind fun reservation _ => ?_
  refine (classifies_lookupExact request tenant cfg).bind fun found _ => ?_
  cases found with
  | some entry => exact (classifies_call _).bind fun _ _ => .pure trivial
  | none =>
    refine (classifies_call _).bind fun apiKey _ => ?_
    unfold executeChain
    refine (classifies_decide gw request cfg).bind fun decision _ => ?_
    exact .scope nofun (classifies_runChain gw request tenant cfg _ apiKey reservation)

/-! ## `_stream_impl` -/

/-- A coroutine of the stream, by the failure it keeps. -/
abbrev StreamClassifies {α : Type} (Q : α → Prop) (c : Coro Calls Raised StreamVars α) : Prop :=
  Classifies (fun v => Kept v.lastError) Q c

theorem classifies_handle (d : Deployment) (ev : LLMStreamEvent) :
    StreamClassifies (fun _ => True) (handle gw d ev) := by
  have entered (v : StreamVars) (index : Nat) (entry : ToolEntry) :
      (v.setEntry index entry).lastError = v.lastError := by
    unfold StreamVars.setEntry
    split <;> rfl
  unfold handle
  split
  · split
    · exact .pure trivial
    · exact .modify_bind (fun _ kept => kept) (.pure trivial)
  · refine Coro.Upholds.get.bind fun v _ => ?_
    refine .modify_bind (fun v kept => ?_) (.pure trivial)
    change Kept (v.setEntry _ _).lastError
    rwa [entered]
  · refine Coro.Upholds.get.bind fun v _ => ?_
    exact .modify_bind (fun v kept => by rwa [entered]) (.pure trivial)
  · refine Coro.Upholds.get.bind fun v _ => ?_
    split
    · exact .modify_bind (fun v kept => by rwa [entered]) (.pure trivial)
    · exact .pure trivial
  · split
    · exact .modify_bind (fun _ kept => kept) (.pure trivial)
    · exact .pure trivial
  · exact .modify_bind (fun _ kept => kept) (.pure trivial)
  · exact .throw rfl
  · exact .pure trivial

theorem classifies_forwardEvents (d : Deployment) (events : List LLMStreamEvent) :
    StreamClassifies (fun _ => True) (forwardEvents gw d events) := by
  induction events with
  | nil => exact .pure trivial
  | cons ev rest ih =>
    refine (classifies_handle gw d ev).bind fun out _ => ?_
    cases out with
    | some out => exact (classifies_call _).bind fun _ _ => ih
    | none => exact ih

theorem classifies_consume (d : Deployment) :
    StreamClassifies (fun _ => True) (consume gw request tenant d) := by
  unfold consume
  refine (classifies_openStream _ _ _).bind fun script told => ?_
  refine .modify_bind (fun _ kept => kept) ?_
  refine (classifies_forwardEvents gw d _).bind fun _ _ => ?_
  split
  · rename_i e is
    exact .throw (told e is)
  · split
    · exact .throw trivial
    · exact .pure trivial

theorem classifies_releaseOnce : StreamClassifies (fun _ => True) releaseOnce := by
  refine Coro.Upholds.get.bind fun v _ => ?_
  split
  · refine .modify_bind (fun _ kept => kept) ?_
    exact Coro.Upholds.get.bind fun v _ => classifies_call _
  · exact .pure trivial

theorem classifies_abandon {α : Type} {e : Raised} (told : Told e) :
    StreamClassifies (fun _ : α => True) (abandon e) := by
  have closed : StreamClassifies (fun _ => True) closeUpstream := by
    refine Coro.Upholds.get.bind fun v _ => ?_
    split
    · exact classifies_suppress (classifies_call _)
    · exact .pure trivial
  exact closed.bind fun _ _ => classifies_releaseOnce.bind fun _ _ => .throw told

theorem classifies_failAttempt (chain : FallbackChain) (d : Deployment) {e : Raised}
    (told : Told e) : StreamClassifies (fun _ => True) (failAttempt chain d e) := by
  have kept : Kept (some (asProviderCallError e d)) := by
    rintro _ ⟨⟩
    unfold asProviderCallError
    split
    · exact told
    · rfl
  unfold failAttempt
  refine .modify_bind (fun _ _ => kept) ?_
  refine (classifies_call _).bind fun _ _ => Coro.Upholds.get.bind fun v _ => ?_
  split
  · exact (classifies_call _).bind fun _ _ => classifies_releaseOnce.bind fun _ _ => .pure trivial
  · exact .modify_bind (fun _ kept => kept) (.pure trivial)

theorem classifies_attemptStream (chain : FallbackChain) (d : Deployment) :
    StreamClassifies (fun _ => True) (attemptStream gw request tenant chain d) := by
  refine .tryCatch (F := Told) ?_ fun e told => ?_
  · exact (classifies_consume gw request tenant d).bind fun _ _ => .pure trivial
  · unfold onAttemptRaise
    split
    · exact classifies_abandon told
    · exact classifies_abandon told
    · split
      · exact classifies_failAttempt chain d told
      · exact .throw told

theorem classifies_complete (d : Deployment) :
    StreamClassifies (fun _ => True) (complete gw request cfg d) := by
  unfold complete
  refine (classifies_call _).bind fun _ _ => Coro.Upholds.get.bind fun v _ => ?_
  refine (classifies_call _).bind fun _ _ => ?_
  refine .modify_bind (fun _ kept => kept) ?_
  refine (classifies_afterSuccess gw request cfg _).bind fun _ _ => ?_
  exact (classifies_call _).bind fun _ _ => classifies_call _

theorem classifies_streamRound (chain : FallbackChain) (apiKey : String) :
    StreamClassifies (fun _ => True) (streamRound gw request tenant cfg chain apiKey) := by
  unfold streamRound
  refine Coro.Upholds.get.bind fun v _ => ?_
  split
  · exact .pure trivial
  · rename_i d rest targets
    refine .modify_bind (fun _ kept => kept) ?_
    refine Coro.Upholds.get.bind fun v _ => ?_
    split
    · exact .pure trivial
    · refine .modify_bind (fun _ kept => kept) ?_
      refine (classifies_call _).bind fun _ _ => ?_
      refine .modify_bind (fun _ kept => kept) ?_
      refine (classifies_attemptStream gw request tenant chain d).bind fun flow _ => ?_
      cases flow with
      | completed => exact (classifies_complete gw request cfg d).bind fun _ _ => .pure trivial
      | again => exact .pure trivial
      | left => exact .pure trivial

theorem streamExhausted_told {v : StreamVars} (kept : Kept v.lastError) :
    Told (streamExhausted v) := by
  unfold streamExhausted
  split
  · exact kept _ ‹_›
  · have general : FailureClass.general = classifyFailure "no deployments" := by decide
    exact general

/-- What the `try` block of `_stream_impl` raises is told. -/
theorem classifies_streamBody :
    StreamClassifies (fun _ => True) (streamBody gw request tenant cfg) := by
  unfold streamBody
  refine (classifies_call _).bind fun reservation _ => ?_
  refine .modify_bind (fun _ kept => kept) ?_
  refine (classifies_call _).bind fun apiKey _ => ?_
  refine (classifies_decide gw request cfg).bind fun decision _ => ?_
  refine .modify_bind (fun _ kept => kept) ?_
  refine (Coro.Upholds.iterate ((classifies_streamRound gw request tenant cfg _ apiKey).mono
    fun _ _ _ _ => trivial) _).bind fun found _ => ?_
  split
  · exact .throw trivial
  · exact .pure trivial
  · refine classifies_releaseOnce.bind fun _ _ => ?_
    exact Coro.Upholds.get.bind fun v kept => .throw (streamExhausted_told kept)

end

end AgentStudio.Gateway.Classed
