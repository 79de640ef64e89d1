import AgentStudio.Gateway.Staged

/-!
# Pinned requests

The router's only candidate for a pinned request is the pinned deployment. The
chain built on it still names others after a refusal and after an overflow, and
both loops go on to them.
-/

namespace AgentStudio.Gateway
open Async Quota

/-! ## Only the pinned deployment -/

section
variable {chain : FallbackChain} {pinned : Deployment} {fails : Deployment → FailureClass → Prop}
  {marks : List Mark} {targets seen : List Deployment}

theorem left_eq_nil {failureClass : FailureClass} {seen : List Deployment}
    (only : chain.targets failureClass ⊆ [pinned]) (tried : pinned ∈ seen) :
    chain.left failureClass seen = [] := by
  apply List.filter_eq_nil_iff.mpr
  intro d mem
  have is : d = pinned := List.mem_singleton.mp (only mem)
  simpa [is] using tried

/-- While no failure names another deployment, the pinned one is tried and then none. -/
theorem ChainMarks.only (h : ChainMarks chain pinned fails marks targets seen)
    (only : ∀ d failureClass, fails d failureClass → chain.targets failureClass ⊆ [pinned]) :
    (targets = [pinned] ∧ seen = [] ∨ targets = []) ∧ ∀ d, .called d ∈ marks → d = pinned := by
  induction h with
  | start => exact ⟨.inl ⟨rfl, rfl⟩, by simp⟩
  | @failed marks d rest seen failureClass h shown ih =>
    obtain ⟨⟨is, rfl⟩ | empty, called⟩ := ih
    · obtain ⟨rfl, rfl⟩ := List.cons.inj is
      refine ⟨.inr (left_eq_nil (only _ _ shown) (by simp)), fun x mem => ?_⟩
      simp only [List.mem_append, List.mem_cons, Mark.called.injEq, reduceCtorEq,
        List.not_mem_nil, or_false] at mem
      exact mem.elim (called x) id
    · cases empty
  | @unbuilt marks d rest seen failureClass h shown ih =>
    obtain ⟨⟨is, rfl⟩ | empty, called⟩ := ih
    · obtain ⟨rfl, rfl⟩ := List.cons.inj is
      refine ⟨.inr (left_eq_nil (only _ _ shown) (by simp)), fun x mem => ?_⟩
      simp only [List.mem_append, List.mem_singleton, reduceCtorEq, or_false] at mem
      exact called x mem
    · cases empty

theorem RunMarks.only (h : RunMarks chain pinned fails marks)
    (only : ∀ d failureClass, fails d failureClass → chain.targets failureClass ⊆ [pinned]) :
    ∀ d, .called d ∈ marks → d = pinned := by
  have one {earlier more : List Mark} {d : Deployment} {rest seen : List Deployment}
      (h : ChainMarks chain pinned fails earlier (d :: rest) seen)
      (same : ∀ x, .called x ∈ more → x = d) : ∀ x, .called x ∈ earlier ++ more → x = pinned := by
    obtain ⟨⟨is, -⟩ | empty, called⟩ := h.only only
    · obtain ⟨rfl, -⟩ := List.cons.inj is
      intro x mem
      exact (List.mem_append.mp mem).elim (called x) (same x)
    · cases empty
  cases h with
  | between h => exact (h.only only).2
  | called h => exact one h (by simp)
  | served h => exact one h (by simp)

end

/-! ## Another deployment -/

/-- The pinned deployment fails and every other one answers. -/
def pinnedFails (pinned : Deployment) (failureClass : FailureClass) : Assignment where
  outcome d := if d = pinned then .callFails (sampleText failureClass) else .succeeds "" []

section
variable (gw : Service) (request : Request) (tenant : TenantConfig) (cfg : Cfg)
  {entry : String} (pin : nonEmpty request.pinned = some entry)

include pin in
theorem candidates_pinned (n : Nat) : candidatesAt gw request cfg n = [splitDeployment entry] := by
  rw [candidatesAt, Router.candidates, pin]

theorem decide_single (d : Deployment) (up : Deployment → Bool) : Router.decide [d] up = d := by
  unfold Router.decide
  cases is : up d <;> simp [is]

include pin in
theorem decision_pinned (a : Assignment) : decision gw request cfg a = splitDeployment entry := by
  rw [decision, candidates_pinned gw request cfg pin, decide_single]

/-- The chain of a pinned request. -/
def pinnedChain (entry : String) : FallbackChain :=
  fallbackChain gw request cfg [splitDeployment entry]

/-- Where the chain names another deployment, the walk goes on to one. -/
theorem walk_other {chain : FallbackChain} {pinned : Deployment} {failureClass : FailureClass}
    (others : ¬ chain.targets failureClass ⊆ [pinned]) {goesOn : Deployment → Option String}
    (fails : goesOn pinned = some (sampleText failureClass))
    (answers : ∀ d, d ≠ pinned → goesOn d = none) :
    ∃ d, d ≠ pinned ∧ walk chain goesOn (chainFuel chain) [pinned] [] = [pinned, d] := by
  obtain ⟨d, mem, other⟩ : ∃ d ∈ chain.targets failureClass, d ≠ pinned := by
    by_contra none_
    apply others
    intro d mem
    by_contra other
    exact none_ ⟨d, mem, by simpa using other⟩
  have listed : d ∈ nextTargets chain (sampleText failureClass) [pinned] := by
    rw [nextTargets, classify_sample]
    exact List.mem_filter.mpr ⟨mem, by simpa using other⟩
  obtain ⟨x, rest, next⟩ := List.exists_cons_of_ne_nil (List.ne_nil_of_mem listed)
  have new : x ≠ pinned := by
    have mem : x ∈ nextTargets chain (sampleText failureClass) [pinned] := by simp [next]
    rw [nextTargets] at mem
    simpa using (List.mem_filter.mp mem).2
  refine ⟨x, new, ?_⟩
  rw [chainFuel, walk, fails]
  dsimp only
  rw [List.nil_append, next, walk, answers x new]

/-- The messages were sent to no deployment but this one. -/
def OnlyTo (t : Run) (d : Deployment) : Prop := ∀ x, .called x ∈ marks t → x = d

/-- Every failure of the run is of one of these classes. -/
def FailsWithin (classes : FailureClass → Prop) (t : Run) : Prop :=
  ∀ d failureClass, .failed d failureClass ∈ marks t → classes failureClass

theorem pinnedFails_built (pinned : Deployment) (failureClass : FailureClass) :
    (pinnedFails pinned failureClass).Built := by
  intro d message
  unfold pinnedFails
  dsimp only
  split <;> exact nofun

theorem pinnedFails_outcome {pinned d : Deployment} (failureClass : FailureClass)
    (other : d ≠ pinned) : (pinnedFails pinned failureClass).outcome d = .succeeds "" [] :=
  if_neg other

/-- What is staged with the pinned deployment failing in one class. -/
theorem pinnedFails_within {t : Run} {chain : FallbackChain} {first pinned : Deployment}
    {failureClass : FailureClass} {classes : FailureClass → Prop} (mem : classes failureClass)
    (h : RunMarks chain first (fun d shown => ∃ message,
      (pinnedFails pinned failureClass).outcome d = .callFails message ∧
        classifyFailure message = shown) (marks t)) : FailsWithin classes t := by
  intro d shown failed
  obtain ⟨message, outcome, rfl⟩ := h.shown failed
  by_cases same : d = pinned
  · have text : sampleText failureClass = message := by
      simpa [pinnedFails, same] using outcome
    rw [← text, classify_sample]
    exact mem
  · rw [pinnedFails_outcome failureClass same] at outcome
    cases outcome

include pin in
/-- For every request pinned to a deployment, config, catalog and failure classes: the
runs of `generate` whose failures are of these classes call the pinned deployment alone,
and so do those of `_stream_impl`, exactly when the chain names no other for any of the
classes. -/
theorem pinned_only_iff (classes : FailureClass → Prop) :
    ((∀ t o, (generate gw request tenant cfg).Runs () t o () → FailsWithin classes t →
        OnlyTo t (splitDeployment entry)) ↔
      ∀ failureClass, classes failureClass →
        (pinnedChain gw request cfg entry).targets failureClass ⊆ [splitDeployment entry]) ∧
    ((∀ t o v, (streamImpl gw request tenant cfg).Runs {} t o v → FailsWithin classes t →
        OnlyTo t (splitDeployment entry)) ↔
      ∀ failureClass, classes failureClass →
        (pinnedChain gw request cfg entry).targets failureClass ⊆ [splitDeployment entry]) := by
  let pinned := splitDeployment entry
  have all : ∀ ev : Ev, True → ∀ d failureClass, Tells ev d failureClass → True :=
    fun _ _ _ _ _ => trivial
  have chainAt (n : Nat) : fallbackChain gw request cfg (candidatesAt gw request cfg n) =
      pinnedChain gw request cfg entry := by rw [candidates_pinned gw request cfg pin, pinnedChain]
  have first (up : Deployment → Bool) :
      Router.decide (candidatesAt gw request cfg 2) up = pinned := by
    rw [candidates_pinned gw request cfg pin, decide_single]
  have enough (named : ∀ failureClass, classes failureClass →
      (pinnedChain gw request cfg entry).targets failureClass ⊆ [pinned]) {t : Run}
      (within : FailsWithin classes t) {fails : Deployment → FailureClass → Prop}
      (h : RunMarks (pinnedChain gw request cfg entry) pinned fails (marks t)) :
      OnlyTo t pinned :=
    have said : RunMarks (pinnedChain gw request cfg entry) pinned
        (fun d failureClass => .failed d failureClass ∈ marks t) (marks t) := h.mono fun _ _ mem => mem
    said.only fun d failureClass mem => named _ (within d failureClass mem)
  have staged {failureClass : FailureClass}
      (others : ¬ (pinnedChain gw request cfg entry).targets failureClass ⊆ [pinned]) :
      ∃ d, d ≠ pinned ∧ generateWalk gw request cfg (pinnedFails pinned failureClass) = [pinned, d] ∧
        streamWalk gw request cfg (pinnedFails pinned failureClass) = [pinned, d] := by
    have own : (pinnedFails pinned failureClass).outcome pinned =
        .callFails (sampleText failureClass) := if_pos rfl
    have fails : ((pinnedFails pinned failureClass).outcome pinned).message =
        some (sampleText failureClass) := by simp only [own, Outcome.message]
    have answers (d : Deployment) (other : d ≠ pinned) :
        ((pinnedFails pinned failureClass).outcome d).message = none := by
      simp only [pinnedFails_outcome failureClass other, Outcome.message]
    obtain ⟨d, other, walked⟩ := walk_other others fails answers
    have same : (fun d => ((pinnedFails pinned failureClass).outcome d).callMessage) =
        fun d => ((pinnedFails pinned failureClass).outcome d).message := by
      funext d
      cases outcome : (pinnedFails pinned failureClass).outcome d with
      | adapterFails message => exact absurd outcome (pinnedFails_built _ _ d message)
      | callFails message => rfl
      | succeeds content usage => rfl
    refine ⟨d, other, ?_, ?_⟩
    · rw [generateWalk, chainAt, decision_pinned gw request cfg pin]
      exact walked
    · rw [streamWalk, chainAt, decision_pinned gw request cfg pin, same]
      exact walked
  constructor
  · constructor
    · intro claim failureClass mem
      by_contra others
      obtain ⟨d, other, walked, -⟩ := staged others
      obtain ⟨t, run, answered, served⟩ := generate_staged gw request tenant cfg _
        (by rw [walked]; rfl) (pinnedFails_outcome failureClass other)
      obtain ⟨up, -, h⟩ := (generate_marks (told_staged (pinnedFails_built _ _)) run answered).resolve_left
        (List.ne_nil_of_mem served)
      exact other (claim t _ run (pinnedFails_within mem h) d (h.called_of_served served))
    · intro named t o run within
      rcases generate_marks all run fun _ _ => trivial with none_ | ⟨up, -, h⟩
      · simp [OnlyTo, none_]
      · rw [chainAt, first] at h
        exact enough named within h
  · constructor
    · intro claim failureClass mem
      by_contra others
      obtain ⟨d, other, -, walked⟩ := staged others
      obtain ⟨t, v, run, answered, served⟩ := streamImpl_staged gw request tenant cfg _
        (by rw [walked]; rfl) (pinnedFails_outcome failureClass other)
      obtain ⟨up, -, h⟩ := (streamImpl_marks (told_staged (pinnedFails_built _ _)) run
        answered).resolve_left (List.ne_nil_of_mem served)
      exact other (claim t _ v run (pinnedFails_within mem h) d (h.called_of_served served))
    · intro named t o v run within
      rcases streamImpl_marks all run fun _ _ => trivial with none_ | ⟨up, -, h⟩
      · simp [OnlyTo, none_]
      · rw [chainAt, first] at h
        exact enough named within h

end

/-! ## Runs past the pin -/

def pinnedRequest : Request :=
  { tenantId := "acme", messages := [{ content := "hi" }], pinned := some "openai:gpt-4o" }

/-- The marks of the staged run of `generate`. -/
def pinnedRun (failureClass : FailureClass) (cfg : Cfg) : Run :=
  (generate {} pinnedRequest { id := "acme" } cfg).traceWith
    (pinnedFails ("openai", "gpt-4o") failureClass).answers ()

/-- After an overflow the largest window of the catalog is called, and after a refusal
the tenant's fallback in another family. -/
theorem pin_left : marks (pinnedRun .contextWindow {}) =
      [.called ("openai", "gpt-4o"), .failed ("openai", "gpt-4o") .contextWindow,
        .called ("google", "gemini-1.5-flash"), .served ("google", "gemini-1.5-flash")] ∧
    marks (pinnedRun .contentPolicy { fallbackModels := ["anthropic:claude-3-5-haiku"] }) =
      [.called ("openai", "gpt-4o"), .failed ("openai", "gpt-4o") .contentPolicy,
        .called ("anthropic", "claude-3-5-haiku"), .served ("anthropic", "claude-3-5-haiku")] ∧
    ¬ ∀ (gw : Service) (request : Request) (tenant : TenantConfig) (cfg : Cfg) (entry : String),
      nonEmpty request.pinned = some entry → ∀ t o, (generate gw request tenant cfg).Runs () t o () →
        OnlyTo t (splitDeployment entry) := by
  have overflow : marks (pinnedRun .contextWindow {}) =
      [.called ("openai", "gpt-4o"), .failed ("openai", "gpt-4o") .contextWindow,
        .called ("google", "gemini-1.5-flash"), .served ("google", "gemini-1.5-flash")] := by
    decide +kernel
  refine ⟨overflow, by decide +kernel, fun claim => ?_⟩
  obtain ⟨o, _, run⟩ := Coro.runs_traceWith (generate {} pinnedRequest { id := "acme" } {})
    (pinnedFails ("openai", "gpt-4o") .contextWindow).answers ()
  have only := claim {} pinnedRequest _ {} "openai:gpt-4o" (by decide +kernel) _ o run
  have other := only ("google", "gemini-1.5-flash") (by
    change _ ∈ marks (pinnedRun .contextWindow {})
    rw [overflow]
    simp)
  exact absurd other (by decide +kernel)

theorem pinned_only_iff_default :
    nonEmpty pinnedRequest.pinned = some "openai:gpt-4o" ∧
    ((∀ t o, (generate {} pinnedRequest { id := "acme" } {}).Runs () t o () →
        FailsWithin (· = .general) t → OnlyTo t (splitDeployment "openai:gpt-4o")) ↔
      ∀ failureClass, failureClass = .general →
        (pinnedChain {} pinnedRequest {} "openai:gpt-4o").targets failureClass ⊆
          [splitDeployment "openai:gpt-4o"]) := by
  have pin : nonEmpty pinnedRequest.pinned = some "openai:gpt-4o" := by decide +kernel
  exact ⟨pin, (pinned_only_iff {} pinnedRequest { id := "acme" } {} pin (· = .general)).1⟩

end AgentStudio.Gateway
