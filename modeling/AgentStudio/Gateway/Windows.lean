import AgentStudio.Gateway.Staged

/-!
# Windows after an overflow

A payload that overflowed one window is to go to a larger one. The chain names
every candidate of the router first, and of the catalog the two largest windows,
which may be no larger than the one that overflowed.
-/

namespace AgentStudio.Gateway
open Async Quota

/-- Where the catalog knows both windows, the second is the larger. -/
def Larger (catalog : Catalog) (d x : Deployment) : Prop :=
  ∀ small ∈ catalog.get d.1 d.2, ∀ large ∈ catalog.get x.1 x.2,
    small.contextWindow < large.contextWindow

/-- After an overflow the messages go to larger windows alone. -/
def Grows (catalog : Catalog) (all : List Mark) : Prop :=
  all.Pairwise fun earlier later =>
    ∀ d x, earlier = .failed d .contextWindow → later = .called x → Larger catalog d x

/-- At each failure, all that the chain goes on to is larger than what has overflowed. -/
def Widens (catalog : Catalog) (chain : FallbackChain) (all : List Mark) : Prop :=
  ∀ pre d failureClass post, all = pre ++ .failed d failureClass :: post →
    ∀ overflowed, .failed overflowed .contextWindow ∈ pre ++ [.failed d failureClass] →
      ∀ x ∈ chain.left failureClass (failedIn pre ++ [d]), Larger catalog overflowed x

section
variable {catalog : Catalog} {chain : FallbackChain} {first d x : Deployment}
  {fails : Deployment → FailureClass → Prop} {all more : List Mark} {targets seen : List Deployment}
  {classOf : Deployment → FailureClass}

theorem Widens.earlier (h : Widens catalog chain (all ++ more)) : Widens catalog chain all := by
  intro pre d failureClass post split
  exact h pre d failureClass (post ++ more) (by rw [split, List.append_assoc, List.cons_append])

theorem Grows.called (h : Grows catalog all)
    (larger : ∀ d, .failed d .contextWindow ∈ all → Larger catalog d x) :
    Grows catalog (all ++ [.called x]) := by
  apply List.pairwise_append.mpr
  refine ⟨h, List.pairwise_singleton _ _, ?_⟩
  rintro earlier mem later at_ d x' rfl rfl
  obtain rfl := Mark.called.inj (List.mem_singleton.mp at_)
  exact larger d mem

theorem Grows.other (h : Grows catalog all) (mark : Mark) (other : ∀ x, mark ≠ .called x) :
    Grows catalog (all ++ [mark]) := by
  apply List.pairwise_append.mpr
  refine ⟨h, List.pairwise_singleton _ _, ?_⟩
  rintro earlier - later at_ d x' - is
  exact absurd (List.mem_singleton.mp at_ ▸ is) (other x')

/-- While the chain widens, what it goes on to is larger than all that overflowed. -/
theorem ChainMarks.grows (h : ChainMarks chain first fails all targets seen)
    (widens : Widens catalog chain all) :
    Grows catalog all ∧
      ∀ x ∈ targets, ∀ d, .failed d .contextWindow ∈ all → Larger catalog d x := by
  induction h with
  | start => exact ⟨.nil, by simp⟩
  | @failed marks d rest seen failureClass h shown ih =>
    obtain ⟨grows, larger⟩ := ih widens.earlier
    have tried : failedIn (marks ++ [.called d]) = seen := by
      rw [h.seen_eq]
      simp [failedIn]
    have sent := (grows.called (larger d List.mem_cons_self)).other (.failed d failureClass) (by simp)
    rw [List.append_assoc] at sent
    refine ⟨sent, fun x mem overflowed before => ?_⟩
    apply widens (marks ++ [.called d]) d failureClass [] (by simp) overflowed
    · simpa using before
    · rwa [tried]
  | @unbuilt marks d rest seen failureClass h shown ih =>
    obtain ⟨grows, -⟩ := ih widens.earlier
    refine ⟨grows.other _ (by simp), fun x mem overflowed before => ?_⟩
    apply widens marks d failureClass [] rfl overflowed before
    rwa [← h.seen_eq]

theorem RunMarks.grows (h : RunMarks chain first fails all) (widens : Widens catalog chain all) :
    Grows catalog all := by
  cases h with
  | between h => exact (h.grows widens).1
  | called h =>
    obtain ⟨grows, larger⟩ := h.grows widens.earlier
    exact grows.called (larger _ List.mem_cons_self)
  | @served marks d rest seen h =>
    obtain ⟨grows, larger⟩ := h.grows widens.earlier
    have sent := (grows.called (larger d List.mem_cons_self)).other (.served d) (by simp)
    rwa [List.append_assoc] at sent

/-- A run that comes to a window no larger than one that overflowed. -/
theorem Comes.not_grows {t : Run} (comes : Comes t classOf seen x) (mem : d ∈ seen)
    (overflowed : classOf d = .contextWindow) (small : ¬ Larger catalog d x) :
    ¬ Grows catalog (marks t) := by
  intro grows
  obtain ⟨earlier, is, failed⟩ := comes
  rw [is] at grows
  have apart := (List.pairwise_append.mp grows).2.2 _ (failed d mem) (.called x) (by simp)
  exact small (apart d x (by rw [overflowed]) rfl)

end

/-- For every gateway, request, config and catalog: a run of `generate` in which the chain
widens sends nothing to a window no larger than one that overflowed, and this is so of
all its runs exactly when the chain widens in all of them; and so for `_stream_impl`. -/
theorem grows_iff (gw : Service) (request : Request) (tenant : TenantConfig) (cfg : Cfg)
    (catalog : Catalog) :
    ((∀ t o, (generate gw request tenant cfg).Runs () t o () →
        Widens catalog (fallbackChain gw request cfg (candidatesAt gw request cfg 3)) (marks t) →
          Grows catalog (marks t)) ∧
      ((∀ t o, (generate gw request tenant cfg).Runs () t o () → Grows catalog (marks t)) ↔
        ∀ t o, (generate gw request tenant cfg).Runs () t o () →
          Widens catalog (fallbackChain gw request cfg (candidatesAt gw request cfg 3)) (marks t))) ∧
    (∀ t o v, (streamImpl gw request tenant cfg).Runs {} t o v →
        Widens catalog (fallbackChain gw request cfg (candidatesAt gw request cfg 0)) (marks t) →
          Grows catalog (marks t)) ∧
      ((∀ t o v, (streamImpl gw request tenant cfg).Runs {} t o v → Grows catalog (marks t)) ↔
        ∀ t o v, (streamImpl gw request tenant cfg).Runs {} t o v →
          Widens catalog (fallbackChain gw request cfg (candidatesAt gw request cfg 0)) (marks t)) := by
  have all : ∀ ev : Ev, True → ∀ d failureClass, Tells ev d failureClass → True :=
    fun _ _ _ _ _ => trivial
  have empty (chain : FallbackChain) : Widens catalog chain [] := by simp [Widens]
  constructor
  · let chain := fallbackChain gw request cfg (candidatesAt gw request cfg 3)
    have enough (t : Run) (o) (run : (generate gw request tenant cfg).Runs () t o ())
        (widens : Widens catalog chain (marks t)) : Grows catalog (marks t) := by
      rcases generate_marks all run fun _ _ => trivial with none_ | ⟨up, -, h⟩
      · rw [none_]
        exact .nil
      · exact h.grows widens
    refine ⟨enough, fun grows t o run => ?_, fun widens t o run => enough t o run (widens t o run)⟩
    rcases generate_marks all run fun _ _ => trivial with none_ | ⟨up, -, h⟩
    · rw [none_]
      exact empty chain
    · rintro pre d failureClass post split overflowed mem x left
      by_contra small
      have before := (split ▸ h).before
      obtain ⟨classOf, known, later⟩ := before.classes_rest failureClass
      obtain ⟨t', run', -, comes⟩ := generate_comes gw request cfg tenant
        (Router.decide_mem (candidatesAt_ne_nil 2) up) before known later left "" [] none
      have tried : overflowed ∈ failedIn pre ++ [d] := before.seen_eq ▸ mem_failedIn.mpr ⟨_, mem⟩
      exact comes.not_grows tried (known _ _ mem) small (grows t' _ run')
  · let chain := fallbackChain gw request cfg (candidatesAt gw request cfg 0)
    have enough (t : Run) (o v) (run : (streamImpl gw request tenant cfg).Runs {} t o v)
        (widens : Widens catalog chain (marks t)) : Grows catalog (marks t) := by
      rcases streamImpl_marks all run fun _ _ => trivial with none_ | ⟨up, -, h⟩
      · rw [none_]
        exact .nil
      · exact h.grows widens
    refine ⟨enough, fun grows t o v run => ?_, fun widens t o v run => enough t o v run (widens t o v run)⟩
    rcases streamImpl_marks all run fun _ _ => trivial with none_ | ⟨up, -, h⟩
    · rw [none_]
      exact empty chain
    · rintro pre d failureClass post split overflowed mem x left
      by_contra small
      have before := (split ▸ h).before
      obtain ⟨classOf, known, later⟩ := before.classes_rest failureClass
      obtain ⟨t', v', run', -, comes⟩ := streamImpl_comes gw request cfg tenant
        (Router.decide_mem (candidatesAt_ne_nil 2) up) before known later left "" [] none
      have tried : overflowed ∈ failedIn pre ++ [d] := before.seen_eq ▸ mem_failedIn.mpr ⟨_, mem⟩
      exact comes.not_grows tried (known _ _ mem) small (grows t' _ _ run')

/-- `gpt-4o-mini` overflows, and everything else answers. -/
def miniOverflows : Assignment where
  outcome d :=
    if d.2 = "gpt-4o-mini" then .callFails (sampleText .contextWindow) else .succeeds "" []

/-- The messages that overflowed 128000 tokens are sent again to a window of 128000. -/
theorem same_window : marks ((generate {} twoModels { id := "acme" } {}).traceWith
        miniOverflows.answers ()) =
      [.called ("openai", "gpt-4o-mini"), .failed ("openai", "gpt-4o-mini") .contextWindow,
        .called ("openai", "gpt-4o"), .served ("openai", "gpt-4o")] ∧
    ¬ ∀ (gw : Service) (request : Request) (tenant : TenantConfig) (cfg : Cfg) (t : Run)
      (o : Except Raised Result), (generate gw request tenant cfg).Runs () t o () →
        Grows gw.defaultCatalog (marks t) := by
  have sent : marks ((generate {} twoModels { id := "acme" } {}).traceWith
        miniOverflows.answers ()) =
      [.called ("openai", "gpt-4o-mini"), .failed ("openai", "gpt-4o-mini") .contextWindow,
        .called ("openai", "gpt-4o"), .served ("openai", "gpt-4o")] := by decide +kernel
  refine ⟨sent, fun claim => ?_⟩
  obtain ⟨o, _, run⟩ := Coro.runs_traceWith (generate {} twoModels { id := "acme" } {})
    miniOverflows.answers ()
  have grows := claim {} twoModels _ {} _ o run
  rw [sent] at grows
  have larger : Larger Catalog.seed ("openai", "gpt-4o-mini") ("openai", "gpt-4o") :=
    (List.pairwise_cons.mp (List.pairwise_cons.mp grows).2).1 _ (by simp) _ _ rfl rfl
  exact absurd (larger _ (by decide +kernel : _ = some (ModelSpec.mk "openai" "gpt-4o-mini" 128000 (15 / 100) (60 / 100)))
    _ (by decide +kernel : _ = some (ModelSpec.mk "openai" "gpt-4o" 128000 (250 / 100) 10))) (by decide)

end AgentStudio.Gateway
