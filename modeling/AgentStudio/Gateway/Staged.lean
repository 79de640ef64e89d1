import AgentStudio.Gateway.Attempts
import AgentStudio.Gateway.Parity

/-!
# Staged runs

Given what each deployment does, both loops have one run. It comes to its end at
the last deployment of the walk, and its failures are those that were staged.
-/

namespace AgentStudio.Gateway
open Async Quota

/-- A text of each class. -/
def sampleText : FailureClass → String
  | .general => "timeout"
  | .contentPolicy => "content policy"
  | .contextWindow => "context window"

theorem classify_sample (failureClass : FailureClass) :
    classifyFailure (sampleText failureClass) = failureClass := by
  cases failureClass <;> decide +kernel

-- from here on no text is classified
attribute [local irreducible] classifyFailure

/-- Every adapter is there. -/
def Assignment.Built (a : Assignment) : Prop := ∀ d message, a.outcome d ≠ .adapterFails message

/-- What a call tells of a failure is what was staged. -/
theorem told_staged {a : Assignment} (built : a.Built) (ev : Ev) (answered : ev.reply = a.answers ev.op)
    (d : Deployment) (failureClass : FailureClass) (tells : Tells ev d failureClass) :
    ∃ message, a.outcome d = .callFails message ∧ classifyFailure message = failureClass := by
  cases tells with
  | adapter d request apiKey e =>
    change Except.error e = a.answers (.getAdapter d request apiKey) at answered
    unfold Assignment.answers at answered
    cases outcome : a.outcome d with
    | adapterFails message => exact absurd outcome (built d message)
    | callFails message => simp [outcome] at answered
    | succeeds content usage => simp [outcome] at answered
  | chat d messages timeout e =>
    change Except.error e = a.answers (.chat d messages timeout) at answered
    unfold Assignment.answers at answered
    cases outcome : a.outcome d with
    | adapterFails message => exact absurd outcome (built d message)
    | callFails message =>
      simp only [outcome, Except.error.injEq] at answered
      subst answered
      exact ⟨message, rfl, rfl⟩
    | succeeds content usage => simp [outcome] at answered
  | refused d messages timeout e => cases answered
  | broke d messages timeout script fails =>
    change Except.ok script = a.answers (.openStream d messages timeout) at answered
    obtain rfl : script = (a.outcome d).script := Except.ok.inj answered
    cases outcome : a.outcome d with
    | adapterFails message => exact absurd outcome (built d message)
    | callFails message =>
      rw [outcome] at fails
      exact ⟨message, rfl, Option.some.inj fails⟩
    | succeeds content usage =>
      rw [outcome] at fails
      cases fails
  | thrown event e d => cases answered

theorem sight_success {ev : Ev} {d : Deployment} (seen : sight ev = some (.success d)) :
    ∃ r, ev = ⟨.recordSuccess d, r⟩ := by
  obtain ⟨op, r⟩ := ev
  cases op with
  | recordSuccess d' =>
    obtain rfl : d' = d := by simpa [sight] using seen
    exact ⟨r, rfl⟩
  | emit event =>
    simp only [sight] at seen
    split at seen <;> cases seen
  | _ => cases seen

section
variable (gw : Service) (request : Request) (tenant : TenantConfig) (cfg : Cfg) (a : Assignment)
  {d : Deployment} {content : String} {usage : Usage}

theorem served_of_sights {t : Run} {before : List Sight}
    (seen : t.filterMap sight = before ++ [.success d]) : .served d ∈ marks t := by
  have mem : Sight.success d ∈ t.filterMap sight := by simp [seen]
  obtain ⟨ev, mem, shown⟩ := List.mem_filterMap.mp mem
  obtain ⟨r, rfl⟩ := sight_success shown
  exact served_mem mem

/-- The staged run of `generate`, where the walk ends at a deployment that answers. -/
theorem generate_staged (last : (generateWalk gw request cfg a).getLast? = some d)
    (outcome : a.outcome d = .succeeds content usage) : ∃ t,
      (generate gw request tenant cfg).Runs () t (.ok (chatResult d content usage)) () ∧
      (∀ ev ∈ t, ev.reply = a.answers ev.op) ∧ .served d ∈ marks t := by
  obtain ⟨seen, ends⟩ := (generate_shown gw request tenant cfg a).1 d content usage last outcome
  have run := (generate gw request tenant cfg).runs_with a.answers ()
  rw [ends] at run
  exact ⟨_, run, fun _ mem => Coro.mem_traceWith mem, served_of_sights seen⟩

/-- The staged run of `_stream_impl`. -/
theorem streamImpl_staged (last : (streamWalk gw request cfg a).getLast? = some d)
    (outcome : a.outcome d = .succeeds content usage) : ∃ t v,
      (streamImpl gw request tenant cfg).Runs {} t (.ok ()) v ∧
      (∀ ev ∈ t, ev.reply = a.answers ev.op) ∧ .served d ∈ marks t := by
  obtain ⟨v, -, seen, ends⟩ :=
    (streamImpl_shown gw request tenant cfg a d last).1 content usage outcome
  have run := (streamImpl gw request tenant cfg).runs_with a.answers {}
  rw [ends] at run
  exact ⟨_, v, run, fun _ mem => Coro.mem_traceWith mem, served_of_sights seen⟩

end

/-! ## Walks and marks -/

/-- The deployments whose failure is marked. -/
def failedIn (marks : List Mark) : List Deployment :=
  marks.filterMap fun
    | .failed d _ => some d
    | _ => none

theorem mem_failedIn {marks : List Mark} {d : Deployment} :
    d ∈ failedIn marks ↔ ∃ failureClass, .failed d failureClass ∈ marks := by
  unfold failedIn
  rw [List.mem_filterMap]
  constructor
  · rintro ⟨mark, mem, is⟩
    cases mark with
    | failed d' failureClass =>
      obtain rfl := Option.some.inj is
      exact ⟨failureClass, mem⟩
    | _ => cases is
  · rintro ⟨failureClass, mem⟩
    exact ⟨_, mem, rfl⟩

section
variable {chain : FallbackChain} {first d x : Deployment}
  {fails : Deployment → FailureClass → Prop} {marks pre post : List Mark}
  {targets seen : List Deployment} {failureClass : FailureClass}
  {goesOn : Deployment → Option String}

/-- Between two attempts, all that were tried have failed. -/
theorem ChainMarks.seen_eq (h : ChainMarks chain first fails marks targets seen) :
    seen = failedIn marks := by
  induction h with
  | start => rfl
  | failed h shown ih => simp [failedIn, ih]
  | unbuilt h shown ih => simp [failedIn, ih]

/-- The deployments tried are different ones, of those the chain can name. -/
theorem ChainMarks.named (h : ChainMarks chain first fails marks targets seen) :
    seen.Nodup ∧ seen ⊆ first :: chain.allTargets ∧ targets ⊆ first :: chain.allTargets := by
  have step {d : Deployment} {rest seen : List Deployment} {failureClass : FailureClass}
      (new : d ∉ seen) (ih : seen.Nodup ∧ seen ⊆ first :: chain.allTargets ∧
        d :: rest ⊆ first :: chain.allTargets) :
      (seen ++ [d]).Nodup ∧ seen ++ [d] ⊆ first :: chain.allTargets ∧
        chain.left failureClass (seen ++ [d]) ⊆ first :: chain.allTargets := by
    obtain ⟨nodup, known, listed⟩ := ih
    refine ⟨?_, ?_, ?_⟩
    · exact List.Nodup.append nodup (List.nodup_singleton d) (List.disjoint_singleton.mpr new)
    · apply List.append_subset.mpr ⟨known, ?_⟩
      exact List.cons_subset.mpr ⟨listed List.mem_cons_self, List.nil_subset _⟩
    · intro y mem
      exact List.mem_cons_of_mem _ (chain.targets_subset _ (List.mem_filter.mp mem).1)
  induction h with
  | start => simp
  | failed h shown ih => exact step (h.fresh _ List.mem_cons_self) ih
  | unbuilt h shown ih => exact step (h.fresh _ List.mem_cons_self) ih

theorem ChainMarks.length_le (h : ChainMarks chain first fails marks targets seen) :
    seen.length ≤ chain.allTargets.length + 1 := by
  obtain ⟨nodup, known, -⟩ := h.named
  exact (List.Nodup.subperm nodup known).length_le

/-- A walk that goes on after what failed passes through it. -/
theorem ChainMarks.walk_eq (h : ChainMarks chain first fails marks targets seen)
    (goes : ∀ d failureClass, fails d failureClass →
      ∃ message, goesOn d = some message ∧ classifyFailure message = failureClass) (n : Nat) :
    walk chain goesOn (seen.length + n) [first] [] = seen ++ walk chain goesOn n targets seen := by
  have step {d : Deployment} {rest seen : List Deployment} {failureClass : FailureClass} {n : Nat}
      (shown : fails d failureClass)
      (ih : ∀ n, walk chain goesOn (seen.length + n) [first] [] =
        seen ++ walk chain goesOn n (d :: rest) seen) :
      walk chain goesOn ((seen ++ [d]).length + n) [first] [] = (seen ++ [d]) ++
        walk chain goesOn n (chain.left failureClass (seen ++ [d])) (seen ++ [d]) := by
    obtain ⟨message, on, rfl⟩ := goes d _ shown
    have more : (seen ++ [d]).length + n = seen.length + (n + 1) := by
      rw [List.length_append, List.length_singleton]
      omega
    rw [more, ih, walk, on, List.append_assoc, List.singleton_append]
    rfl
  induction h generalizing n with
  | start => simp
  | failed h shown ih => exact step shown ih
  | unbuilt h shown ih => exact step shown ih

/-- A walk whose failures are all of one class comes to the first target that answers. -/
theorem walk_reaches {all : List Deployment} (named : chain.allTargets ⊆ all) {message : String}
    (shown : classifyFailure message = failureClass) (mem : x ∈ chain.left failureClass seen)
    (stops : goesOn x = none)
    (fails : ∀ y ∈ chain.left failureClass seen, y ≠ x → goesOn y = some message)
    {n : Nat} (fuel : unseen all seen < n) :
    (walk chain goesOn n (chain.left failureClass seen) seen).getLast? = some x := by
  subst shown
  induction n generalizing seen with
  | zero => omega
  | succ n ih =>
    cases left : chain.left (classifyFailure message) seen with
    | nil => simp [left] at mem
    | cons d rest =>
      have here : d ∈ chain.left (classifyFailure message) seen := by simp [left]
      rw [walk]
      by_cases same : d = x
      · rw [same, stops]
        rfl
      · rw [fails d here same]
        obtain ⟨target, new⟩ := List.mem_filter.mp here
        have known := named (chain.targets_subset _ target)
        have less := unseen_lt known (by simpa using new)
        have fewer : chain.left (classifyFailure message) (seen ++ [d]) ⊆
            chain.left (classifyFailure message) seen := by
          intro y mem
          obtain ⟨target, fresh⟩ := List.mem_filter.mp mem
          exact List.mem_filter.mpr ⟨target, by simp_all⟩
        have later : x ∈ chain.left (classifyFailure message) (seen ++ [d]) := by
          obtain ⟨target, fresh⟩ := List.mem_filter.mp mem
          refine List.mem_filter.mpr ⟨target, ?_⟩
          simp only [List.mem_append, List.mem_singleton, not_or, decide_eq_true_eq]
          exact ⟨by simpa using fresh, Ne.symm same⟩
        have rest := ih (by omega) later fun y mem => fails y (fewer mem)
        change (d :: walk chain goesOn n (chain.left (classifyFailure message) (seen ++ [d]))
          (seen ++ [d])).getLast? = some x
        rw [List.getLast?_cons, rest]
        rfl

/-- An element that is not in the second part splits the first. -/
theorem split_left {α : Type} {xs ys pre post : List α} {a : α}
    (split : xs ++ ys = pre ++ a :: post) (apart : a ∉ ys) : ∃ post', xs = pre ++ a :: post' := by
  rcases List.append_eq_append_iff.mp split with ⟨as, -, rest⟩ | ⟨bs, is, rest⟩
  · exact absurd (by simp [rest]) apart
  · cases bs with
    | nil =>
      rw [List.nil_append] at rest
      exact absurd (by simp [← rest]) apart
    | cons b bs =>
      obtain ⟨rfl, -⟩ := List.cons.inj rest
      exact ⟨bs, is⟩

/-- A failure among marks that end in one is that one, or an earlier. -/
theorem split_failed (more : List Mark) {d' : Deployment} {c : FailureClass}
    (split : marks ++ (more ++ [.failed d' c]) = pre ++ .failed d failureClass :: post)
    (apart : .failed d failureClass ∉ more) :
    (d' = d ∧ c = failureClass ∧ marks ++ more = pre) ∨
      ∃ post', marks = pre ++ .failed d failureClass :: post' := by
  rw [← List.append_assoc] at split
  rcases List.eq_nil_or_concat post with rfl | ⟨post', mark, rfl⟩
  · obtain ⟨same, is⟩ := List.append_inj' split rfl
    cases is
    exact .inl ⟨rfl, rfl, same⟩
  · rw [List.concat_eq_append, ← List.cons_append, ← List.append_assoc] at split
    obtain ⟨same, -⟩ := List.append_inj' split rfl
    exact .inr (split_left same apart)

/-- What the marks say up to a failure is a state of the chain. -/
theorem ChainMarks.before (h : ChainMarks chain first fails marks targets seen)
    (split : marks = pre ++ .failed d failureClass :: post) :
    ChainMarks chain first fails (pre ++ [.failed d failureClass])
      (chain.left failureClass (failedIn pre ++ [d])) (failedIn pre ++ [d]) := by
  induction h generalizing post with
  | start => simp at split
  | @failed marks d' rest seen c h shown ih =>
    rcases split_failed [.called d'] split (by simp) with ⟨rfl, rfl, rfl⟩ | ⟨post', is⟩
    · have tried : failedIn (marks ++ [.called d']) = seen := by
        rw [h.seen_eq]
        simp [failedIn]
      rw [tried, List.append_assoc]
      exact .failed h shown
    · exact ih is
  | @unbuilt marks d' rest seen c h shown ih =>
    rcases split_failed [] split (by simp) with ⟨rfl, rfl, rfl⟩ | ⟨post', is⟩
    · rw [List.append_nil, ← h.seen_eq]
      exact .unbuilt h shown
    · exact ih is

theorem RunMarks.before (h : RunMarks chain first fails (pre ++ .failed d failureClass :: post)) :
    ChainMarks chain first fails (pre ++ [.failed d failureClass])
      (chain.left failureClass (failedIn pre ++ [d])) (failedIn pre ++ [d]) := by
  generalize split : pre ++ .failed d failureClass :: post = marks at h
  cases h with
  | between h => exact h.before split.symm
  | called h =>
    obtain ⟨post', is⟩ := split_left split.symm (by simp)
    exact h.before is
  | served h =>
    obtain ⟨post', is⟩ := split_left split.symm (by simp)
    exact h.before is

/-- The failures so far leave a walk the fuel for all that is left. -/
theorem ChainMarks.fuel (h : ChainMarks chain first fails marks targets seen) :
    ∃ n, chainFuel chain = seen.length + n ∧ unseen (first :: chain.allTargets) seen < n := by
  obtain ⟨nodup, known, -⟩ := h.named
  have tried : seen.length ≤ ((first :: chain.allTargets).filter (· ∈ seen)).length := by
    apply (List.Nodup.subperm nodup _).length_le
    exact fun d mem => List.mem_filter.mpr ⟨known mem, by simpa using mem⟩
  have both : (first :: chain.allTargets).length =
      ((first :: chain.allTargets).filter (· ∈ seen)).length +
        unseen (first :: chain.allTargets) seen := by
    rw [List.length_eq_length_filter_add (· ∈ seen), unseen]
    simp
  rw [List.length_cons] at both
  unfold chainFuel
  exact ⟨chain.allTargets.length + 3 - seen.length, by omega, by omega⟩

/-- One class for each deployment that failed. -/
theorem ChainMarks.classes (h : ChainMarks chain first fails marks targets seen) :
    ∃ classOf : Deployment → FailureClass,
      ∀ d failureClass, .failed d failureClass ∈ marks → classOf d = failureClass := by
  have step {marks more : List Mark} {d : Deployment} {rest seen : List Deployment}
      {failureClass : FailureClass} (h : ChainMarks chain first fails marks (d :: rest) seen)
      (more_ : more = [.called d, .failed d failureClass] ∨ more = [.failed d failureClass])
      (ih : ∃ classOf : Deployment → FailureClass,
        ∀ d failureClass, .failed d failureClass ∈ marks → classOf d = failureClass) :
      ∃ classOf : Deployment → FailureClass,
        ∀ d failureClass, .failed d failureClass ∈ marks ++ more → classOf d = failureClass := by
    obtain ⟨classOf, known⟩ := ih
    refine ⟨Function.update classOf d failureClass, fun d' c mem => ?_⟩
    rcases List.mem_append.mp mem with mem | mem
    · have other : d' ≠ d := by
        rintro rfl
        apply h.fresh d' List.mem_cons_self
        rw [h.seen_eq]
        exact mem_failedIn.mpr ⟨c, mem⟩
      rw [Function.update_of_ne other]
      exact known d' c mem
    · have is : d' = d ∧ c = failureClass := by
        rcases more_ with rfl | rfl <;> simpa using mem
      rw [is.1, is.2, Function.update_self]
  induction h with
  | start => exact ⟨fun _ => .general, by simp⟩
  | failed h shown ih => exact step h (.inl rfl) ih
  | unbuilt h shown ih => exact step h (.inr rfl) ih

/-- And another class for all the rest. -/
theorem ChainMarks.classes_rest (h : ChainMarks chain first fails marks targets seen)
    (rest : FailureClass) : ∃ classOf : Deployment → FailureClass,
      (∀ d failureClass, .failed d failureClass ∈ marks → classOf d = failureClass) ∧
        ∀ d, d ∉ seen → classOf d = rest := by
  obtain ⟨classOf, known⟩ := h.classes
  refine ⟨fun d => if d ∈ seen then classOf d else rest, ?_, fun d new => if_neg new⟩
  intro d failureClass mem
  have tried : d ∈ seen := h.seen_eq ▸ mem_failedIn.mpr ⟨failureClass, mem⟩
  dsimp only
  rw [if_pos tried]
  exact known d failureClass mem

end

/-! ## A run to each target -/

theorem Router.decide_mem {candidates : List Deployment} (ne : candidates ≠ [])
    (up : Deployment → Bool) : Router.decide candidates up ∈ candidates := by
  unfold Router.decide
  cases found : candidates.find? up with
  | some d => exact List.mem_of_find?_eq_some found
  | none =>
    cases candidates with
    | nil => exact absurd rfl ne
    | cons d ds => exact List.mem_cons_self

section
variable {gw : Service} {request : Request} {cfg : Cfg} {d first x : Deployment}
  {classOf : Deployment → FailureClass} {content : String} {usage : Usage}
  {reservation : Option Reservation}

theorem mem_candidatesAt (n m : Nat) :
    d ∈ candidatesAt gw request cfg n ↔ d ∈ candidatesAt gw request cfg m := by
  unfold candidatesAt Router.candidates
  cases nonEmpty request.pinned with
  | some entry => rfl
  | none =>
    dsimp only
    split
    · rw [List.mem_insertionSort, List.mem_insertionSort]
    · rfl

theorem candidatesAt_ne_nil (n : Nat) : candidatesAt gw request cfg n ≠ [] := by
  have grows (xs : List Deployment) (d : Deployment) (ne : xs ≠ []) : appendNew xs d ≠ [] := by
    unfold appendNew
    split
    · exact ne
    · simp
  have folds (ds xs : List Deployment) (ne : xs ≠ []) : ds.foldl appendNew xs ≠ [] := by
    induction ds generalizing xs with
    | nil => exact ne
    | cons d ds ih => exact ih _ (grows xs d ne)
  have listed : gw.router.unranked request cfg ≠ [] := by
    unfold Router.unranked
    dsimp only
    cases defaultFallback request.provider with
    | some model => exact grows _ _ (folds _ _ (List.cons_ne_nil _ _))
    | none => exact folds _ _ (List.cons_ne_nil _ _)
  unfold candidatesAt Router.candidates
  cases nonEmpty request.pinned with
  | some entry => exact List.cons_ne_nil _ _
  | none =>
    dsimp only
    split
    · intro none_
      have same := congrArg List.length none_
      rw [List.length_insertionSort] at same
      exact listed (List.eq_nil_of_length_eq_zero same)
    · exact listed

variable (gw request cfg) in
theorem informs_decision (a : Assignment) :
    ∃ up, Informs (fun ev => ev.reply = a.answers ev.op) gw request cfg up ∧
      decision gw request cfg a = Router.decide (candidatesAt gw request cfg 2) up := by
  refine ⟨_, ?_, rfl⟩
  apply informs_lookup
  · simp [Function.comp_def]
  · intro p mem
    obtain ⟨d, -, rfl⟩ := List.mem_map.mp mem
    rfl

/-- Answers that are the same each time leave one decision. -/
theorem informs_staged {a : Assignment} {up : Deployment → Bool}
    (h : Informs (fun ev => ev.reply = a.answers ev.op) gw request cfg up) :
    Router.decide (candidatesAt gw request cfg 2) up = decision gw request cfg a := by
  obtain ⟨up', h', is⟩ := informs_decision gw request cfg a
  have same : up = up' := by
    funext d
    rcases h d with ⟨mem, answered⟩ | ⟨out, up_⟩
    · rcases h' d with ⟨-, asked⟩ | ⟨out, -⟩
      · exact Except.ok.inj (answered.trans asked.symm)
      · exact absurd mem out
    · rcases h' d with ⟨mem, -⟩ | ⟨-, up'_⟩
      · exact absurd mem out
      · exact up_.trans up'_.symm
  rw [is, same]

/-- `first` alone is up, `x` answers, and every other fails in its class. -/
def answersAt (first x : Deployment) (classOf : Deployment → FailureClass) (content : String)
    (usage : Usage) (reservation : Option Reservation) : Assignment where
  outcome d := if d = x then .succeeds content usage else .callFails (sampleText (classOf d))
  available d := d = first
  reservation := reservation

theorem answersAt_built : (answersAt first x classOf content usage reservation).Built := by
  intro d message
  unfold answersAt
  dsimp only
  split <;> exact nofun

theorem answersAt_self : (answersAt first x classOf content usage reservation).outcome x = .succeeds content usage :=
  if_pos rfl

theorem decision_answersAt (mem : first ∈ candidatesAt gw request cfg 2) :
    decision gw request cfg (answersAt first x classOf content usage reservation) = first := by
  obtain ⟨up, informs, is⟩ := informs_decision gw request cfg
    (answersAt first x classOf content usage reservation)
  have asked (d : Deployment) (mem : d ∈ candidatesAt gw request cfg 2) : up d = true ↔ d = first := by
    rcases informs d with ⟨-, answered⟩ | ⟨out, -⟩
    · have same : up d = Decidable.decide (d = first) := Except.ok.inj answered
      rw [same, decide_eq_true_iff]
    · exact absurd ((mem_candidatesAt 2 1).mp mem) out
  rw [is, Router.decide]
  cases found : (candidatesAt gw request cfg 2).find? up with
  | some d => exact (asked d (List.mem_of_find?_eq_some found)).mp (List.find?_some found)
  | none => exact absurd ((asked first mem).mpr rfl) (List.find?_eq_none.mp found first mem)

variable {chain : FallbackChain} {fails : Deployment → FailureClass → Prop} {before : List Mark}
  {seen : List Deployment} {failureClass : FailureClass}

/-- What an attempt says, where `x` answers and every other fails in its class. -/
def toward (x : Deployment) (classOf : Deployment → FailureClass) (d : Deployment) : Option String :=
  if d = x then none else some (sampleText (classOf d))

theorem answersAt_message :
    (fun d => ((answersAt first x classOf content usage reservation).outcome d).message) = toward x classOf := by
  funext d
  unfold answersAt toward
  dsimp only
  split <;> rfl

theorem answersAt_callMessage :
    (fun d => ((answersAt first x classOf content usage reservation).outcome d).callMessage) =
      toward x classOf := by
  funext d
  unfold answersAt toward
  dsimp only
  split <;> rfl

/-- After failures in their classes, the walk goes through what failed. -/
theorem ChainMarks.toward_eq {targets : List Deployment}
    (h : ChainMarks chain first fails before targets seen)
    (known : ∀ d failureClass, .failed d failureClass ∈ before → classOf d = failureClass)
    (new : x ∉ seen) (n : Nat) :
    walk chain (toward x classOf) (seen.length + n) [first] [] =
      seen ++ walk chain (toward x classOf) n targets seen := by
  have apart : ChainMarks chain first (fun d c => d ≠ x ∧ classOf d = c) before targets seen := by
    apply h.mono
    intro d c mem
    refine ⟨?_, known d c mem⟩
    rintro rfl
    exact new (h.seen_eq ▸ mem_failedIn.mpr ⟨c, mem⟩)
  apply apart.walk_eq
  rintro d c ⟨other, rfl⟩
  exact ⟨_, if_neg other, classify_sample _⟩

/-- It comes to any of the targets left. -/
theorem ChainMarks.toward_last (h : ChainMarks chain first fails before (chain.left failureClass seen) seen)
    (known : ∀ d failureClass, .failed d failureClass ∈ before → classOf d = failureClass)
    (later : ∀ d, d ∉ seen → classOf d = failureClass) (mem : x ∈ chain.left failureClass seen) :
    (walk chain (toward x classOf) (chainFuel chain) [first] []).getLast? = some x := by
  have new := h.fresh x mem
  obtain ⟨n, fuel, enough⟩ := h.fuel
  have last : (walk chain (toward x classOf) n (chain.left failureClass seen) seen).getLast? = some x := by
    apply walk_reaches (List.subset_cons_self first _) (classify_sample failureClass) mem (if_pos rfl)
    · intro d left other
      rw [toward, if_neg other, later d (h.fresh d left)]
    · exact enough
  rw [fuel, h.toward_eq known new, List.getLast?_append, last]
  rfl

/-- A run that comes to `x` has passed through all that failed before. -/
theorem ChainMarks.toward_passes {before' : List Mark} {rest seen' : List Deployment}
    (h : ChainMarks chain first fails before (chain.left failureClass seen) seen)
    (known : ∀ d failureClass, .failed d failureClass ∈ before → classOf d = failureClass)
    (mem : x ∈ chain.left failureClass seen)
    {fails' : Deployment → FailureClass → Prop}
    (h' : ChainMarks chain first fails' before' (x :: rest) seen')
    (known' : ∀ d failureClass, fails' d failureClass → classOf d = failureClass) :
    ∀ d ∈ seen, .failed d (classOf d) ∈ before' := by
  have new := h.fresh x mem
  have new' := h'.fresh x List.mem_cons_self
  have shown : ∀ d c, .failed d c ∈ before' → classOf d = c := fun d c mem => known' d c (h'.shown mem)
  obtain ⟨n, fuel, -⟩ := h.fuel
  obtain ⟨n', fuel', enough⟩ := h'.fuel
  have one := h.toward_eq known new n
  have other := h'.toward_eq shown new' n'
  rw [← fuel] at one
  obtain ⟨m, rfl⟩ : ∃ m, n' = m + 1 := ⟨n' - 1, by omega⟩
  rw [← fuel', one, walk, toward, if_pos rfl] at other
  intro d tried
  have passed : d ∈ seen' := by
    rcases List.append_eq_append_iff.mp other with ⟨more, is, -⟩ | ⟨more, is, last⟩
    · rw [is]
      exact List.mem_append_left _ tried
    · cases more with
      | nil => simpa [is] using tried
      | cons y more =>
        obtain ⟨rfl, -⟩ := List.cons.inj last
        exact absurd (by simp [is]) new
  rw [h'.seen_eq] at passed
  obtain ⟨c, failed⟩ := mem_failedIn.mp passed
  exact shown d c failed ▸ failed

theorem answersAt_fails {message : String}
    (outcome : (answersAt first x classOf content usage reservation).outcome d = .callFails message) :
    classOf d = classifyFailure message := by
  unfold answersAt at outcome
  dsimp only at outcome
  split at outcome
  · cases outcome
  · cases outcome
    exact (classify_sample _).symm

/-- The run that comes to `x` after all of `seen` failed, each in its class. -/
def Comes (t : Run) (classOf : Deployment → FailureClass) (seen : List Deployment)
    (x : Deployment) : Prop :=
  ∃ earlier, marks t = earlier ++ [.called x, .served x] ∧ ∀ d ∈ seen, .failed d (classOf d) ∈ earlier

variable (gw request cfg) in
/-- A run of `generate` comes to any target that is left after the same failures. -/
theorem generate_comes (tenant : TenantConfig) (listed : first ∈ candidatesAt gw request cfg 2)
    (h : ChainMarks (fallbackChain gw request cfg (candidatesAt gw request cfg 3)) first fails before
      ((fallbackChain gw request cfg (candidatesAt gw request cfg 3)).left failureClass seen) seen)
    (known : ∀ d failureClass, .failed d failureClass ∈ before → classOf d = failureClass)
    (later : ∀ d, d ∉ seen → classOf d = failureClass)
    (mem : x ∈ (fallbackChain gw request cfg (candidatesAt gw request cfg 3)).left failureClass seen)
    (content : String) (usage : Usage) (reservation : Option Reservation) : ∃ t,
      (generate gw request tenant cfg).Runs () t (.ok (chatResult x content usage)) () ∧
      (∀ ev ∈ t, ev.reply = (answersAt first x classOf content usage reservation).answers ev.op) ∧
      Comes t classOf seen x := by
  have last : (generateWalk gw request cfg (answersAt first x classOf content usage reservation)).getLast? =
      some x := by
    rw [generateWalk, decision_answersAt listed, answersAt_message]
    exact h.toward_last known later mem
  obtain ⟨t, run, answered, served⟩ := generate_staged gw request tenant cfg _ last answersAt_self
  obtain ⟨up, informs, marked⟩ := (generate_marks (told_staged answersAt_built) run
    answered).resolve_left (List.ne_nil_of_mem served)
  rw [informs_staged informs, decision_answersAt listed] at marked
  obtain ⟨earlier, rest, seen', h', is⟩ := marked.of_served served
  refine ⟨t, run, answered, earlier, is, h.toward_passes known mem h' ?_⟩
  rintro d c ⟨message, outcome, rfl⟩
  exact answersAt_fails outcome

variable (gw request cfg) in
/-- And so does one of `_stream_impl`. -/
theorem streamImpl_comes (tenant : TenantConfig) (listed : first ∈ candidatesAt gw request cfg 2)
    (h : ChainMarks (fallbackChain gw request cfg (candidatesAt gw request cfg 0)) first fails before
      ((fallbackChain gw request cfg (candidatesAt gw request cfg 0)).left failureClass seen) seen)
    (known : ∀ d failureClass, .failed d failureClass ∈ before → classOf d = failureClass)
    (later : ∀ d, d ∉ seen → classOf d = failureClass)
    (mem : x ∈ (fallbackChain gw request cfg (candidatesAt gw request cfg 0)).left failureClass seen)
    (content : String) (usage : Usage) (reservation : Option Reservation) : ∃ t v,
      (streamImpl gw request tenant cfg).Runs {} t (.ok ()) v ∧
      (∀ ev ∈ t, ev.reply = (answersAt first x classOf content usage reservation).answers ev.op) ∧
      Comes t classOf seen x := by
  have last : (streamWalk gw request cfg (answersAt first x classOf content usage reservation)).getLast? =
      some x := by
    rw [streamWalk, decision_answersAt listed, answersAt_callMessage]
    exact h.toward_last known later mem
  obtain ⟨t, v, run, answered, served⟩ := streamImpl_staged gw request tenant cfg _ last answersAt_self
  obtain ⟨up, informs, marked⟩ := (streamImpl_marks (told_staged answersAt_built) run
    answered).resolve_left (List.ne_nil_of_mem served)
  rw [informs_staged informs, decision_answersAt listed] at marked
  obtain ⟨earlier, rest, seen', h', is⟩ := marked.of_served served
  refine ⟨t, v, run, answered, earlier, is, h.toward_passes known mem h' ?_⟩
  rintro d c ⟨message, outcome, rfl⟩
  exact answersAt_fails outcome

/-! ## A run to each deployment -/

/-- The chain names the deployment for some class. -/
def FallbackChain.Names (chain : FallbackChain) (d : Deployment) : Prop :=
  ∃ failureClass, d ∈ chain.targets failureClass

/-- Every candidate is named, whatever the class. -/
theorem candidate_target (chain : FallbackChain) (failureClass : FailureClass)
    (mem : d ∈ chain.candidates) : d ∈ chain.targets failureClass := by
  have kept (xs ys : List Deployment) (mem : d ∈ xs ∨ d ∈ ys) : d ∈ xs.foldl appendNew ys := by
    induction xs generalizing ys with
    | nil => simpa using mem
    | cons x xs ih =>
      apply ih
      unfold appendNew
      rcases mem with mem | mem
      · rcases List.mem_cons.mp mem with rfl | mem
        · right
          split <;> simp_all
        · exact .inl mem
      · right
        split <;> simp_all
  have ordered := kept chain.candidates [] (.inl mem)
  unfold FallbackChain.targets
  cases failureClass with
  | general => exact ordered
  | contentPolicy =>
    dsimp only
    split
    · exact List.mem_append_left _ ordered
    · exact ordered
  | contextWindow => exact List.mem_append_left _ ordered

/-- What is tried is named by the chain. -/
theorem ChainMarks.names {targets : List Deployment}
    (h : ChainMarks chain first fails before targets seen) (candidate : first ∈ chain.candidates) :
    ∀ d ∈ targets, chain.Names d := by
  cases h with
  | start =>
    intro d mem
    rw [List.mem_singleton.mp mem]
    exact ⟨.general, candidate_target chain _ candidate⟩
  | failed h shown => exact fun d mem => ⟨_, (List.mem_filter.mp mem).1⟩
  | unbuilt h shown => exact fun d mem => ⟨_, (List.mem_filter.mp mem).1⟩

/-- Only `x` answers, with this usage. -/
structure Assignment.Alone (a : Assignment) (x : Deployment) (usage : Usage) : Prop where
  outcome : a.outcome x = .succeeds "" usage
  others : ∀ d, d ≠ x → ∃ message, a.outcome d = .callFails message

/-- A run that is staged so and served. -/
structure Serves (t : Run) (x : Deployment) (usage : Usage) (reservation : Option Reservation)
    (a : Assignment) : Prop where
  answered : ∀ ev ∈ t, ev.reply = a.answers ev.op
  reservation : a.reservation = reservation
  alone : a.Alone x usage
  served : .served x ∈ marks t

theorem answersAt_serves {t : Run}
    (answered : ∀ ev ∈ t, ev.reply = (answersAt first x classOf "" usage reservation).answers ev.op)
    (served : .served x ∈ marks t) :
    Serves t x usage reservation (answersAt first x classOf "" usage reservation) :=
  ⟨answered, rfl, ⟨answersAt_self, fun _ other => ⟨_, if_neg other⟩⟩, served⟩

/-- The first deployment fails in the class that names `x`. -/
theorem failed_first {candidates : List Deployment} (chain : FallbackChain)
    (listed : first ∈ candidates) (other : x ∉ candidates) (target : x ∈ chain.targets failureClass) :
    ∃ before, ChainMarks chain first (fun _ _ => True) before (chain.left failureClass [first]) [first] ∧
      (∀ d c, .failed d c ∈ before → failureClass = c) ∧ x ∈ chain.left failureClass [first] := by
  refine ⟨_, .failed .start trivial, fun d c mem => ?_, List.mem_filter.mpr ⟨target, ?_⟩⟩
  · simp only [List.nil_append, List.mem_cons, reduceCtorEq, Mark.failed.injEq, List.not_mem_nil,
      or_false, false_or] at mem
    exact mem.2.symm
  · simp only [List.mem_singleton, decide_eq_true_eq]
    rintro rfl
    exact other listed

variable (gw request cfg) in
/-- A run of `generate` that is served by any deployment that the chain names. -/
theorem generate_serves (tenant : TenantConfig)
    (names : (fallbackChain gw request cfg (candidatesAt gw request cfg 3)).Names x) (usage : Usage)
    (reservation : Option Reservation) : ∃ t a,
      (generate gw request tenant cfg).Runs () t (.ok (chatResult x "" usage)) () ∧
        Serves t x usage reservation a := by
  by_cases candidate : x ∈ candidatesAt gw request cfg 2
  · have last : (generateWalk gw request cfg
        (answersAt x x (fun _ => .general) "" usage reservation)).getLast? = some x := by
      rw [generateWalk, decision_answersAt candidate, answersAt_message, chainFuel, walk, toward,
        if_pos rfl]
      rfl
    obtain ⟨t, run, answered, served⟩ := generate_staged gw request tenant cfg _ last answersAt_self
    exact ⟨t, _, run, answersAt_serves answered served⟩
  · obtain ⟨failureClass, target⟩ := names
    have some_ : candidatesAt gw request cfg 2 ≠ [] := candidatesAt_ne_nil 2
    have listed := Router.decide_mem some_ fun _ => true
    obtain ⟨before, h, known, left⟩ := failed_first _ listed candidate target
    obtain ⟨t, run, answered, earlier, is, -⟩ := generate_comes gw request cfg tenant listed h known
      (fun _ _ => rfl) left "" usage reservation
    exact ⟨t, _, run, answersAt_serves answered (by simp [is])⟩

variable (gw request cfg) in
/-- And one of `_stream_impl`. -/
theorem streamImpl_serves (tenant : TenantConfig)
    (names : (fallbackChain gw request cfg (candidatesAt gw request cfg 0)).Names x) (usage : Usage)
    (reservation : Option Reservation) : ∃ t v a,
      (streamImpl gw request tenant cfg).Runs {} t (.ok ()) v ∧ Serves t x usage reservation a := by
  by_cases candidate : x ∈ candidatesAt gw request cfg 2
  · have last : (streamWalk gw request cfg
        (answersAt x x (fun _ => .general) "" usage reservation)).getLast? = some x := by
      rw [streamWalk, decision_answersAt candidate, answersAt_callMessage, chainFuel, walk, toward,
        if_pos rfl]
      rfl
    obtain ⟨t, v, run, answered, served⟩ :=
      streamImpl_staged gw request tenant cfg _ last answersAt_self
    exact ⟨t, v, _, run, answersAt_serves answered served⟩
  · obtain ⟨failureClass, target⟩ := names
    have some_ : candidatesAt gw request cfg 2 ≠ [] := candidatesAt_ne_nil 2
    have listed := Router.decide_mem some_ fun _ => true
    obtain ⟨before, h, known, left⟩ := failed_first _ listed candidate target
    obtain ⟨t, v, run, answered, earlier, is, -⟩ := streamImpl_comes gw request cfg tenant listed h
      known (fun _ _ => rfl) left "" usage reservation
    exact ⟨t, v, _, run, answersAt_serves answered (by simp [is])⟩

end

end AgentStudio.Gateway
