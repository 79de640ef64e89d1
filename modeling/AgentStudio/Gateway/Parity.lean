import AgentStudio.Gateway.Exhaustion
import AgentStudio.Gateway.StreamSettlement
import AgentStudio.Async.Eval

/-!
# The two fallback loops side by side

`generate` and `_stream_impl` walk the same chain when every deployment answers,
or fails, before its first byte. A failed adapter is a failed attempt in the one
and the end of the other; and the results count the attempts differently.
-/

namespace AgentStudio.Gateway
open Async Quota

/-- What becomes of a deployment's attempt. -/
inductive Outcome where
  | adapterFails (message : String)
  | callFails (message : String)
  | succeeds (content : String) (usage : Usage)

/-- An outcome for each deployment, and the rest of what the gateway is answered. -/
structure Assignment where
  outcome : Deployment → Outcome
  available : Deployment → Bool := fun _ => true
  reservation : Option Reservation := none
  apiKey : String := "sk"

/-- The whole attempt in one stream, or a failure before anything came. -/
def Outcome.script : Outcome → Script
  | .adapterFails _ => { events := [] }
  | .callFails message => { events := [], ending := some (.exception message) }
  | .succeeds content usage =>
    { events := [{ type := .delta, content }, { type := .done, usage }] }

/-- The answers: the cache misses and nothing but a provider fails. -/
def Assignment.answers (a : Assignment) : (op : Op) → Except Raised (Calls.Ans op)
  | .reserve _ => .ok a.reservation
  | .reconcile .. | .release _ | .setExact .. | .recordSuccess _ | .recordFailure _
  | .aclose | .ledger _ | .emit _ => .ok ()
  | .getExact .. => .ok none
  | .resolveKey _ => .ok a.apiKey
  | .isAvailable d => .ok (a.available d)
  | .getAdapter d .. =>
    match a.outcome d with
    | .adapterFails message => .error (.exception message)
    | _ => .ok ()
  | .chat d .. =>
    match a.outcome d with
    | .adapterFails message | .callFails message => .error (.exception message)
    | .succeeds content usage => .ok { content, usage }
  | .openStream d .. => .ok (a.outcome d).script

/-- The gateway with one latency table, as no other request runs. -/
def Service.still (gw : Service) (latencies : Latencies) : Service :=
  { gw with latencies := fun _ => latencies }

/-- How a run went, as far as the two functions are compared. -/
structure Ended where
  attempted : List Deployment
  served : Option Deployment
  failureClass : Option String
  /-- `GatewayResult.attempts`. -/
  attempts : Option Nat
  deriving DecidableEq

/-- What is compared of a call. -/
inductive Sight where
  | attempt (d : Deployment)
  | success (d : Deployment)
  | failure (failureClass : Option String)

def sight (ev : Ev) : Option Sight :=
  match ev.op with
  | .getAdapter d .. => some (.attempt d)
  | .recordSuccess d => some (.success d)
  | .emit event => if event.type = .error then some (.failure event.failureClass) else none
  | _ => none

namespace Sight

def attempt? : Sight → Option Deployment
  | .attempt d => some d
  | _ => none

def success? : Sight → Option Deployment
  | .success d => some d
  | _ => none

def failure? : Sight → Option String
  | .failure failureClass => failureClass
  | _ => none

end Sight

section
variable (gw : Service) (request : Request) (tenant : TenantConfig) (cfg : Cfg) (a : Assignment)

/-- `generate`, on a cache miss. -/
def generateEnded : Ended :=
  let run := generate gw request tenant cfg
  let seen := (run.traceWith a.answers ()).filterMap sight
  let result := (run.outcomeWith a.answers ()).1
  { attempted := seen.filterMap Sight.attempt?
    served := (seen.filterMap Sight.success?).getLast?
    failureClass := match result with
      | .error (.chainExhausted _ _ _ failureClass _) => some failureClass.name
      | _ => none
    attempts := match result with
      | .ok result => some result.attempts
      | .error _ => none }

/-- `_stream_impl`, to its last event. -/
def streamEnded : Ended :=
  let run := streamImpl gw request tenant cfg
  let seen := (run.traceWith a.answers {}).filterMap sight
  let served := (seen.filterMap Sight.success?).getLast?
  { attempted := seen.filterMap Sight.attempt?
    served
    failureClass := (seen.filterMap Sight.failure?).getLast?
    attempts := served.map fun d =>
      (streamResult gw d (run.outcomeWith a.answers {}).2).attempts }

end

/-! ## The walk -/

/-- What a failed attempt says. -/
def Outcome.message : Outcome → Option String
  | .adapterFails message | .callFails message => some message
  | .succeeds .. => none

/-- What an attempt says that failed with its adapter built. -/
def Outcome.callMessage : Outcome → Option String
  | .callFails message => some message
  | _ => none

/-- What the chain names for a failure, less what was tried. -/
def nextTargets (chain : FallbackChain) (message : String) (seen : List Deployment) :
    List Deployment :=
  (chain.targets (classifyFailure message)).filter (· ∉ seen)

/-- The deployments tried from a list of targets on: the first of them, and after a
failure that `goesOn` lets pass, those that the chain names for its class. -/
def walk (chain : FallbackChain) (goesOn : Deployment → Option String) :
    Nat → List Deployment → List Deployment → List Deployment
  | 0, _, _ => []
  | _, [], _ => []
  | n + 1, d :: _, seen =>
    d :: match goesOn d with
      | none => []
      | some message => walk chain goesOn n (nextTargets chain message (seen ++ [d])) (seen ++ [d])

section
variable {chain : FallbackChain} {goesOn goesOn' : Deployment → Option String} {n : Nat}
  {targets seen : List Deployment}

/-- All but the last let the walk go on. -/
theorem walk_goesOn : ∀ d ∈ (walk chain goesOn n targets seen).dropLast, (goesOn d).isSome := by
  induction n generalizing targets seen with
  | zero => simp [walk]
  | succ n ih =>
    cases targets with
    | nil => simp [walk]
    | cons d rest =>
      rw [walk]
      cases next : goesOn d with
      | none => simp
      | some message =>
        intro x mem
        dsimp only at mem
        cases later : walk chain goesOn n (nextTargets chain message (seen ++ [d])) (seen ++ [d]) with
        | nil => simp [later] at mem
        | cons y ys =>
          rw [later, List.dropLast_cons_cons] at mem
          rcases List.mem_cons.mp mem with rfl | mem
          · simp [next]
          · exact ih x (later ▸ mem)

/-- A rule that goes on where the walk does, and after its end or not at all, leads the
same way. -/
theorem walk_congr (same : ∀ d ∈ (walk chain goesOn n targets seen).dropLast, goesOn' d = goesOn d)
    (last : ∀ d, (walk chain goesOn n targets seen).getLast? = some d →
      goesOn' d = goesOn d ∨ goesOn' d = none) :
    walk chain goesOn' n targets seen = walk chain goesOn n targets seen := by
  induction n generalizing targets seen with
  | zero => rfl
  | succ n ih =>
    cases targets with
    | nil => rfl
    | cons d rest =>
      rw [walk] at same last ⊢
      rw [walk]
      congr 1
      cases next : goesOn d with
      | none =>
        simp only [next, List.getLast?_singleton, Option.some.injEq, forall_eq', or_self] at last
        rw [last]
      | some message =>
        simp only [next] at same last ⊢
        cases later : walk chain goesOn n (nextTargets chain message (seen ++ [d])) (seen ++ [d]) with
        | nil =>
          rw [later] at last
          rcases last d rfl with on | off
          · rw [on, next]
            dsimp only
            have empty := @ih (nextTargets chain message (seen ++ [d])) (seen ++ [d])
              (by simp [later]) (by simp [later])
            rw [empty, later]
          · rw [off]
        | cons y ys =>
          rw [later, List.dropLast_cons_cons] at same
          rw [same d List.mem_cons_self, next]
          dsimp only
          rw [← later]
          refine ih (fun x mem => same x (List.mem_cons_of_mem _ (later ▸ mem))) fun x is => ?_
          refine last x ?_
          rw [later] at is ⊢
          rw [List.getLast?_cons_cons]
          exact is

end

/-! ## The loop -/

/-- The run against the assignment. -/
abbrev Shown {σ α : Type} (a : Assignment) (c : Coro Calls Raised σ α) (s : σ) (l : List Sight)
    (o : Except Raised α) (s' : σ) : Prop := c.Shows a.answers sight s l o s'

section
variable {σ α : Type} {all : List Deployment} {chain : FallbackChain} (a : Assignment)
  (goesOn : Deployment → Option String) (body : Coro Calls Raised σ (Option α))
  (targets seen : σ → List Deployment) (lastError : σ → Option ProviderCallError) (inv : σ → Prop)

/-- What an attempt that failed leaves behind as the last error. -/
def failureBy (goesOn : Deployment → Option String) (d : Deployment) : Option ProviderCallError :=
  (goesOn d).map fun message => .of (.exception message) d

/-- A loop whose rounds go on as the walk does comes to a round that does not: with no
target left, or at one that ends the walk. -/
theorem iterate_walk (named : chain.allTargets ⊆ all)
    (next : ∀ v d rest message, inv v → targets v = d :: rest → d ∉ seen v →
      goesOn d = some message → ∃ v', Shown a body v [.attempt d] (.ok none) v' ∧ inv v' ∧
        targets v' = nextTargets chain message (seen v ++ [d]) ∧ seen v' = seen v ++ [d] ∧
        lastError v' = some (.of (.exception message) d))
    (n : Nat) {v : σ} (valid : inv v) (fresh : Fresh all (targets v) (seen v))
    (fuel : unseen all (seen v) < n) :
    ∃ v₀ tried, inv v₀ ∧ seen v₀ = seen v ++ tried ∧ Fresh all (targets v₀) (seen v₀) ∧
      (∀ d ∈ tried, (goesOn d).isSome) ∧
      lastError v₀ = (tried.getLast?.bind (failureBy goesOn)).or (lastError v) ∧
      (targets v₀ = [] ∧ walk chain goesOn n (targets v) (seen v) = tried ∨
        ∃ d rest, targets v₀ = d :: rest ∧ goesOn d = none ∧
          walk chain goesOn n (targets v) (seen v) = tried ++ [d]) ∧
      (∀ l v' found, Shown a body v₀ l (.ok (some found)) v' →
        Shown a (Coro.iterate body n) v (tried.map .attempt ++ l) (.ok (some found)) v') ∧
      ∀ l v' e, Shown a body v₀ l (.error e) v' →
        Shown a (Coro.iterate body n) v (tried.map .attempt ++ l) (.error e) v' := by
  induction n generalizing v with
  | zero => omega
  | succ n ih =>
    cases listed : targets v with
    | nil =>
      refine ⟨v, [], valid, by simp, listed ▸ fresh, by simp, by simp, .inl ⟨listed, by simp [walk]⟩, ?_, ?_⟩
      · exact fun l v' found round => round.iterate_done
      · exact fun l v' e round => round.iterate_error
    | cons d rest =>
      obtain ⟨known, new⟩ := fresh d (by simp [listed])
      cases on : goesOn d with
      | none =>
        refine ⟨v, [], valid, by simp, fresh, by simp, by simp, .inr ⟨d, rest, listed, on, ?_⟩, ?_, ?_⟩
        · simp [walk, on]
        · exact fun l v' found round => round.iterate_done
        · exact fun l v' e round => round.iterate_error
      | some message =>
        obtain ⟨v₁, round, valid₁, targets₁, seen₁, last₁⟩ :=
          next v d rest message valid listed new on
        have fresh₁ : Fresh all (targets v₁) (seen v₁) := by
          rw [targets₁, seen₁]
          exact Fresh.next named _ _
        have less := unseen_lt known new
        obtain ⟨v₀, tried, valid₀, seen₀, fresh₀, on₀, last₀, ended, found, raised⟩ :=
          ih valid₁ fresh₁ (by rw [seen₁]; omega)
        have step : walk chain goesOn (n + 1) (d :: rest) (seen v) =
            d :: walk chain goesOn n (targets v₁) (seen v₁) := by
          rw [walk, on, targets₁, seen₁]
        refine ⟨v₀, d :: tried, valid₀, by rw [seen₀, seen₁]; simp, fresh₀, ?_, ?_, ?_, ?_, ?_⟩
        · intro x mem
          rcases List.mem_cons.mp mem with rfl | later
          · simp [on]
          · exact on₀ x later
        · rw [last₀, last₁]
          cases tried with
          | nil => simp [failureBy, on]
          | cons x xs =>
            have last := List.getLast?_eq_some_getLast (List.cons_ne_nil x xs)
            obtain ⟨m, is⟩ := Option.isSome_iff_exists.mp (on₀ _ (List.getLast_mem (List.cons_ne_nil x xs)))
            rw [List.getLast?_cons_cons, last]
            simp [failureBy, is]
        · rw [step]
          refine ended.imp ?_ ?_
          · rintro ⟨empty, is⟩
            exact ⟨empty, by rw [is]⟩
          · rintro ⟨x, more, is, off, ends⟩
            exact ⟨x, more, is, off, by rw [ends, List.cons_append]⟩
        · exact fun l v' a shown => round.iterate_next (found l v' a shown)
        · exact fun l v' e shown => round.iterate_next (raised l v' e shown)

end

/-! ## `generate` against the assignment -/

section
variable {σ : Type} (gw : Service) (request : Request) (tenant : TenantConfig) (cfg : Cfg)
  (a : Assignment) (chain : FallbackChain) (apiKey : String) (reservation : Option Reservation)
  {d : Deployment} (v : σ)

theorem call_shown (op : Op) {r : Except Raised (Calls.Ans op)} (answer : a.answers op = r) :
    Shown a (Coro.call (I := Calls) op : Coro Calls Raised σ _) v (sight ⟨op, r⟩).toList r v :=
  Coro.Shows.call answer

theorem snapshot_shown (ds : List Deployment) :
    Shown a (snapshot ds) v [] (.ok (ds.map fun d => (d, a.available d))) v := by
  induction ds with
  | nil => exact .pure _
  | cons d ds ih =>
    rw [snapshot]
    exact (call_shown a v (.isAvailable d) rfl).bind (ih.bind (.pure _))

/-- What the router decides on. -/
def decision : Deployment :=
  Router.decide (candidatesAt gw request cfg 2) fun d =>
    (((candidatesAt gw request cfg 1).map fun d => (d, a.available d)).reverse.lookup d).getD true

theorem decide_shown :
    Shown a (decide gw request cfg) v [] (.ok (decision gw request cfg a)) v :=
  (snapshot_shown a v _).bind (.pure _)

/-- The result of a served call. -/
def chatResult (d : Deployment) (content : String) (usage : Usage) : Result where
  content := content
  model := d.2
  provider := d.1
  usage := usage
  routedVia := d.1 ++ ":" ++ d.2

theorem getAdapter_shown (built : ∀ message, a.outcome d ≠ .adapterFails message) :
    Shown a (Coro.call (I := Calls) (.getAdapter d request apiKey) : Coro Calls Raised σ _) v
      [Sight.attempt d] (.ok ()) v := by
  refine call_shown a v (.getAdapter d request apiKey) ?_
  cases is : a.outcome d with
  | adapterFails message => exact absurd is (built message)
  | callFails message => simp only [Assignment.answers, is]
  | succeeds content usage => simp only [Assignment.answers, is]

theorem getAdapter_failed {message : String} (outcome : a.outcome d = .adapterFails message) :
    Shown a (Coro.call (I := Calls) (.getAdapter d request apiKey) : Coro Calls Raised σ _) v
      [Sight.attempt d] (.error (.exception message)) v := by
  refine call_shown a v (.getAdapter d request apiKey) ?_
  simp only [Assignment.answers, outcome]

theorem attempt_served {content : String} {usage : Usage}
    (outcome : a.outcome d = .succeeds content usage) :
    Shown a (attempt request tenant apiKey d) v [Sight.attempt d]
      (.ok (.ok (chatResult d content usage))) v := by
  have built := getAdapter_shown request a apiKey v (d := d) (by simp [outcome])
  have chat := call_shown a v (.chat d request.messages (callTimeout request tenant))
    (r := .ok { content, usage }) (by simp only [Assignment.answers, outcome])
  refine Coro.Shows.tryCatch_ok (built.bind_quiet ?_)
  exact chat.bind (.pure _)

theorem attempt_failed {message : String} (outcome : (a.outcome d).message = some message) :
    Shown a (attempt request tenant apiKey d) v [Sight.attempt d]
      (.ok (.error (.of (.exception message) d))) v := by
  cases is : a.outcome d with
  | succeeds content usage =>
    rw [is] at outcome
    cases outcome
  | adapterFails m =>
    rw [is] at outcome
    obtain rfl := Option.some.inj outcome
    have failed := getAdapter_failed request a apiKey v is
    exact failed.bind_error.tryCatch_quiet (.pure _)
  | callFails m =>
    rw [is] at outcome
    obtain rfl := Option.some.inj outcome
    have built := getAdapter_shown request a apiKey v (d := d) (by simp [is])
    have chat := call_shown a v (.chat d request.messages (callTimeout request tenant))
      (r := .error (.exception m)) (by simp only [Assignment.answers, is])
    exact Coro.Shows.tryCatch_quiet (built.bind_quiet chat.bind_error) (.pure _)

theorem afterSuccess_shown (result : Result) :
    Shown a (afterSuccess gw request cfg result) v [] (.ok ()) v := by
  have ledger := call_shown a v (.ledger (usageRecord gw request result)) (r := .ok ()) rfl
  have store := call_shown a v (.setExact request.tenantId cfg.promptVersion (requestKey request)
    (toCached result)) (r := .ok ()) rfl
  unfold afterSuccess
  refine ledger.tryCatch_ok.quiet_bind ?_
  cases cacheable request cfg with
  | true => exact store.tryCatch_ok
  | false => exact .pure ()

theorem succeed_shown (d : Deployment) (result : Result) :
    Shown a (do
      Coro.call (I := Calls) (.recordSuccess d)
      Coro.call (I := Calls) (.reconcile reservation (resultUsd gw result))
      afterSuccess gw request cfg result
      pure (some (some result)) : Coro Calls Raised σ (Option (Option Result))) v
      [Sight.success d] (.ok (some (some result))) v := by
  have noted := call_shown a v (.recordSuccess d) (r := .ok ()) rfl
  have settled := call_shown a v (.reconcile reservation (resultUsd gw result)) (r := .ok ()) rfl
  have after := afterSuccess_shown gw request cfg a v result
  exact noted.bind (settled.bind (after.bind (.pure _)))

end

section
variable (gw : Service) (request : Request) (tenant : TenantConfig) (cfg : Cfg)
  (a : Assignment) (chain : FallbackChain) (apiKey : String) (reservation : Option Reservation)
  {d : Deployment} {rest : List Deployment} {v : ChainVars}

theorem chainRound_empty (targets : v.targets = []) :
    Shown a (chainRound gw request tenant cfg chain apiKey reservation) v [] (.ok (some none)) v := by
  unfold chainRound
  refine Coro.Shows.get_bind ?_
  rw [targets]
  exact .pure _

theorem chainRound_served {content : String} {usage : Usage} (targets : v.targets = d :: rest)
    (new : d ∉ v.seen) (outcome : a.outcome d = .succeeds content usage) :
    Shown a (chainRound gw request tenant cfg chain apiKey reservation) v
      [.attempt d, .success d] (.ok (some (some (chatResult d content usage))))
      { v with targets := rest, seen := v.seen ++ [d], attempts := v.attempts + 1 } := by
  unfold chainRound
  refine Coro.Shows.get_bind ?_
  rw [targets]
  refine Coro.Shows.modify_bind (Coro.Shows.get_bind ?_)
  rw [if_neg new]
  refine Coro.Shows.modify_bind ?_
  exact (attempt_served request tenant a apiKey _ outcome).bind
    (succeed_shown gw request cfg a reservation _ d _)

theorem chainRound_failed {message : String} (targets : v.targets = d :: rest) (new : d ∉ v.seen)
    (outcome : (a.outcome d).message = some message) :
    Shown a (chainRound gw request tenant cfg chain apiKey reservation) v [.attempt d] (.ok none)
      { targets := nextTargets chain message (v.seen ++ [d])
        seen := v.seen ++ [d]
        lastError := some (.of (.exception message) d)
        attempts := v.attempts + 1 } := by
  unfold chainRound
  refine Coro.Shows.get_bind ?_
  rw [targets]
  refine Coro.Shows.modify_bind (Coro.Shows.get_bind ?_)
  rw [if_neg new]
  refine Coro.Shows.modify_bind ?_
  refine (attempt_failed request tenant a apiKey _ outcome).bind_quiet ?_
  refine Coro.Shows.modify_bind ?_
  refine (call_shown a _ (.recordFailure d) (r := .ok ()) rfl).quiet_bind ?_
  exact Coro.Shows.modify_bind (.pure none)

/-- The walk that `_execute_chain` makes. -/
def generateWalk : List Deployment :=
  let chain := fallbackChain gw request cfg (candidatesAt gw request cfg 3)
  walk chain (fun d => (a.outcome d).message) (chainFuel chain) [decision gw request cfg a] []

theorem runChain_shown (first : Deployment) :
    let tried := walk chain (fun d => (a.outcome d).message) (chainFuel chain) [first] []
    (∀ d content usage, tried.getLast? = some d → a.outcome d = .succeeds content usage → ∃ v',
      Shown a (runChain gw request tenant cfg chain apiKey reservation) { targets := [first] }
        (tried.map .attempt ++ [.success d]) (.ok (chatResult d content usage)) v') ∧
    ∀ d message, tried.getLast? = some d → (a.outcome d).message = some message → ∃ n v',
      Shown a (runChain gw request tenant cfg chain apiKey reservation) { targets := [first] }
        (tried.map .attempt)
        (.error (.chainExhausted d.1 d.2 message (classifyFailure message) n)) v' := by
  intro tried
  have named : chain.allTargets ⊆ first :: chain.allTargets := List.subset_cons_self ..
  obtain ⟨v₀, before, -, seen₀, fresh₀, on, last₀, ended, found, -⟩ :=
    iterate_walk a (fun d => (a.outcome d).message)
      (chainRound gw request tenant cfg chain apiKey reservation)
      ChainVars.targets ChainVars.seen ChainVars.lastError (fun _ => True) named
      (fun v d rest message _ listed new on =>
        ⟨_, chainRound_failed gw request tenant cfg a chain apiKey reservation listed new on,
          trivial, rfl, rfl, rfl⟩)
      (chainFuel chain) (v := { targets := [first] }) trivial (by simp [Fresh])
      (chainFuel_enough first chain [])
  constructor
  · intro d content usage last outcome
    rcases ended with ⟨-, is⟩ | ⟨x, rest, listed, off, is⟩
    · have go := on d (is ▸ List.mem_of_getLast? last)
      simp [outcome, Outcome.message] at go
    · have its : x = d := by
        change tried = before ++ [x] at is
        rw [is, List.getLast?_concat] at last
        exact Option.some.inj last
      subst its
      have round := chainRound_served gw request tenant cfg a chain apiKey reservation listed
        (fresh₀ x (by simp [listed])).2 outcome
      have loop := found _ _ _ round
      have seen : tried.map Sight.attempt ++ [Sight.success x] =
          before.map Sight.attempt ++ [.attempt x, .success x] := by
        change tried = before ++ [x] at is
        simp [is]
      refine ⟨{ v₀ with targets := rest, seen := v₀.seen ++ [x], attempts := v₀.attempts + 1 }, ?_⟩
      rw [seen]
      unfold runChain
      exact Coro.Shows.bind_quiet (a := some (chatResult x content usage))
        (Coro.Shows.tryCatch_ok (loop.bind_quiet (Coro.Shows.pure _))) (Coro.Shows.pure _)
  · intro d message last outcome
    rcases ended with ⟨empty, is⟩ | ⟨x, rest, listed, off, is⟩
    · change tried = before at is
      subst is
      have round := chainRound_empty gw request tenant cfg a chain apiKey reservation empty
      have loop := found _ _ _ round
      rw [List.append_nil] at loop
      have failed : v₀.lastError = some (.of (.exception message) d) := by
        rw [last₀, last]
        simp [failureBy, outcome]
      refine ⟨v₀.attempts, v₀, ?_⟩
      unfold runChain
      refine Coro.Shows.bind_quiet (a := none)
        (Coro.Shows.tryCatch_ok (loop.bind_quiet (Coro.Shows.pure _))) ?_
      refine (call_shown a _ (.release reservation) (r := .ok ()) rfl).quiet_bind ?_
      refine Coro.Shows.get_bind ?_
      have raised : exhausted v₀ =
          .chainExhausted d.1 d.2 message (classifyFailure message) v₀.attempts := by
        rw [exhausted, failed]
        rfl
      rw [raised]
      exact .throw _
    · have its : x = d := by
        change tried = before ++ [x] at is
        rw [is, List.getLast?_concat] at last
        exact Option.some.inj last
      subst its
      rw [outcome] at off
      cases off

theorem generate_shown :
    (∀ d content usage, (generateWalk gw request cfg a).getLast? = some d →
      a.outcome d = .succeeds content usage →
      Shown a (generate gw request tenant cfg) ()
        ((generateWalk gw request cfg a).map .attempt ++ [.success d])
        (.ok (chatResult d content usage)) ()) ∧
    ∀ d message, (generateWalk gw request cfg a).getLast? = some d →
      (a.outcome d).message = some message → ∃ n,
      Shown a (generate gw request tenant cfg) () ((generateWalk gw request cfg a).map .attempt)
        (.error (.chainExhausted d.1 d.2 message (classifyFailure message) n)) () := by
  have missed : Shown a (lookupExact request tenant cfg) () [] (.ok none) () := by
    unfold lookupExact
    split
    · exact call_shown a _ (.getExact _ _ _) rfl
    · exact .pure none
  have whole {l : List Sight} {o : Except Raised Result} {v : ChainVars}
      (chain : Shown a (runChain gw request tenant cfg
        (fallbackChain gw request cfg (candidatesAt gw request cfg 3)) a.apiKey a.reservation)
        { targets := [decision gw request cfg a] } l o v) :
      Shown a (generate gw request tenant cfg) () l o () := by
    unfold generate
    refine (call_shown a _ (.reserve _) rfl).quiet_bind (missed.quiet_bind ?_)
    refine (call_shown a _ (.resolveKey tenant) rfl).quiet_bind ?_
    exact (decide_shown gw request cfg a ()).quiet_bind chain.scope
  obtain ⟨served, failed⟩ := runChain_shown gw request tenant cfg a
    (fallbackChain gw request cfg (candidatesAt gw request cfg 3)) a.apiKey a.reservation
    (decision gw request cfg a)
  constructor
  · intro d content usage last outcome
    obtain ⟨v, shown⟩ := served d content usage last outcome
    exact whole shown
  · intro d message last outcome
    obtain ⟨n, v, shown⟩ := failed d message last outcome
    exact ⟨n, whole shown⟩

end

/-! ## `_stream_impl` against the assignment -/

section
variable (gw : Service) (request : Request) (tenant : TenantConfig) (cfg : Cfg)
  (a : Assignment) (chain : FallbackChain) (apiKey : String)
  {d : Deployment} {rest : List Deployment} {v : StreamVars}

/-- An event that is passed on, or not, unless it is an error. -/
theorem forwardEvents_shown {ev : LLMStreamEvent} {later : List LLMStreamEvent}
    {out : Option StreamEvent} {v₁ v₂ : StreamVars}
    (handled : Shown a (handle gw d ev) v [] (.ok out) v₁)
    (plain : ∀ event, out = some event → event.type ≠ .error)
    (next : Shown a (forwardEvents gw d later) v₁ [] (.ok ()) v₂) :
    Shown a (forwardEvents gw d (ev :: later)) v [] (.ok ()) v₂ := by
  rw [forwardEvents]
  refine handled.quiet_bind ?_
  cases out with
  | none => exact next
  | some event =>
    refine Coro.Shows.quiet_bind (Coro.Shows.unseen rfl ?_) next
    simp only [sight, if_neg (plain event rfl)]

theorem handle_delta_shown (content : String) : ∃ out v₁, v₁.seen = v.seen ∧
    (∀ event, out = some event → event.type ≠ .error) ∧
      Shown a (handle gw d { type := .delta, content }) v [] (.ok out) v₁ := by
  by_cases empty : content = ""
  · refine ⟨none, v, rfl, by simp, ?_⟩
    unfold handle
    simp only [if_pos empty]
    exact Coro.Shows.pure none
  · refine ⟨some { type := .delta, content }, { v with
      emitted := true, parts := v.parts ++ [content] }, rfl, by simp, ?_⟩
    unfold handle
    simp only [if_neg empty]
    exact Coro.Shows.modify_bind (Coro.Shows.pure _)

theorem consume_served {content : String} {usage : Usage}
    (outcome : a.outcome d = .succeeds content usage) :
    ∃ v', v'.seen = v.seen ∧ Shown a (consume gw request tenant d) v [] (.ok ()) v' := by
  obtain ⟨out, v₁, seen, plain, delta⟩ := handle_delta_shown gw a (d := d)
    (v := { v with opened := true }) content
  refine ⟨{ v₁ with
    finishReason := none
    usage := if usage ≠ [] then usage else v₁.usage }, seen, ?_⟩
  have done : Shown a (handle gw d { type := .done, usage }) v₁ [] (.ok none)
      { v₁ with finishReason := none, usage := if usage ≠ [] then usage else v₁.usage } :=
    Coro.Shows.modify_bind (Coro.Shows.pure none)
  unfold consume
  refine Coro.Shows.quiet_bind (call_shown a v (.openStream d _ _) rfl) ?_
  refine Coro.Shows.modify_bind ?_
  rw [outcome]
  refine Coro.Shows.quiet_bind (forwardEvents_shown gw a delta plain
    (forwardEvents_shown gw a done (by simp) (Coro.Shows.pure ()))) ?_
  exact Coro.Shows.pure ()

theorem consume_failed {message : String} (outcome : a.outcome d = .callFails message) :
    Shown a (consume gw request tenant d) v [] (.error (.exception message))
      { v with opened := true } := by
  unfold consume
  refine Coro.Shows.quiet_bind (call_shown a v (.openStream d _ _) rfl) ?_
  refine Coro.Shows.modify_bind ?_
  rw [outcome]
  exact Coro.Shows.quiet_bind (Coro.Shows.pure ()) (Coro.Shows.throw _)

theorem attemptStream_served {content : String} {usage : Usage}
    (outcome : a.outcome d = .succeeds content usage) : ∃ v', v'.seen = v.seen ∧
      Shown a (attemptStream gw request tenant chain d) v [] (.ok .completed) v' := by
  obtain ⟨v', seen, consumed⟩ := consume_served gw request tenant a (v := v) outcome
  exact ⟨v', seen, Coro.Shows.tryCatch_ok (consumed.quiet_bind (Coro.Shows.pure _))⟩

theorem attemptStream_failed {message : String} (outcome : a.outcome d = .callFails message)
    (before : v.emitted = false) :
    Shown a (attemptStream gw request tenant chain d) v [] (.ok .again) { v with
      opened := true
      lastError := some (.of (.exception message) d)
      targets := nextTargets chain message v.seen } := by
  have consumed := consume_failed gw request tenant a (v := v) outcome
  refine Coro.Shows.tryCatch_quiet consumed.bind_error ?_
  refine Coro.Shows.modify_bind ?_
  refine Coro.Shows.quiet_bind (call_shown a _ (.recordFailure d) rfl) (Coro.Shows.get_bind ?_)
  rw [before]
  exact Coro.Shows.modify_bind (Coro.Shows.pure _)

theorem complete_shown :
    Shown a (complete gw request cfg d) v [.success d] (.ok ()) { v with finalized := true } := by
  unfold complete
  refine Coro.Shows.bind_quiet (call_shown a v (.recordSuccess d) rfl) (Coro.Shows.get_bind ?_)
  refine Coro.Shows.quiet_bind (call_shown a _ (.reconcile _ _) rfl) ?_
  refine Coro.Shows.modify_bind ?_
  refine (afterSuccess_shown gw request cfg a _ _).quiet_bind ?_
  exact Coro.Shows.quiet_bind (call_shown a _ (.emit _) rfl) (call_shown a _ (.emit _) rfl)

theorem streamRound_empty (targets : v.targets = []) :
    Shown a (streamRound gw request tenant cfg chain apiKey) v [] (.ok (some false)) v := by
  unfold streamRound
  refine Coro.Shows.get_bind ?_
  rw [targets]
  exact .pure _

theorem streamRound_served {content : String} {usage : Usage} (targets : v.targets = d :: rest)
    (new : d ∉ v.seen) (outcome : a.outcome d = .succeeds content usage) :
    ∃ v', v'.seen = v.seen ++ [d] ∧
      Shown a (streamRound gw request tenant cfg chain apiKey) v [.attempt d, .success d]
        (.ok (some true)) v' := by
  obtain ⟨v₁, seen, served⟩ := attemptStream_served gw request tenant a chain
    (v := { v with
      targets := rest, seen := v.seen ++ [d], usage := [], finishReason := none, parts := []
      toolAcc := [] }) outcome
  refine ⟨{ v₁ with finalized := true }, seen, ?_⟩
  unfold streamRound
  refine Coro.Shows.get_bind ?_
  rw [targets]
  refine Coro.Shows.modify_bind (Coro.Shows.get_bind ?_)
  rw [if_neg new]
  refine Coro.Shows.modify_bind ?_
  refine (getAdapter_shown request a apiKey _ (by simp [outcome])).bind ?_
  refine Coro.Shows.modify_bind (served.quiet_bind ?_)
  exact (complete_shown gw request cfg a).bind_quiet (.pure _)

theorem streamRound_failed {message : String} (targets : v.targets = d :: rest)
    (new : d ∉ v.seen) (outcome : a.outcome d = .callFails message) (before : v.emitted = false) :
    Shown a (streamRound gw request tenant cfg chain apiKey) v [.attempt d] (.ok none) { v with
      targets := nextTargets chain message (v.seen ++ [d])
      seen := v.seen ++ [d]
      opened := true
      lastError := some (.of (.exception message) d)
      usage := [], finishReason := none, parts := [], toolAcc := [] } := by
  have failed := attemptStream_failed gw request tenant a chain
    (v := { v with
      targets := rest, seen := v.seen ++ [d], usage := [], finishReason := none, parts := []
      toolAcc := [] }) outcome before
  unfold streamRound
  refine Coro.Shows.get_bind ?_
  rw [targets]
  refine Coro.Shows.modify_bind (Coro.Shows.get_bind ?_)
  rw [if_neg new]
  refine Coro.Shows.modify_bind ?_
  refine (getAdapter_shown request a apiKey _ (by simp [outcome])).bind_quiet ?_
  refine Coro.Shows.modify_bind ?_
  exact Coro.Shows.quiet_bind failed (Coro.Shows.pure none)

theorem streamRound_broken {message : String} (targets : v.targets = d :: rest)
    (new : d ∉ v.seen) (outcome : a.outcome d = .adapterFails message) :
    Shown a (streamRound gw request tenant cfg chain apiKey) v [.attempt d]
      (.error (.exception message)) { v with targets := rest, seen := v.seen ++ [d] } := by
  unfold streamRound
  refine Coro.Shows.get_bind ?_
  rw [targets]
  refine Coro.Shows.modify_bind (Coro.Shows.get_bind ?_)
  rw [if_neg new]
  refine Coro.Shows.modify_bind ?_
  exact (getAdapter_failed request a apiKey _ outcome).bind_error

/-- The walk that `_stream_impl` makes: it goes on after a failed call alone. -/
def streamWalk : List Deployment :=
  let chain := fallbackChain gw request cfg (candidatesAt gw request cfg 0)
  walk chain (fun d => (a.outcome d).callMessage) (chainFuel chain) [decision gw request cfg a] []

/-- What precedes the loop is not seen. -/
theorem streamBody_shown {l : List Sight} {o : Except Raised Unit} {v' : StreamVars}
    (loop : Shown a (do
      match ← Coro.iterate (streamRound gw request tenant cfg
          (fallbackChain gw request cfg (candidatesAt gw request cfg 0)) a.apiKey)
          (chainFuel (fallbackChain gw request cfg (candidatesAt gw request cfg 0))) with
      | none => throw .outOfFuel
      | some true => pure ()
      | some false =>
        releaseOnce
        throw (streamExhausted (← get)) : Coro Calls Raised StreamVars Unit)
      { reservation := a.reservation, targets := [decision gw request cfg a] } l o v') :
    Shown a (streamBody gw request tenant cfg) {} l o v' := by
  unfold streamBody
  refine Coro.Shows.quiet_bind (call_shown a _ (.reserve _) rfl) ?_
  refine Coro.Shows.modify_bind ?_
  refine Coro.Shows.quiet_bind (call_shown a _ (.resolveKey tenant) rfl) ?_
  refine (decide_shown gw request cfg a _).quiet_bind ?_
  exact Coro.Shows.modify_bind loop

theorem releaseOnce_shown : ∃ v', v'.seen = v.seen ∧ v'.lastError = v.lastError ∧
    Shown a releaseOnce v [] (.ok ()) v' := by
  cases fin : v.finalized with
  | true =>
    refine ⟨v, rfl, rfl, ?_⟩
    unfold releaseOnce
    refine Coro.Shows.get_bind ?_
    rw [fin]
    exact Coro.Shows.pure ()
  | false =>
    refine ⟨{ v with finalized := true }, rfl, rfl, ?_⟩
    unfold releaseOnce
    refine Coro.Shows.get_bind ?_
    rw [fin]
    exact Coro.Shows.modify_bind (Coro.Shows.get_bind (call_shown a _ (.release _) rfl))

theorem streamImpl_shown (d : Deployment)
    (last : (streamWalk gw request cfg a).getLast? = some d) :
    (∀ content usage, a.outcome d = .succeeds content usage → ∃ v',
      v'.seen = streamWalk gw request cfg a ∧
      Shown a (streamImpl gw request tenant cfg) {}
        ((streamWalk gw request cfg a).map .attempt ++ [.success d]) (.ok ()) v') ∧
    (∀ message, a.outcome d = .callFails message → ∃ v',
      Shown a (streamImpl gw request tenant cfg) {}
        ((streamWalk gw request cfg a).map .attempt ++
          [.failure (some (classifyFailure message).name)]) (.ok ()) v') ∧
    ∀ message, a.outcome d = .adapterFails message → ∃ v',
      Shown a (streamImpl gw request tenant cfg) {}
        ((streamWalk gw request cfg a).map .attempt ++ [.failure (some "general")]) (.ok ()) v' := by
  let chain := fallbackChain gw request cfg (candidatesAt gw request cfg 0)
  let first := decision gw request cfg a
  have named : chain.allTargets ⊆ first :: chain.allTargets := List.subset_cons_self ..
  obtain ⟨v₀, before, calm, seen₀, fresh₀, on, last₀, ended, found, raised⟩ :=
    iterate_walk a (fun d => (a.outcome d).callMessage)
      (streamRound gw request tenant cfg chain a.apiKey)
      StreamVars.targets StreamVars.seen StreamVars.lastError (fun v => v.emitted = false) named
      (fun v d rest message calm listed new on => by
        have outcome : a.outcome d = .callFails message := by
          cases is : a.outcome d with
          | callFails m =>
            simp only [is, Outcome.callMessage, Option.some.injEq] at on
            rw [on]
          | adapterFails m => simp [is, Outcome.callMessage] at on
          | succeeds content usage => simp [is, Outcome.callMessage] at on
        exact ⟨_, streamRound_failed gw request tenant cfg a chain a.apiKey listed new outcome calm,
          calm, rfl, rfl, rfl⟩)
      (chainFuel chain) (v := { reservation := a.reservation, targets := [first] }) rfl
      (by simp [Fresh]) (chainFuel_enough first chain [])
  have atEnd (off : (a.outcome d).callMessage = none) : ∃ rest, v₀.targets = d :: rest ∧
      streamWalk gw request cfg a = before ++ [d] := by
    rcases ended with ⟨-, is⟩ | ⟨x, rest, listed, -, is⟩
    · change streamWalk gw request cfg a = before at is
      have go := on d (is ▸ List.mem_of_getLast? last)
      simp [off] at go
    · change streamWalk gw request cfg a = before ++ [x] at is
      rw [is, List.getLast?_concat] at last
      obtain rfl := Option.some.inj last
      exact ⟨rest, listed, is⟩
  refine ⟨fun content usage outcome => ?_, fun message outcome => ?_, fun message outcome => ?_⟩
  · obtain ⟨rest, listed, is⟩ := atEnd (by simp [outcome, Outcome.callMessage])
    obtain ⟨v', seen, round⟩ := streamRound_served gw request tenant cfg a chain a.apiKey listed
      (fresh₀ d (by simp [listed])).2 outcome
    have shown : (streamWalk gw request cfg a).map Sight.attempt ++ [Sight.success d] =
        before.map Sight.attempt ++ [.attempt d, .success d] := by simp [is]
    refine ⟨v', by rw [seen, seen₀, is]; rfl, ?_⟩
    rw [shown]
    exact Coro.Shows.tryCatch_ok (streamBody_shown gw request tenant cfg a
      (Coro.Shows.bind_quiet (found _ _ _ round) (Coro.Shows.pure ())))
  · rcases ended with ⟨empty, is⟩ | ⟨x, rest, -, off, is⟩
    · change streamWalk gw request cfg a = before at is
      have round := streamRound_empty gw request tenant cfg a chain a.apiKey empty
      have loop := found _ _ _ round
      rw [List.append_nil] at loop
      obtain ⟨v', seen, error, released⟩ := releaseOnce_shown a (v := v₀)
      have failed : v'.lastError = some (.of (.exception message) d) := by
        rw [error, last₀, ← is, last]
        simp [failureBy, outcome, Outcome.callMessage]
      have report : streamExhausted v' =
          .chainExhausted d.1 d.2 message (classifyFailure message) v'.seen.length := by
        rw [streamExhausted, failed]
        rfl
      have body := streamBody_shown gw request tenant cfg a (o := .error (streamExhausted v'))
        (Coro.Shows.bind_quiet loop (released.quiet_bind
          (Coro.Shows.get_bind (Coro.Shows.throw _))))
      rw [← is, report] at body
      exact ⟨v', body.tryCatch_error (call_shown a v' (.emit _) rfl)⟩
    · change streamWalk gw request cfg a = before ++ [x] at is
      rw [is, List.getLast?_concat] at last
      obtain rfl := Option.some.inj last
      simp [outcome, Outcome.callMessage] at off
  · obtain ⟨rest, listed, is⟩ := atEnd (by simp [outcome, Outcome.callMessage])
    have round := streamRound_broken gw request tenant cfg a chain a.apiKey listed
      (fresh₀ d (by simp [listed])).2 outcome
    have loop := raised _ _ _ round
    have shown : before.map Sight.attempt ++ [Sight.attempt d] =
        (streamWalk gw request cfg a).map Sight.attempt := by simp [is]
    rw [shown] at loop
    have body := streamBody_shown gw request tenant cfg a loop.bind_error
    obtain ⟨v', -, -, released⟩ := releaseOnce_shown a
      (v := { v₀ with targets := rest, seen := v₀.seen ++ [d] })
    exact ⟨v', body.tryCatch_error (released.quiet_bind (call_shown a v' (.emit _) rfl))⟩

end

/-! ## The comparison -/

/-- The adapters of the deployments tried are built, but for the last, whose failure
is a general one; and the deployment that serves is the first. -/
structure Uniform (outcome : Deployment → Outcome) (tried : List Deployment) : Prop where
  built : ∀ d ∈ tried.dropLast, ∀ message, outcome d ≠ .adapterFails message
  general : ∀ d message, tried.getLast? = some d → outcome d = .adapterFails message →
    classifyFailure message = .general
  first : ∀ d content usage, tried.getLast? = some d → outcome d = .succeeds content usage →
    tried.length = 1

section
variable (gw : Service) (request : Request) (tenant : TenantConfig) (cfg : Cfg) (a : Assignment)
  {d : Deployment} {message content : String} {usage : Usage}

theorem attempts_seen (ds : List Deployment) (more : List Sight)
    (none_ : more.filterMap Sight.attempt? = []) :
    (ds.map Sight.attempt ++ more).filterMap Sight.attempt? = ds := by
  rw [List.filterMap_append, none_, List.append_nil, List.filterMap_map]
  exact List.filterMap_some

theorem only_attempts {β : Type} {f : Sight → Option β} (ds : List Deployment) (more : List Sight)
    (none_ : ∀ d, f (.attempt d) = none) :
    (ds.map Sight.attempt ++ more).filterMap f = more.filterMap f := by
  rw [List.filterMap_append, List.filterMap_map, List.filterMap_eq_nil_iff.mpr, List.nil_append]
  exact fun d _ => none_ d

theorem generateEnded_served (last : (generateWalk gw request cfg a).getLast? = some d)
    (outcome : a.outcome d = .succeeds content usage) :
    generateEnded gw request tenant cfg a =
      ⟨generateWalk gw request cfg a, some d, none, some 1⟩ := by
  obtain ⟨seen, ends⟩ := (generate_shown gw request tenant cfg a).1 d content usage last outcome
  unfold generateEnded
  simp only [seen, ends]
  rw [attempts_seen _ _ rfl, only_attempts _ _ fun _ => rfl]
  rfl

theorem generateEnded_failed (last : (generateWalk gw request cfg a).getLast? = some d)
    (outcome : (a.outcome d).message = some message) :
    generateEnded gw request tenant cfg a =
      ⟨generateWalk gw request cfg a, none, some (classifyFailure message).name, none⟩ := by
  obtain ⟨n, seen, ends⟩ := (generate_shown gw request tenant cfg a).2 d message last outcome
  rw [← List.append_nil (List.map _ _)] at seen
  unfold generateEnded
  simp only [seen, ends]
  rw [attempts_seen _ _ rfl, only_attempts _ _ fun _ => rfl]
  rfl

theorem streamEnded_served (last : (streamWalk gw request cfg a).getLast? = some d)
    (outcome : a.outcome d = .succeeds content usage) :
    streamEnded gw request tenant cfg a =
      ⟨streamWalk gw request cfg a, some d, none, some (streamWalk gw request cfg a).length⟩ := by
  obtain ⟨v', tried, seen, ends⟩ :=
    (streamImpl_shown gw request tenant cfg a d last).1 content usage outcome
  unfold streamEnded
  simp only [seen, ends]
  rw [attempts_seen _ _ rfl, only_attempts _ _ fun _ => rfl, only_attempts _ _ fun _ => rfl,
    ← tried]
  rfl

theorem streamEnded_failed (last : (streamWalk gw request cfg a).getLast? = some d)
    (outcome : a.outcome d = .callFails message) :
    streamEnded gw request tenant cfg a =
      ⟨streamWalk gw request cfg a, none, some (classifyFailure message).name, none⟩ := by
  obtain ⟨v', seen, ends⟩ := (streamImpl_shown gw request tenant cfg a d last).2.1 message outcome
  unfold streamEnded
  simp only [seen, ends]
  rw [attempts_seen _ _ rfl, only_attempts _ _ fun _ => rfl, only_attempts _ _ fun _ => rfl]
  rfl

theorem streamEnded_broken (last : (streamWalk gw request cfg a).getLast? = some d)
    (outcome : a.outcome d = .adapterFails message) :
    streamEnded gw request tenant cfg a =
      ⟨streamWalk gw request cfg a, none, some "general", none⟩ := by
  obtain ⟨v', seen, ends⟩ := (streamImpl_shown gw request tenant cfg a d last).2.2 message outcome
  unfold streamEnded
  simp only [seen, ends]
  rw [attempts_seen _ _ rfl, only_attempts _ _ fun _ => rfl, only_attempts _ _ fun _ => rfl]
  rfl

theorem streamWalk_last : ∃ d, (streamWalk gw request cfg a).getLast? = some d := by
  refine ⟨_, List.getLast?_eq_some_getLast ?_⟩
  simp [streamWalk, chainFuel, walk]

theorem generateWalk_last : ∃ d, (generateWalk gw request cfg a).getLast? = some d := by
  refine ⟨_, List.getLast?_eq_some_getLast ?_⟩
  simp [generateWalk, chainFuel, walk]

theorem generateEnded_attempted :
    (generateEnded gw request tenant cfg a).attempted = generateWalk gw request cfg a := by
  obtain ⟨d, last⟩ := generateWalk_last gw request cfg a
  cases outcome : a.outcome d with
  | succeeds => rw [generateEnded_served gw request tenant cfg a last outcome]
  | adapterFails =>
    rw [generateEnded_failed gw request tenant cfg a last (by rw [outcome, Outcome.message])]
  | callFails =>
    rw [generateEnded_failed gw request tenant cfg a last (by rw [outcome, Outcome.message])]

theorem streamEnded_attempted :
    (streamEnded gw request tenant cfg a).attempted = streamWalk gw request cfg a := by
  obtain ⟨d, last⟩ := streamWalk_last gw request cfg a
  cases outcome : a.outcome d with
  | succeeds => rw [streamEnded_served gw request tenant cfg a last outcome]
  | adapterFails => rw [streamEnded_broken gw request tenant cfg a last outcome]
  | callFails => rw [streamEnded_failed gw request tenant cfg a last outcome]

theorem general_name {failureClass : FailureClass} (same : failureClass.name = "general") :
    failureClass = .general := by
  cases failureClass with
  | general => rfl
  | contentPolicy => exact absurd same (by decide)
  | contextWindow => exact absurd same (by decide)

/-- For every request, config, catalog, state of the router and outcome of each
deployment: the two functions try the same deployments, end in the same way and
report the same number of attempts exactly when the outcomes are uniform. -/
theorem ended_iff (latencies : Latencies) :
    generateEnded (gw.still latencies) request tenant cfg a =
        streamEnded (gw.still latencies) request tenant cfg a ↔
      Uniform a.outcome (generateWalk (gw.still latencies) request cfg a) := by
  let still := gw.still latencies
  have chain : fallbackChain still request cfg (candidatesAt still request cfg 3) =
      fallbackChain still request cfg (candidatesAt still request cfg 0) := rfl
  obtain ⟨d, lastS⟩ := streamWalk_last still request cfg a
  constructor
  · intro same
    have tried : generateWalk still request cfg a = streamWalk still request cfg a := by
      have attempts := congrArg Ended.attempted same
      rw [generateEnded_attempted, streamEnded_attempted] at attempts
      exact attempts
    have last := tried ▸ lastS
    refine ⟨fun x mem message outcome => ?_, fun x message is outcome => ?_,
      fun x content usage is outcome => ?_⟩
    · rw [tried] at mem
      have on := walk_goesOn x mem
      simp [outcome, Outcome.callMessage] at on
    · have left := generateEnded_failed still request tenant cfg a is
        (by rw [outcome, Outcome.message])
      have right := streamEnded_broken still request tenant cfg a (tried ▸ is) outcome
      rw [left, right] at same
      exact general_name (Option.some.inj (congrArg Ended.failureClass same))
    · have left := generateEnded_served still request tenant cfg a is outcome
      have right := streamEnded_served still request tenant cfg a (tried ▸ is) outcome
      rw [left, right] at same
      rw [tried]
      exact (Option.some.inj (congrArg Ended.attempts same)).symm
  · intro uniform
    have tried : streamWalk still request cfg a = generateWalk still request cfg a := by
      unfold streamWalk generateWalk
      refine walk_congr (fun x mem => ?_) fun x _ => ?_
      · have built := uniform.built x mem
        cases is : a.outcome x with
        | adapterFails m => exact absurd is (built m)
        | callFails m => rfl
        | succeeds content usage => rfl
      · cases a.outcome x with
        | adapterFails m => exact .inr rfl
        | callFails m => exact .inl rfl
        | succeeds content usage => exact .inl rfl
    have last := tried ▸ lastS
    cases outcome : a.outcome d with
    | adapterFails m =>
      rw [generateEnded_failed still request tenant cfg a last (by rw [outcome, Outcome.message]),
        streamEnded_broken still request tenant cfg a lastS outcome, tried,
        uniform.general d m last outcome]
      rfl
    | callFails m =>
      rw [generateEnded_failed still request tenant cfg a last (by rw [outcome, Outcome.message]),
        streamEnded_failed still request tenant cfg a lastS outcome, tried]
    | succeeds content usage =>
      rw [generateEnded_served still request tenant cfg a last outcome,
        streamEnded_served still request tenant cfg a lastS outcome, tried,
        uniform.first d content usage last outcome]

end

/-- A request whose chain is `gpt-4o-mini`, then `gpt-4o`. -/
def twoModels : Request := { tenantId := "acme", messages := [], model := some "gpt-4o" }

/-- The adapter of the first is not built: `generate` goes on to the second and the
stream ends. -/
def noAdapter : Assignment where
  outcome d :=
    if d.2 = "gpt-4o-mini" then .adapterFails "unknown provider" else .succeeds "hello" []

/-- The call to the first fails: both go on, and count the attempts differently. -/
def timesOut : Assignment where
  outcome d := if d.2 = "gpt-4o-mini" then .callFails "timeout" else .succeeds "hello" []

theorem parity_fails :
    let still := oneModel.still fun _ => 0
    let tenant : TenantConfig := { id := "acme" }
    let mini := ("openai", "gpt-4o-mini")
    let large := ("openai", "gpt-4o")
    generateEnded still twoModels tenant {} noAdapter = ⟨[mini, large], some large, none, some 1⟩ ∧
      streamEnded still twoModels tenant {} noAdapter = ⟨[mini], none, some "general", none⟩ ∧
      generateEnded still twoModels tenant {} timesOut = ⟨[mini, large], some large, none, some 1⟩ ∧
      streamEnded still twoModels tenant {} timesOut =
        ⟨[mini, large], some large, none, some 2⟩ ∧
      ¬ ∀ a, generateEnded still twoModels tenant {} a = streamEnded still twoModels tenant {} a := by
  intro still tenant mini large
  have left : generateEnded still twoModels tenant {} noAdapter =
      ⟨[mini, large], some large, none, some 1⟩ := by decide +kernel
  have right : streamEnded still twoModels tenant {} noAdapter =
      ⟨[mini], none, some "general", none⟩ := by decide +kernel
  refine ⟨left, right, by decide +kernel, by decide +kernel, fun same => ?_⟩
  have other := same noAdapter
  rw [left, right] at other
  cases congrArg Ended.served other

end AgentStudio.Gateway
