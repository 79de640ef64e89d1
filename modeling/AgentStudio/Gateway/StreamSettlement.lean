import AgentStudio.Gateway.Settlement

/-!
# Settling in the streaming path

`_stream_impl` settles through `_release` from its handlers. Two ways out avoid
it: `GatewayChainExhausted` raised by a call outside the attempt's `try`, and a
close of the upstream that is itself cancelled. A cancelled `reconcile` is
followed by a release.
-/

namespace AgentStudio.Gateway
open Async Quota

def isChainExhausted : Raised → Bool
  | .chainExhausted .. => true
  | _ => false

/-- A call outside the attempt's `try` raised the chain's own exception, whose
handler does not release. -/
def escapes (ev : Ev) : Bool :=
  match ev.op, raisedBy ev with
  | .resolveKey _, some e | .isAvailable _, some e | .getAdapter .., some e => isChainExhausted e
  | .recordFailure _, some e | .recordSuccess _, some e => isChainExhausted e
  | .emit event, some e => event.type == .error && isChainExhausted e
  | _, _ => false

/-- The close of the upstream was cancelled. -/
def closeCancelled (ev : Ev) : Bool :=
  match ev.op, raisedBy ev with
  | .aclose, some e => !e.isException
  | _, _ => false

def reconcileFailed (ev : Ev) : Bool :=
  match ev.op, raisedBy ev with
  | .reconcile .., some _ => true
  | _, _ => false

/-- The last call of a run is a cancelled close. -/
def endsInCancelledClose (t : Run) : Bool := (t.getLast?.map closeCancelled).getD false

/-- Neither settling, escaping nor a cancelled close. -/
abbrev Silent (t : Run) : Prop := Quiet (fun ev => escapes ev || closeCancelled ev) t

/-- How a run of the body ends: with the hold settled, with an exception in
flight and the hold open, or with a `reconcile` that did not come back. -/
inductive BodyEnd (v : StreamVars) (t : Run) : Option Raised → Prop
  | settled (raised : Option Raised) (finalized : v.finalized = true) (t₁ t₂ : Run) (ev : Ev)
      (split : t = t₁ ++ ev :: t₂) (silent : Silent t₁) (settles_ : settles ev = true)
      (fine : reconcileFailed ev = false) (after : ∀ e ∈ t₂, settles e = false) :
      BodyEnd v t raised
  | raised (e : Raised) (held_ : v.finalized = false) (silent : Silent t)
      (plain : isChainExhausted e = false) : BodyEnd v t (some e)
  | closing (e : Raised) (held_ : v.finalized = false) (opened : v.opened = true) (t₁ : Run)
      (ev : Ev) (split : t = t₁ ++ [ev]) (silent : Silent t₁) (settles_ : settles ev = false)
      (escapes_ : escapes ev = false) (base : e.isException = false) : BodyEnd v t (some e)
  | escaped (e : Raised) (held_ : v.finalized = false) (t₁ : Run) (ev : Ev)
      (split : t = t₁ ++ [ev]) (silent : Silent t₁) (settles_ : settles ev = false)
      (escapes_ : escapes ev = true) (chain : isChainExhausted e = true) : BodyEnd v t (some e)
  | failed (e : Raised) (held_ : v.finalized = false) (opened : v.opened = true) (t₁ : Run)
      (ev : Ev) (split : t = t₁ ++ [ev]) (silent : Silent t₁) (settles_ : settles ev = true)
      (failed_ : reconcileFailed ev = true) (base : e.isException = false) : BodyEnd v t (some e)

def raisedOf {α : Type} : Except Raised α → Option Raised
  | .ok _ => none
  | .error e => some e

section
variable {v v' : StreamVars} {t t' : Run} {o : Option Raised}

theorem BodyEnd.prepend (silent : Silent t) (h : BodyEnd v t' o) : BodyEnd v (t ++ t') o := by
  cases h with
  | settled _ finalized t₁ t₂ ev split silent' settles_ fine after =>
    exact .settled _ finalized (t ++ t₁) t₂ ev (by simp [split]) (silent.append silent') settles_
      fine after
  | raised e held_ silent' plain => exact .raised e held_ (silent.append silent') plain
  | closing e held_ opened t₁ ev split silent' settles_ escapes_ base =>
    exact .closing e held_ opened (t ++ t₁) ev (by simp [split]) (silent.append silent') settles_
      escapes_ base
  | escaped e held_ t₁ ev split silent' settles_ escapes_ chain =>
    exact .escaped e held_ (t ++ t₁) ev (by simp [split]) (silent.append silent') settles_
      escapes_ chain
  | failed e held_ opened t₁ ev split silent' settles_ failed_ base =>
    exact .failed e held_ opened (t ++ t₁) ev (by simp [split]) (silent.append silent') settles_
      failed_ base

/-- A call outside the attempt's `try` that raised. -/
theorem BodyEnd.of_raise (held_ : v.finalized = false) (op : Op) (e : Raised)
    (inside : settles ⟨op, .error e⟩ = false) (close : closeCancelled ⟨op, .error e⟩ = false)
    (escapes_ : escapes ⟨op, .error e⟩ = isChainExhausted e) :
    BodyEnd v [⟨op, .error e⟩] (some e) := by
  cases chain : isChainExhausted e with
  | true => exact .escaped e held_ [] _ rfl Quiet.nil inside (by rw [escapes_, chain]) chain
  | false =>
    exact .raised e held_ (Quiet.nil.cons inside (by simp [escapes_, chain, close])) chain

end

/-! ## The parts of the body -/

/-- The variables that the events of one attempt leave alone. -/
structure SameHold (v v' : StreamVars) : Prop where
  finalized : v'.finalized = v.finalized
  opened : v'.opened = v.opened
  targets : v'.targets = v.targets
  seen : v'.seen = v.seen

theorem SameHold.refl (v : StreamVars) : SameHold v v := ⟨rfl, rfl, rfl, rfl⟩

theorem SameHold.trans {v v' v'' : StreamVars} (h : SameHold v v') (h' : SameHold v' v'') :
    SameHold v v'' :=
  ⟨h'.1.trans h.1, h'.2.trans h.2, h'.3.trans h.3, h'.4.trans h.4⟩

theorem sameHold_setEntry (v : StreamVars) (index : Nat) (entry : ToolEntry) :
    SameHold v (v.setEntry index entry) := by
  unfold StreamVars.setEntry
  split <;> exact ⟨rfl, rfl, rfl, rfl⟩

section
variable (gw : Service) (request : Request) (tenant : TenantConfig) (cfg : Cfg) {v : StreamVars}

/-- `_handle` makes no call, keeps the hold's variables, and never yields an error. -/
theorem handle_spec (d : Deployment) (ev : LLMStreamEvent) :
    (handle gw d ev).All v fun t o v' =>
      t = [] ∧ SameHold v v' ∧ ∀ out, o = .ok (some out) → out.type ≠ .error := by
  unfold handle
  cases ev.type with
  | delta =>
    simp only
    split
    · exact ⟨rfl, .refl v, by simp⟩
    · refine ⟨rfl, ⟨rfl, rfl, rfl, rfl⟩, ?_⟩
      rintro out ⟨⟩
      simp
  | toolUseStart =>
    refine ⟨rfl, ?_, ?_⟩
    · exact (sameHold_setEntry v _ _).trans ⟨rfl, rfl, rfl, rfl⟩
    · rintro out ⟨⟩
      simp
  | toolUseDelta =>
    refine ⟨rfl, sameHold_setEntry v _ _, ?_⟩
    rintro out ⟨⟩
    simp
  | toolUseEnd =>
    simp only [Coro.all_get_bind]
    split
    · refine ⟨rfl, sameHold_setEntry v _ _, ?_⟩
      rintro out ⟨⟩
      simp
    · refine ⟨rfl, .refl v, ?_⟩
      rintro out ⟨⟩
      simp
  | usage =>
    simp only
    split
    · exact ⟨rfl, ⟨rfl, rfl, rfl, rfl⟩, by rintro out ⟨⟩⟩
    · exact ⟨rfl, .refl v, by rintro out ⟨⟩⟩
  | done => exact ⟨rfl, ⟨rfl, rfl, rfl, rfl⟩, by rintro out ⟨⟩⟩
  | error => exact ⟨rfl, .refl v, by rintro out ⟨⟩⟩
  | other => exact ⟨rfl, .refl v, by rintro out ⟨⟩⟩

theorem silent_emit {out : StreamEvent} (plain : out.type ≠ .error) (r : Except Raised Unit) :
    Silent [⟨.emit out, r⟩] := by
  refine Quiet.nil.cons rfl ?_
  cases r <;> simp [escapes, closeCancelled, raisedBy, plain]

theorem forwardEvents_spec (d : Deployment) (events : List LLMStreamEvent) :
    (forwardEvents gw d events).All v fun t _ v' => Silent t ∧ SameHold v v' := by
  induction events generalizing v with
  | nil => exact ⟨Quiet.nil, .refl v⟩
  | cons ev rest ih =>
    refine (handle_spec gw d ev).bind (fun t out v' h => ?_) fun t e v' h => ?_
    · obtain ⟨rfl, same, plain⟩ := h
      cases out with
      | none => exact ih.mono fun t' _ v'' h => ⟨h.1, same.trans h.2⟩
      | some out =>
        have silent := silent_emit (plain out rfl)
        refine (Coro.all_call_bind _ _).mpr ⟨fun _ => ?_, fun e => ⟨silent _, same⟩⟩
        exact ih.mono fun t' _ v'' h => ⟨(silent _).append h.1, same.trans h.2⟩
    · obtain ⟨rfl, same, _⟩ := h
      exact ⟨Quiet.nil, same⟩

theorem consume_spec (d : Deployment) :
    (consume gw request tenant d).All v fun t o v' =>
      Silent t ∧ v'.finalized = v.finalized ∧ v'.seen = v.seen ∧ (o = .ok () → v'.opened = true) := by
  refine (Coro.all_call_bind _ _).mpr ⟨fun script => ?_, fun e => ?_⟩
  · have open_ : Silent [⟨.openStream d request.messages (callTimeout request tenant),
        .ok script⟩] := Quiet.nil.cons rfl rfl
    rw [Coro.all_modify_bind]
    refine (forwardEvents_spec gw d script.events).bind (fun t _ v' h => ?_)
      fun t e v' h => ⟨open_.append h.1, h.2.finalized, h.2.seen, by simp⟩
    have silent := open_.append h.1
    cases script.ending with
    | some e => exact ⟨by simpa using silent, h.2.finalized, h.2.seen, by simp⟩
    | none =>
      simp only
      split
      · exact ⟨by simpa using silent, h.2.finalized, h.2.seen, by simp⟩
      · exact ⟨by simpa using silent, h.2.finalized, h.2.seen, fun _ => h.2.opened⟩
  · exact ⟨Quiet.nil.cons rfl rfl, rfl, rfl, by simp⟩

theorem closeUpstream_spec :
    closeUpstream.All v fun t o v' => v' = v ∧
      match o with
      | .ok _ => Silent t ∧ (v.opened = true → t ≠ [])
      | .error e => e.isException = false ∧ v.opened = true ∧
          t = [⟨.aclose, .error e⟩] := by
  unfold closeUpstream
  rw [Coro.all_get_bind]
  split
  next opened =>
    refine Coro.All.tryCatch
      (Ψ := fun (t : Run) o v' => v' = v ∧ t = [⟨.aclose, o⟩]) (fun r => ⟨rfl, rfl⟩) ?_ ?_
    · rintro t ⟨⟩ v' ⟨rfl, rfl⟩
      exact ⟨rfl, Quiet.nil.cons rfl rfl, by simp⟩
    · rintro t e v' ⟨rfl, rfl⟩
      split
      next ex =>
        exact ⟨rfl, Quiet.nil.cons rfl (by simp [escapes, closeCancelled, raisedBy, ex]), by simp⟩
      next ex => exact ⟨rfl, by simpa using ex, opened, rfl⟩
  next closed => exact ⟨rfl, Quiet.nil, fun opened => absurd opened closed⟩

/-- While the hold is open, `_release` settles it, whatever the call answers. -/
theorem releaseOnce_spec (held_ : v.finalized = false) :
    releaseOnce.All v fun t o v' => BodyEnd v' t (raisedOf o) := by
  unfold releaseOnce
  rw [Coro.all_get_bind, held_]
  intro r
  exact .settled _ rfl [] [] _ rfl Quiet.nil rfl rfl (by simp)

/-- `_release` then anything that settles nothing. -/
theorem BodyEnd.append_none {v v' : StreamVars} {t t' : Run} {o : Option Raised}
    (h : BodyEnd v t none) (finalized : v'.finalized = v.finalized)
    (after : ∀ e ∈ t', settles e = false) : BodyEnd v' (t ++ t') o := by
  cases h with
  | settled _ fin t₁ t₂ ev split silent settles_ fine after' =>
    refine .settled _ (finalized.trans fin) t₁ (t₂ ++ t') ev (by simp [split]) silent settles_
      fine fun e mem => ?_
    rcases List.mem_append.mp mem with mem | mem
    · exact after' e mem
    · exact after e mem

theorem abandon_spec {α : Type} (e : Raised) (held_ : v.finalized = false) :
    (abandon e : Coro Calls Raised StreamVars α).All v fun t o v' =>
      ∃ e', o = .error e' ∧ BodyEnd v' t (some e') := by
  refine closeUpstream_spec.bind (fun t _ v' h => ?_) fun t e' v' h => ⟨e', rfl, ?_⟩
  · obtain ⟨rfl, silent, _⟩ := h
    refine (releaseOnce_spec held_).bind (fun t' _ v'' h => ⟨e, rfl, ?_⟩)
      fun t' e' v'' h => ⟨e', rfl, h.prepend silent⟩
    exact (h.append_none rfl (by simp)).prepend silent
  · obtain ⟨rfl, base, opened, rfl⟩ := h
    exact .closing e' held_ opened [] _ rfl Quiet.nil rfl rfl base

/-- How one attempt leaves its handlers. -/
def AttemptEnd (all seen : List Deployment) (v' : StreamVars) (t : Run) :
    Except Raised Flow → Prop
  | .ok .again => Silent t ∧ v'.finalized = false ∧ v'.seen = seen ∧ Fresh all v'.targets seen
  | .ok .left => BodyEnd v' t none
  | .ok .completed => Silent t ∧ v'.finalized = false ∧ v'.opened = true
  | .error e => BodyEnd v' t (some e)

theorem AttemptEnd.prepend {all seen : List Deployment} {v' : StreamVars} {t t' : Run}
    {o : Except Raised Flow} (silent : Silent t) (h : AttemptEnd all seen v' t' o) :
    AttemptEnd all seen v' (t ++ t') o := by
  match o with
  | .ok .again => exact ⟨silent.append h.1, h.2⟩
  | .ok .left => exact BodyEnd.prepend silent h
  | .ok .completed => exact ⟨silent.append h.1, h.2⟩
  | .error e => exact BodyEnd.prepend silent h

theorem failAttempt_spec {all : List Deployment} {chain : FallbackChain}
    (named : chain.allTargets ⊆ all) (d : Deployment) (e : Raised) (held_ : v.finalized = false) :
    (failAttempt chain d e).All v fun t o v' => AttemptEnd all v.seen v' t o := by
  unfold failAttempt
  simp only [Coro.all_modify_bind]
  refine (Coro.all_call_bind _ _).mpr ⟨fun _ => ?_, fun e' => ?_⟩
  · have silent : Silent [⟨.recordFailure d, .ok ()⟩] := Quiet.nil.cons rfl rfl
    rw [Coro.all_get_bind]
    split
    · refine (Coro.all_call_bind _ _).mpr ⟨fun _ => ?_, fun e' => ?_⟩
      · refine (releaseOnce_spec (by exact held_)).bind (fun t _ v' h => ?_) fun t e' v' h => ?_
        · refine (Coro.all_pure _).mpr ?_
          rw [List.append_nil]
          exact h.prepend (silent.append (Quiet.nil.cons rfl rfl))
        · exact h.prepend (silent.append (Quiet.nil.cons rfl rfl))
      · refine BodyEnd.prepend silent (.of_raise (by exact held_) _ e' rfl ?_ ?_)
        · rfl
        · simp [escapes, raisedBy]
    · exact ⟨silent, held_, rfl, Fresh.next named _ _⟩
  · exact BodyEnd.of_raise (by exact held_) (.recordFailure d) e' rfl rfl rfl

theorem onAttemptRaise_spec {all : List Deployment} {chain : FallbackChain}
    (named : chain.allTargets ⊆ all) (d : Deployment) (e : Raised) (held_ : v.finalized = false) :
    (onAttemptRaise chain d e).All v fun t o v' => AttemptEnd all v.seen v' t o := by
  have abort : (abandon e).All v fun t o v' => AttemptEnd all v.seen v' t o := by
    refine (abandon_spec e held_).mono fun t o v' h => ?_
    obtain ⟨e', rfl, ended⟩ := h
    exact ended
  cases e with
  | cancelled => exact abort
  | generatorExit => exact abort
  | outOfFuel => exact .raised _ held_ Quiet.nil rfl
  | _ => exact failAttempt_spec named d _ held_

theorem complete_spec (d : Deployment) (held_ : v.finalized = false) (opened : v.opened = true) :
    (complete gw request cfg d).All v fun t o v' => QuotaAnswers t → BodyEnd v' t (raisedOf o) := by
  have emitted : ∀ (event : StreamEvent) (r : Except Raised Unit),
      settles ⟨.emit event, r⟩ = false := fun _ _ => rfl
  refine (Coro.all_call_bind _ _).mpr ⟨fun _ => ?_, fun e _ => ?_⟩
  · have silent : Silent [⟨.recordSuccess d, .ok ()⟩] := Quiet.nil.cons rfl rfl
    rw [Coro.all_get_bind]
    refine (Coro.all_call_bind _ _).mpr ⟨fun _ => ?_, fun e answers => ?_⟩
    · -- from here on the hold is settled and nothing touches it again
      have settled : ∀ (v' : StreamVars) (t : Run) (o : Option Raised), v'.finalized = true →
          (∀ e ∈ t, settles e = false) →
          BodyEnd v' ([⟨.recordSuccess d, .ok ()⟩] ++ ⟨.reconcile v.reservation
            (resultUsd gw (streamResult gw d v)), .ok ()⟩ :: t) o :=
        fun v' t o fin after => .settled o fin _ t _ rfl silent rfl rfl after
      rw [Coro.all_modify_bind]
      refine (afterSuccess_spec gw request cfg (streamResult gw d v)).bind (fun t _ v' h => ?_)
        fun t e v' h _ => settled v' t _ (by rw [h.1.2]) h.1.1
      obtain ⟨⟨none_, rfl⟩, _⟩ := h
      have more : ∀ t' : Run, (∀ e ∈ t', settles e = false) → ∀ e ∈ t ++ t', settles e = false := by
        intro t' none' e mem
        rcases List.mem_append.mp mem with mem | mem
        · exact none_ e mem
        · exact none' e mem
      refine (Coro.all_call_bind _ _).mpr ⟨fun _ => fun r _ => ?_, fun e _ => ?_⟩
      · exact settled _ _ _ rfl (more _ (by simp [emitted]))
      · exact settled _ _ _ rfl (more _ (by simp [emitted]))
    · have base : e.isException = false :=
        answers _ (List.mem_cons_of_mem _ (List.mem_singleton_self _)) rfl e rfl
      exact .failed e held_ opened [⟨.recordSuccess d, .ok ()⟩] _ rfl silent rfl rfl base
  · exact BodyEnd.of_raise held_ (.recordSuccess d) e rfl rfl rfl

/-- How one round of the loop ends. -/
def StreamRoundEnd (v' : StreamVars) (t : Run) : Except Raised (Option Bool) → Prop
  | .ok none | .ok (some false) => Silent t ∧ v'.finalized = false
  | .ok (some true) => BodyEnd v' t none
  | .error e => BodyEnd v' t (some e)

theorem StreamRoundEnd.prepend {v' : StreamVars} {t t' : Run} {o : Except Raised (Option Bool)}
    (silent : Silent t) (h : StreamRoundEnd v' t' o) : StreamRoundEnd v' (t ++ t') o := by
  match o with
  | .ok none | .ok (some false) => exact ⟨silent.append h.1, h.2⟩
  | .ok (some true) => exact BodyEnd.prepend silent h
  | .error e => exact BodyEnd.prepend silent h

theorem attemptStream_spec {all : List Deployment} {chain : FallbackChain}
    (named : chain.allTargets ⊆ all) (d : Deployment) (held_ : v.finalized = false) :
    (attemptStream gw request tenant chain d).All v fun t o v' =>
      AttemptEnd all v.seen v' t o := by
  refine Coro.All.tryCatch
    (Ψ := fun t o v' => Silent t ∧ v'.finalized = v.finalized ∧ v'.seen = v.seen ∧
      ∀ flow, o = .ok flow → flow = .completed ∧ v'.opened = true) ?_ ?_ ?_
  · refine (consume_spec gw request tenant d).bind (fun t _ v' h => ?_)
      fun t e v' h => ⟨h.1, h.2.1, h.2.2.1, by simp⟩
    refine ⟨by simpa using h.1, h.2.1, h.2.2.1, ?_⟩
    rintro flow ⟨⟩
    exact ⟨rfl, h.2.2.2 rfl⟩
  · intro t flow v' h
    obtain ⟨rfl, opened⟩ := h.2.2.2 flow rfl
    exact ⟨h.1, h.2.1.trans held_, opened⟩
  · intro t e v' h
    refine (onAttemptRaise_spec named d e (h.2.1.trans held_)).mono fun t' o v'' h' => ?_
    rw [h.2.2.1] at h'
    exact h'.prepend h.1

theorem streamRound_spec {all : List Deployment} {chain : FallbackChain}
    (named : chain.allTargets ⊆ all) (apiKey : String) (fresh : Fresh all v.targets v.seen)
    (held_ : v.finalized = false) :
    (streamRound gw request tenant cfg chain apiKey).All v fun t o v' =>
      (QuotaAnswers t → StreamRoundEnd v' t o) ∧
        (o = .ok none → v'.finalized = false ∧ Fresh all v'.targets v'.seen ∧
          unseen all v'.seen < unseen all v.seen) := by
  unfold streamRound
  rw [Coro.all_get_bind]
  split
  next => exact ⟨fun _ => ⟨Quiet.nil, held_⟩, fun h => by cases h⟩
  next d rest targets_eq =>
    obtain ⟨known, new⟩ := fresh d (by simp [targets_eq])
    rw [Coro.all_modify_bind, Coro.all_get_bind, if_neg new, Coro.all_modify_bind]
    refine (Coro.all_call_bind _ _).mpr ⟨fun _ => ?_, fun e => ⟨fun _ => ?_, by simp⟩⟩
    · have adapter : Silent [⟨.getAdapter d request apiKey, .ok ()⟩] := Quiet.nil.cons rfl rfl
      rw [Coro.all_modify_bind]
      refine (attemptStream_spec gw request tenant named d (by exact held_)).bind
        (fun t flow v' h => ?_) fun t e v' h => ⟨fun _ => BodyEnd.prepend adapter h, by simp⟩
      cases flow with
      | completed =>
        obtain ⟨silent, held', opened⟩ := h
        refine (complete_spec gw request cfg d held' opened).bind
          (fun t' _ v'' h => ⟨fun answers => ?_, by simp⟩)
          fun t' e v'' h => ⟨fun answers => ?_, by simp⟩
        · rw [List.append_nil] at answers ⊢
          exact BodyEnd.prepend adapter ((h (answers.right (t := _ :: t))).prepend silent)
        · exact BodyEnd.prepend adapter ((h (answers.right (t := _ :: t))).prepend silent)
      | again =>
        obtain ⟨silent, held', seen_eq, next⟩ := h
        refine ⟨fun _ => ⟨?_, held'⟩, fun _ => ⟨held', ?_, ?_⟩⟩
        · exact adapter.append (by simpa using silent)
        · rwa [seen_eq]
        · rw [seen_eq]
          exact unseen_lt known new
      | left =>
        refine ⟨fun _ => ?_, fun h => by cases h⟩
        rw [List.append_nil]
        exact BodyEnd.prepend adapter h
    · exact BodyEnd.of_raise (by exact held_) (.getAdapter d request apiKey) e rfl rfl rfl

theorem streamLoop_spec {chain : FallbackChain} {decision : Deployment} (apiKey : String)
    (held_ : v.finalized = false) (seen_ : v.seen = []) :
    (Coro.iterate (streamRound gw request tenant cfg chain apiKey) (chainFuel chain)).All
      { v with targets := [decision] } fun t o v' =>
        (QuotaAnswers t → StreamRoundEnd v' t o) ∧ o ≠ .ok none := by
  have named : chain.allTargets ⊆ decision :: chain.allTargets := List.subset_cons_self ..
  have start : Fresh (decision :: chain.allTargets) [decision] v.seen := by simp [Fresh, seen_]
  refine Coro.All.and ?_ ?_
  · refine Coro.all_iterate _
      (fun t v => (QuotaAnswers t → Silent t) ∧ v.finalized = false ∧
        Fresh (decision :: chain.allTargets) v.targets v.seen)
      (Φ := fun t o v' => QuotaAnswers t → StreamRoundEnd v' t o)
      (fun t v inv => ?_) (fun t v inv answers => ⟨inv.1 answers, inv.2.1⟩) _ (t := [])
      ⟨fun _ => Quiet.nil, held_, start⟩
    refine (streamRound_spec gw request tenant cfg named apiKey inv.2.2 inv.2.1).mono
      fun t' o v' h => ?_
    cases o with
    | error e => exact fun answers => (h.1 answers.right).prepend (inv.1 answers.left)
    | ok found =>
      cases found with
      | none =>
        obtain ⟨held', next, _⟩ := h.2 rfl
        exact ⟨fun answers => (inv.1 answers.left).append (h.1 answers.right).1, held', next⟩
      | some found => exact fun answers => (h.1 answers.right).prepend (inv.1 answers.left)
  · refine Coro.iterate_total _
      (fun v => v.finalized = false ∧ Fresh (decision :: chain.allTargets) v.targets v.seen)
      (fun v => unseen (decision :: chain.allTargets) v.seen)
      (fun v inv => (streamRound_spec gw request tenant cfg named apiKey inv.2 inv.1).mono
        fun _ _ _ h eq => ⟨⟨(h.2 eq).1, (h.2 eq).2.1⟩, (h.2 eq).2.2⟩) _ ⟨held_, start⟩
      (chainFuel_enough decision chain v.seen)

theorem snapshot_silent (ds : List Deployment) (held_ : v.finalized = false) :
    (snapshot ds).All v fun t o v' => v' = v ∧
      match o with
      | .ok _ => Silent t
      | .error e => BodyEnd v t (some e) := by
  induction ds with
  | nil => exact ⟨rfl, Quiet.nil⟩
  | cons d ds ih =>
    rw [snapshot]
    refine (Coro.all_call_bind _ _).mpr ⟨fun up => ?_, fun e => ⟨rfl, ?_⟩⟩
    · have silent : Silent [⟨.isAvailable d, .ok up⟩] := Quiet.nil.cons rfl rfl
      refine ih.bind (fun t rest v' h => ⟨h.1, ?_⟩) fun t e v' h => ⟨h.1, BodyEnd.prepend silent h.2⟩
      simpa using silent.append h.2
    · exact BodyEnd.of_raise held_ (.isAvailable d) e rfl rfl rfl

/-- Every run of the body that obtained a reservation ends in one of the ways. -/
theorem decide_silent (held_ : v.finalized = false) :
    (decide gw request cfg).All v fun t o v' => v' = v ∧
      match o with
      | .ok _ => Silent t
      | .error e => BodyEnd v t (some e) :=
  (snapshot_silent _ held_).bind (fun t _ v' h => ⟨h.1, by simpa using h.2⟩) fun t e v' h => h

theorem streamBody_spec :
    (streamBody gw request tenant cfg).All {} fun t o v' =>
      ∀ t', Reserved (t ++ t') → QuotaAnswers t → BodyEnd v' t (raisedOf o) := by
  have refused : ∀ e t',
      ¬ Reserved ([⟨.reserve (reserveArgs gw request tenant cfg), .error e⟩] ++ t') := by
    rintro e t' ⟨args, r, rest, eq⟩
    cases eq
  refine (Coro.all_call_bind _ _).mpr
    ⟨fun reservation => ?_, fun e t' got => absurd got (refused e t')⟩
  refine Coro.All.mono (Φ := fun t o v' => QuotaAnswers t → BodyEnd v' t (raisedOf o)) ?_
    fun t o _ h _ _ answers =>
      BodyEnd.prepend (Quiet.nil.cons rfl rfl) (h (answers.right (t := [_])))
  rw [Coro.all_modify_bind]
  refine (Coro.all_call_bind _ _).mpr ⟨fun apiKey => ?_, fun e _ => ?_⟩
  · refine Coro.All.mono (Φ := fun t o v' => QuotaAnswers t → BodyEnd v' t (raisedOf o)) ?_
      fun t o _ h answers => BodyEnd.prepend (Quiet.nil.cons rfl rfl) (h (answers.right (t := [_])))
    refine (decide_silent gw request cfg rfl).bind (fun t decision v' h => ?_) fun t e v' h _ => h.1 ▸ h.2
    obtain ⟨rfl, silent⟩ := h
    rw [Coro.all_modify_bind]
    refine (streamLoop_spec gw request tenant cfg apiKey rfl rfl).bind (fun t' left v' h => ?_)
      fun t' e v' h answers => BodyEnd.prepend silent (h.1 answers.right)
    cases left with
    | none => exact absurd rfl h.2
    | some left_ =>
    cases left_ with
    | true =>
      intro answers
      rw [List.append_nil] at answers ⊢
      exact BodyEnd.prepend silent (h.1 answers.right)
    | false =>
      -- the chain is exhausted: `_release`, then `GatewayChainExhausted`
      cases fin : v'.finalized with
      | false =>
        refine (releaseOnce_spec fin).bind (fun t'' _ v'' ended answers => ?_)
          fun t'' e v'' ended answers => ?_
        · have open_ := (h.1 answers.right.left).1
          exact BodyEnd.prepend silent (BodyEnd.prepend open_ (ended.append_none rfl (by simp)))
        · have open_ := (h.1 answers.right.left).1
          exact BodyEnd.prepend silent (BodyEnd.prepend open_ ended)
      | true =>
        unfold releaseOnce
        rw [Coro.all_bind, Coro.all_get_bind, fin]
        intro answers
        have held' := (h.1 (by simpa using answers.right)).2
        rw [fin] at held'
        cases held'
  · exact BodyEnd.of_raise rfl (.resolveKey tenant) e rfl rfl rfl

end

/-! ## The whole stream -/

/-- The answers under which `_stream_impl` settles exactly once: no escape and no
cancelled close while the hold is open, and `reconcile` comes back unless the
close after it is cancelled too. -/
structure StreamKeeps (t : Run) : Prop where
  contained : ∀ ev ∈ held t, escapes ev = false
  closed : endsInCancelledClose (held t) = false
  reconciled : (∃ ev ∈ t, reconcileFailed ev = true) → endsInCancelledClose t = true

def StreamExact (t : Run) : Prop := settlements t = 1 ↔ StreamKeeps t

theorem settles_of_reconcileFailed {ev : Ev} (h : reconcileFailed ev = true) :
    settles ev = true := by
  obtain ⟨op, r⟩ := ev
  cases op <;> first | rfl | (cases r <;> cases h)

theorem endsInCancelledClose_snoc (t : Run) (ev : Ev) :
    endsInCancelledClose (t ++ [ev]) = closeCancelled ev := by
  simp [endsInCancelledClose]

theorem endsInCancelledClose_append {t t' : Run} (more : t' ≠ []) :
    endsInCancelledClose (t ++ t') = endsInCancelledClose t' := by
  rw [endsInCancelledClose, List.getLast?_append_of_ne_nil _ more, endsInCancelledClose]

theorem Silent.no_close {t : Run} (silent : Silent t) : endsInCancelledClose t = false := by
  unfold endsInCancelledClose
  cases last : t.getLast? with
  | none => rfl
  | some ev =>
    have quiet := (silent ev (List.mem_of_getLast? last)).2
    simp only [Bool.or_eq_false_iff] at quiet
    simpa using quiet.2

theorem Silent.no_escape {t : Run} (silent : Silent t) : Quiet escapes t := by
  intro ev mem
  have quiet := silent ev mem
  simp only [Bool.or_eq_false_iff] at quiet
  exact ⟨quiet.1, quiet.2.1⟩

theorem exact_of_settled {t₁ t₂ : Run} {ev : Ev} (quiet : Quiet escapes t₁)
    (close : endsInCancelledClose t₁ = false) (settles_ : settles ev = true)
    (fine : reconcileFailed ev = false) (after : ∀ e ∈ t₂, settles e = false) :
    StreamExact (t₁ ++ ev :: t₂) := by
  have shape : SettledIn escapes (t₁ ++ ev :: t₂) := ⟨t₁, ev, t₂, rfl, quiet, settles_, after⟩
  refine iff_of_true shape.settlements ⟨shape.held, ?_, ?_⟩
  · rwa [held_of_quiet quiet settles_]
  · rintro ⟨e, mem, failed⟩
    have settles_e := settles_of_reconcileFailed failed
    rcases List.mem_append.mp mem with mem | mem
    · rw [(quiet e mem).1] at settles_e
      cases settles_e
    · rcases List.mem_cons.mp mem with rfl | mem
      · rw [fine] at failed
        cases failed
      · rw [after e mem] at settles_e
        cases settles_e

theorem exact_of_cancelledClose {t : Run} {ev : Ev} (quiet : Quiet escapes t)
    (inside : settles ev = false) (cancelled : closeCancelled ev = true) :
    StreamExact (t ++ [ev]) := by
  have none_ : ∀ e ∈ t ++ [ev], settles e = false := by
    intro e mem
    rcases List.mem_append.mp mem with mem | mem
    · exact (quiet e mem).1
    · rwa [List.mem_singleton.mp mem]
  refine iff_of_false ?_ fun keeps => ?_
  · rw [settlements_eq_zero none_]
    decide
  · have closed := keeps.closed
    rw [held_eq_self none_, endsInCancelledClose_snoc, cancelled] at closed
    cases closed

theorem exact_of_escaped {t : Run} (dropped : DroppedIn escapes t) {ev : Ev}
    (inside : settles ev = false) : StreamExact (t ++ [ev]) := by
  have none_ : ∀ e ∈ t ++ [ev], settles e = false := by
    intro e mem
    rcases List.mem_append.mp mem with mem | mem
    · exact dropped.noSettle e mem
    · rwa [List.mem_singleton.mp mem]
  obtain ⟨t₁, ev', rfl, _, _, escapes_⟩ := dropped
  refine iff_of_false ?_ fun keeps => ?_
  · rw [settlements_eq_zero none_]
    decide
  · have contained := keeps.contained ev' (by rw [held_eq_self none_]; simp)
    rw [escapes_] at contained
    cases contained

/-- After a failed `reconcile`: a cancelled close leaves it the only settling
call, and a release makes it the first of two. -/
theorem exact_of_failed_close {t : Run} {ev ev' : Ev} (silent : Silent t)
    (settles_ : settles ev = true) (inside : settles ev' = false)
    (cancelled : closeCancelled ev' = true) : StreamExact (t ++ ev :: [ev']) := by
  have quiet := silent.no_escape
  have shape : SettledIn escapes (t ++ ev :: [ev']) :=
    ⟨t, ev, [ev'], rfl, quiet, settles_, by simpa using inside⟩
  refine iff_of_true shape.settlements ⟨shape.held, ?_, fun _ => ?_⟩
  · rw [held_of_quiet quiet settles_]
    exact silent.no_close
  · rw [← cancelled, ← endsInCancelledClose_snoc (t ++ [ev]) ev']
    simp

theorem exact_of_failed_release {t t' : Run} {ev ev' : Ev} (settles_ : settles ev = true)
    (failed : reconcileFailed ev = true) (settles' : settles ev' = true)
    (open_ : closeCancelled ev' = false) : StreamExact (t ++ ev :: (t' ++ [ev'])) := by
  refine iff_of_false ?_ fun keeps => ?_
  · simp only [settlements, List.countP_append, List.countP_cons, List.countP_nil, settles_, settles']
    simp
    omega
  · have last := keeps.reconciled ⟨ev, by simp, failed⟩
    rw [← List.cons_append, ← List.append_assoc, endsInCancelledClose_snoc, open_] at last
    cases last

section
variable {v : StreamVars}

theorem releaseOnce_finalized (fin : v.finalized = true) :
    releaseOnce.All v fun t _ v' => t = [] ∧ v' = v := by
  unfold releaseOnce
  rw [Coro.all_get_bind, fin]
  exact ⟨rfl, rfl⟩

theorem releaseOnce_held (held_ : v.finalized = false) :
    releaseOnce.All v fun t _ _ => ∃ r, t = [⟨.release v.reservation, r⟩] := by
  unfold releaseOnce
  rw [Coro.all_get_bind, held_]
  exact fun r => ⟨r, rfl⟩

theorem emit_spec (event : StreamEvent) :
    (Coro.call (I := Calls) (.emit event) : Coro Calls Raised StreamVars Unit).All v
      fun t _ _ => ∃ r, t = [⟨.emit event, r⟩] :=
  fun r => ⟨r, rfl⟩

/-- Once the hold is settled, no handler settles it again. -/
theorem onStreamRaise_finalized (e : Raised) (fin : v.finalized = true) :
    (onStreamRaise e).All v fun t _ _ => ∀ ev ∈ t, settles ev = false := by
  have report : ∀ (e : Raised) (failureClass : String),
      (releaseAndReport e failureClass).All v fun t _ _ => ∀ ev ∈ t, settles ev = false := by
    intro e failureClass
    refine (releaseOnce_finalized fin).bind (fun t _ v' h => ?_) fun t e v' h => by simp [h.1]
    obtain ⟨rfl, rfl⟩ := h
    refine (emit_spec _).mono fun t _ _ h => ?_
    obtain ⟨r, rfl⟩ := h
    simp [settles]
  have abort : ∀ e : Raised,
      (abandon e : Coro Calls Raised StreamVars Unit).All v fun t _ _ =>
        ∀ ev ∈ t, settles ev = false := by
    intro e
    refine closeUpstream_spec.bind (fun t _ v' h => ?_) fun t e v' h => by simp [h.2.2.2, settles]
    obtain ⟨rfl, silent, _⟩ := h
    refine (releaseOnce_finalized fin).bind (fun t' _ v'' h => ?_) fun t' e v'' h => ?_
    · obtain ⟨rfl, rfl⟩ := h
      intro ev mem
      exact (silent ev (by simpa using mem)).1
    · obtain ⟨rfl, rfl⟩ := h
      intro ev mem
      exact (silent ev (by simpa using mem)).1
  unfold onStreamRaise
  cases e with
  | quotaExceeded => exact report _ _
  | configuration => exact report _ _
  | chainExhausted =>
    refine (emit_spec _).mono fun t _ _ h => ?_
    obtain ⟨r, rfl⟩ := h
    simp [settles]
  | _ =>
    simp only [Raised.isException]
    first | exact report _ _ | exact abort _

/-- An `Exception` while the hold is open: it is released and reported. -/
theorem releaseAndReport_exact {t : Run} (e : Raised) (failureClass : String)
    (held_ : v.finalized = false) (quiet : Quiet escapes t)
    (close : endsInCancelledClose t = false) :
    (releaseAndReport e failureClass).All v fun t' _ _ => StreamExact (t ++ t') := by
  refine (releaseOnce_held held_).bind (fun t' _ v' h => ?_) fun t' e v' h => ?_
  · obtain ⟨r, rfl⟩ := h
    refine (emit_spec _).mono fun t'' _ _ h => ?_
    obtain ⟨r', rfl⟩ := h
    exact exact_of_settled quiet close rfl rfl (by simp [settles])
  · obtain ⟨r, rfl⟩ := h
    exact exact_of_settled quiet close rfl rfl (by simp)

/-- A cancellation while the hold is open: the upstream is closed, then the hold
released, unless the close is cancelled. -/
theorem abandon_exact {t : Run} (e : Raised) (held_ : v.finalized = false)
    (quiet : Quiet escapes t) (close : v.opened = false → endsInCancelledClose t = false) :
    (abandon e : Coro Calls Raised StreamVars Unit).All v fun t' _ _ => StreamExact (t ++ t') := by
  refine closeUpstream_spec.bind (fun t' _ v' h => ?_) fun t' e' v' h => ?_
  · obtain ⟨rfl, silent, closes⟩ := h
    have close' : endsInCancelledClose (t ++ t') = false := by
      by_cases empty : t' = []
      · subst empty
        rw [List.append_nil]
        exact close (by simpa using closes)
      · rw [endsInCancelledClose_append empty]
        exact silent.no_close
    have release : ∀ r, StreamExact (t ++ (t' ++ [⟨.release v'.reservation, r⟩])) := by
      intro r
      rw [← List.append_assoc]
      exact exact_of_settled (quiet.append silent.no_escape) close' rfl rfl (by simp)
    refine (releaseOnce_held held_).bind (fun t'' _ v'' h => ?_) fun t'' e' v'' h => ?_
    · obtain ⟨r, rfl⟩ := h
      simpa [Coro.all_throw] using release r
    · obtain ⟨r, rfl⟩ := h
      exact release r
  · obtain ⟨rfl, base, _, rfl⟩ := h
    exact exact_of_cancelledClose quiet rfl (by simp [closeCancelled, raisedBy, base])

/-- A cancellation after a failed `reconcile`. -/
theorem abandon_failed {t : Run} {ev : Ev} (e : Raised) (held_ : v.finalized = false)
    (silent : Silent t) (settles_ : settles ev = true) (failed : reconcileFailed ev = true) :
    (abandon e : Coro Calls Raised StreamVars Unit).All v fun t' _ _ =>
      StreamExact (t ++ [ev] ++ t') := by
  refine closeUpstream_spec.bind (fun t' _ v' h => ?_) fun t' e' v' h => ?_
  · obtain ⟨rfl, _⟩ := h
    have release : ∀ r, StreamExact (t ++ [ev] ++ (t' ++ [⟨.release v'.reservation, r⟩])) := by
      intro r
      rw [List.append_assoc, List.singleton_append]
      exact exact_of_failed_release settles_ failed rfl rfl
    refine (releaseOnce_held held_).bind (fun t'' _ v'' h => ?_) fun t'' e' v'' h => ?_
    · obtain ⟨r, rfl⟩ := h
      simpa [Coro.all_throw] using release r
    · obtain ⟨r, rfl⟩ := h
      exact release r
  · obtain ⟨rfl, base, _, rfl⟩ := h
    rw [List.append_assoc, List.singleton_append]
    exact exact_of_failed_close silent settles_ rfl (by simp [closeCancelled, raisedBy, base])

/-- The handlers, on each way the body can end. -/
theorem onStreamRaise_exact {t : Run} {e : Raised} (h : BodyEnd v t (some e)) :
    (onStreamRaise e).All v fun t' _ _ => StreamExact (t ++ t') := by
  cases h with
  | settled _ fin t₁ t₂ ev split silent settles_ fine after =>
    refine (onStreamRaise_finalized e fin).mono fun t' _ _ after' => ?_
    rw [split, List.append_assoc, List.cons_append]
    refine exact_of_settled silent.no_escape silent.no_close settles_ fine fun ev mem => ?_
    rcases List.mem_append.mp mem with mem | mem
    · exact after ev mem
    · exact after' ev mem
  | raised _ held_ silent plain =>
    have report := fun e failureClass =>
      releaseAndReport_exact e failureClass held_ silent.no_escape silent.no_close
    have abort := fun e => abandon_exact e held_ silent.no_escape fun _ => silent.no_close
    unfold onStreamRaise
    cases e with
    | quotaExceeded => exact report _ _
    | configuration => exact report _ _
    | chainExhausted => cases plain
    | _ =>
      simp only [Raised.isException]
      first | exact report _ _ | exact abort _
  | closing _ held_ opened t₁ ev split silent settles_ escapes_ base =>
    have quiet : Quiet escapes t := by
      rw [split]
      exact silent.no_escape.append (Quiet.nil.cons settles_ escapes_)
    have abort := abandon_exact e held_ quiet fun closed => by simp [opened] at closed
    cases e <;> first | exact abort | cases base
  | escaped _ held_ t₁ ev split silent settles_ escapes_ chain =>
    cases e <;> try cases chain
    refine (emit_spec _).mono fun t' _ _ h => ?_
    obtain ⟨r, rfl⟩ := h
    exact exact_of_escaped ⟨t₁, ev, split, silent.no_escape, settles_, escapes_⟩ rfl
  | failed _ held_ opened t₁ ev split silent settles_ failed_ base =>
    rw [split]
    have abort := abandon_failed e held_ silent settles_ failed_
    cases e <;> first | exact abort | cases base

end

/-- Every run of `_stream_impl` that obtained a reservation settles it once
exactly under the answers `StreamKeeps` names. -/
theorem streamImpl_exact (gw : Service) (request : Request) (tenant : TenantConfig) (cfg : Cfg) :
    (streamImpl gw request tenant cfg).All {} fun t _ _ =>
      Reserved t → QuotaAnswers t → StreamExact t := by
  refine Coro.All.tryCatch (streamBody_spec gw request tenant cfg) (fun t _ v h got answers => ?_)
    fun t e v h => ?_
  · cases h [] (by simpa using got) answers with
    | settled _ fin t₁ t₂ ev split silent settles_ fine after =>
      rw [split]
      exact exact_of_settled silent.no_escape silent.no_close settles_ fine after
  · rw [Coro.all_iff]
    intro t' o v' run got answers
    exact Coro.all_iff.mp (onStreamRaise_exact (h t' got answers.left)) t' o v' run

/-! ## Both functions -/

/-- The settling calls are answered by `quota.py`. -/
def QuotaRuns (t : Run) : Prop :=
  ∀ ev ∈ t, match ev with
    | ⟨.reconcile r actualUsd, reply⟩ =>
      ∃ svc tr, (Quota.reconcile svc r actualUsd : Coro Redis Raised Unit Unit).Runs () tr reply ()
    | ⟨.release r, reply⟩ =>
      ∃ svc tr, (Quota.release svc r : Coro Redis Raised Unit Unit).Runs () tr reply ()
    | _ => True

theorem reconcile_answers (svc : Quota.Service) (r : Option Reservation) (actualUsd : ℚ) :
    (Quota.reconcile svc r actualUsd : Coro Redis Raised Unit Unit).All () fun _ o _ =>
      ∀ e, o = .error e → e.isException = false := by
  unfold Quota.reconcile
  cases r with
  | none => exact fun e eq => by cases eq
  | some r =>
    simp only
    split
    · exact fun e eq => by cases eq
    · split
      · exact fun e eq => by cases eq
      · refine Coro.All.tryCatch (Ψ := fun _ _ _ => True) ?_ (fun _ _ _ _ e eq => by cases eq) ?_
        · exact Coro.all_iff.mpr fun _ _ _ _ => trivial
        · intro t e s _
          split
          next => exact fun e' eq => by cases eq
          next ex =>
            rintro e' ⟨⟩
            simpa using ex

theorem release_answers (svc : Quota.Service) (r : Option Reservation) :
    (Quota.release svc r : Coro Redis Raised Unit Unit).All () fun _ o _ =>
      ∀ e, o = .error e → e.isException = false := by
  unfold Quota.release
  cases r with
  | none => exact fun e eq => by cases eq
  | some r =>
    simp only
    split
    · exact fun e eq => by cases eq
    · exact reconcile_answers svc (some r) 0

/-- `quota.py` lets nothing but a cancellation out of a settling call. -/
theorem QuotaRuns.answers {t : Run} (h : QuotaRuns t) : QuotaAnswers t := by
  intro ev mem settles_ e raised
  have run := h ev mem
  obtain ⟨op, reply⟩ := ev
  have reply_eq : reply = .error e := by
    cases reply with
    | ok a => cases raised
    | error e' => simpa [raisedBy] using raised
  subst reply_eq
  cases op with
  | reconcile r actualUsd =>
    obtain ⟨svc, tr, run⟩ := run
    exact Coro.all_iff.mp (reconcile_answers svc r actualUsd) tr _ () run e rfl
  | release r =>
    obtain ⟨svc, tr, run⟩ := run
    exact Coro.all_iff.mp (release_answers svc r) tr _ () run e rfl
  | _ => cases settles_

/-- A finished run of `generate` or of `_stream_impl` that obtained a reservation. -/
def SettlesOnce : Prop :=
  ∀ (gw : Service) (request : Request) (tenant : TenantConfig) (cfg : Cfg) (t : Run),
    Reserved t → QuotaRuns t →
      (∀ o, (generate gw request tenant cfg).Runs () t o () → settlements t = 1) ∧
        ∀ o v, (streamImpl gw request tenant cfg).Runs {} t o v → settlements t = 1

/-- A reservation is settled exactly once precisely when the environment raises
nothing where the function has no handler for it. -/
theorem settled_once_iff (gw : Service) (request : Request) (tenant : TenantConfig) (cfg : Cfg)
    (t : Run) (reserved : Reserved t) (quota : QuotaRuns t) :
    (∀ o, (generate gw request tenant cfg).Runs () t o () →
      (settlements t = 1 ↔ ∀ ev ∈ held t, leaks ev = false)) ∧
    ∀ o v, (streamImpl gw request tenant cfg).Runs {} t o v →
      (settlements t = 1 ↔ StreamKeeps t) := by
  constructor
  · intro o run
    exact settlements_eq_one_iff
      (Coro.all_iff.mp (generate_spec gw request tenant cfg) t o () run reserved quota.answers)
  · intro o v run
    exact Coro.all_iff.mp (streamImpl_exact gw request tenant cfg) t o v run reserved quota.answers

/-- An environment in which every call succeeds and the cache misses. -/
def answering : (op : Op) → Except Raised (Calls.Ans op)
  | .reserve args => .ok (some ⟨args.reservationId, args.estimatedUsd, [], [], args.window⟩)
  | .reconcile .. | .release _ | .setExact .. | .recordSuccess _ | .recordFailure _
  | .getAdapter .. | .aclose | .ledger _ | .emit _ => .ok ()
  | .getExact .. => .ok none
  | .resolveKey _ => .ok "sk"
  | .isAvailable _ => .ok true
  | .chat .. => .ok { content := "hello" }
  | .openStream .. => .ok { events := [{ type := .delta, content := "hello" }] }

/-- The same, with the key resolver finding no key. -/
def keyless : (op : Op) → Except Raised (Calls.Ans op)
  | .resolveKey _ => .error (.configuration "no key")
  | op => answering op

/-- A gateway whose catalog knows one model. -/
def oneModel : Service where
  router := { catalog := ⟨[⟨"openai", "gpt-4o-mini", 128000, 15 / 100, 60 / 100⟩]⟩ }
  defaultCatalog := ⟨[]⟩

/-- A request that carries an estimate. -/
def estimated : Request := { tenantId := "acme", messages := [], estimatedInputTokens := some 1000 }

def runOf (env : (op : Op) → Except Raised (Calls.Ans op)) : Run :=
  (generate oneModel estimated { id := "acme" } {}).traceWith env ()

def streamRunOf (env : (op : Op) → Except Raised (Calls.Ans op)) : Run :=
  (streamImpl oneModel estimated { id := "acme" } {}).traceWith env {}

/-- A settling call that succeeded is one that `quota.py` can have answered. -/
theorem quotaRuns_of_ok {t : Run} (h : t.all (fun ev => !settles ev || (raisedBy ev).isNone)) :
    QuotaRuns t := by
  intro ev mem
  have ok := List.all_eq_true.mp h ev mem
  obtain ⟨op, reply⟩ := ev
  cases op with
  | reconcile r actualUsd =>
    cases reply with
    | ok a =>
      refine ⟨{ available := false }, [], ?_⟩
      unfold Quota.reconcile
      cases r with
      | none => exact .done _
      | some r =>
        simp only
        split <;> exact .done _
    | error e => simp [settles, raisedBy] at ok
  | release r =>
    cases reply with
    | ok a =>
      refine ⟨{ available := false }, [], ?_⟩
      unfold Quota.release Quota.reconcile
      cases r with
      | none => exact .done _
      | some r =>
        simp only
        split
        · exact .done _
        · exact .done _
    | error e => simp [settles, raisedBy] at ok
  | _ => trivial

theorem settled_once_answering :
    settlements (runOf answering) = 1 ∧ settlements (streamRunOf answering) = 1 := by
  constructor
  · obtain ⟨o, _, run⟩ := Coro.runs_traceWith (generate oneModel estimated { id := "acme" } {}) answering ()
    refine ((settled_once_iff oneModel estimated { id := "acme" } {} _ ⟨_, _, _, rfl⟩
      (quotaRuns_of_ok (by decide +kernel))).1 o run).mpr ?_
    have clean : (held (runOf answering)).all (fun ev => !leaks ev) := by decide +kernel
    intro ev mem
    simpa using List.all_eq_true.mp clean ev mem
  · obtain ⟨o, v, run⟩ := Coro.runs_traceWith (streamImpl oneModel estimated { id := "acme" } {})
      answering {}
    refine ((settled_once_iff oneModel estimated { id := "acme" } {} _ ⟨_, _, _, rfl⟩
      (quotaRuns_of_ok (by decide +kernel))).2 o v run).mpr ⟨?_, by decide +kernel, ?_⟩
    · have clean : (held (streamRunOf answering)).all (fun ev => !escapes ev) := by decide +kernel
      intro ev mem
      simpa using List.all_eq_true.mp clean ev mem
    · rintro ⟨ev, mem, failed⟩
      have fine : (streamRunOf answering).all (fun ev => !reconcileFailed ev) := by decide +kernel
      have := List.all_eq_true.mp fine ev mem
      simp [failed] at this

/-- A tenant without a key: `generate` raises with the reservation still held. -/
theorem keyless_never_settled : ¬ SettlesOnce := by
  intro claim
  obtain ⟨o, _, run⟩ := Coro.runs_traceWith (generate oneModel estimated { id := "acme" } {}) keyless ()
  have once := (claim oneModel estimated { id := "acme" } {} (runOf keyless) ⟨_, _, _, rfl⟩
    (quotaRuns_of_ok (by decide +kernel))).1 o run
  exact absurd once (by decide +kernel)

end AgentStudio.Gateway
