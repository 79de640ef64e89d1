import AgentStudio.Gateway.Service

/-!
# When a reservation is settled exactly once

Every run of `generate` and `_stream_impl` is read off its trace: the calls made
while the reservation is held, and the settling calls after them. Each function
has its own calls whose failure drops the hold.
-/

namespace AgentStudio.Gateway
open Async Quota

abbrev Ev := Event Calls Raised

abbrev Run := Trace Calls Raised

/-- What the environment raised at a call, if it did. -/
def raisedBy (ev : Ev) : Option Raised :=
  match ev.reply with
  | .ok _ => none
  | .error e => some e

/-- A call that settles a reservation. -/
def settles (ev : Ev) : Bool :=
  match ev.op with
  | .reconcile .. | .release _ => true
  | _ => false

/-- How many settling calls a run made. -/
def settlements (t : Run) : Nat := t.countP settles

/-- The calls made before the first settling call. -/
def held (t : Run) : Run := t.takeWhile fun ev => !settles ev

/-- A reservation was obtained; asking for one is the first call of both functions. -/
def Reserved (t : Run) : Prop :=
  ∃ (args : ReserveArgs) (r : Reservation) (rest : Run),
    t = ⟨.reserve args, .ok (some r)⟩ :: rest

/-- The quota service answers as `Quota.reconcile` does: it swallows every
`Exception`, so only a cancellation comes out of a settling call. -/
def QuotaAnswers (t : Run) : Prop :=
  ∀ ev ∈ t, settles ev → ∀ e, raisedBy ev = some e → e.isException = false

/-- The calls of `generate` whose failure leaves the hold behind: those before
the `try` of `_execute_chain`, and a cancellation of those inside it. -/
def leaks (ev : Ev) : Bool :=
  match ev.op, raisedBy ev with
  | .getExact .., some _ | .resolveKey _, some _ | .isAvailable _, some _ => true
  | .getAdapter .., some e | .chat .., some e => !e.isException
  | .recordSuccess _, some e | .recordFailure _, some e => !e.isException
  | _, _ => false

/-! ## Shapes of traces -/

section
variable (drops : Ev → Bool)

/-- Neither a settling call nor one that drops the hold. -/
def Quiet (t : Run) : Prop := ∀ ev ∈ t, settles ev = false ∧ drops ev = false

/-- One settling call, after which nothing settles. -/
def SettledIn (t : Run) : Prop :=
  ∃ t₁ ev t₂, t = t₁ ++ ev :: t₂ ∧ Quiet drops t₁ ∧ settles ev = true ∧ ∀ e ∈ t₂, settles e = false

/-- The last call drops the hold. -/
def DroppedIn (t : Run) : Prop :=
  ∃ t₁ ev, t = t₁ ++ [ev] ∧ Quiet drops t₁ ∧ settles ev = false ∧ drops ev = true

variable {drops} {t t' : Run}

theorem Quiet.nil : Quiet drops [] := by simp [Quiet]

theorem Quiet.append (h : Quiet drops t) (h' : Quiet drops t') : Quiet drops (t ++ t') := by
  intro ev mem
  rcases List.mem_append.mp mem with mem | mem
  · exact h ev mem
  · exact h' ev mem

theorem Quiet.cons {ev : Ev} (settles_ : settles ev = false) (drops_ : drops ev = false)
    (h : Quiet drops t) : Quiet drops (ev :: t) := by
  intro ev' mem
  rcases List.mem_cons.mp mem with rfl | mem
  · exact ⟨settles_, drops_⟩
  · exact h ev' mem

theorem SettledIn.now {ev : Ev} (settles_ : settles ev = true)
    (after : ∀ e ∈ t, settles e = false) : SettledIn drops (ev :: t) :=
  ⟨[], ev, t, rfl, Quiet.nil, settles_, after⟩

theorem SettledIn.prepend (h : Quiet drops t) (h' : SettledIn drops t') :
    SettledIn drops (t ++ t') := by
  obtain ⟨t₁, ev, t₂, rfl, quiet, settles_, after⟩ := h'
  exact ⟨t ++ t₁, ev, t₂, by simp, h.append quiet, settles_, after⟩

theorem SettledIn.append (h : SettledIn drops t) (h' : ∀ e ∈ t', settles e = false) :
    SettledIn drops (t ++ t') := by
  obtain ⟨t₁, ev, t₂, rfl, quiet, settles_, after⟩ := h
  refine ⟨t₁, ev, t₂ ++ t', by simp, quiet, settles_, fun e mem => ?_⟩
  rcases List.mem_append.mp mem with mem | mem
  · exact after e mem
  · exact h' e mem

theorem DroppedIn.prepend (h : Quiet drops t) (h' : DroppedIn drops t') :
    DroppedIn drops (t ++ t') := by
  obtain ⟨t₁, ev, rfl, quiet, settles_, drops_⟩ := h'
  exact ⟨t ++ t₁, ev, by simp, h.append quiet, settles_, drops_⟩

theorem held_of_quiet {ev : Ev} (quiet : Quiet drops t) (settles_ : settles ev = true) (t' : Run) :
    held (t ++ ev :: t') = t := by
  unfold held
  rw [List.takeWhile_append_of_pos fun e mem => by simp [(quiet e mem).1]]
  simp [settles_]

theorem held_eq_self (none_ : ∀ ev ∈ t, settles ev = false) : held t = t :=
  List.takeWhile_eq_self_iff.mpr fun ev mem => by simp [none_ ev mem]

theorem settlements_append : settlements (t ++ t') = settlements t + settlements t' :=
  List.countP_append

theorem settlements_eq_zero (none_ : ∀ ev ∈ t, settles ev = false) : settlements t = 0 :=
  List.countP_eq_zero.mpr fun ev mem => by simp [none_ ev mem]

theorem Quiet.settlements (quiet : Quiet drops t) : settlements t = 0 :=
  settlements_eq_zero fun ev mem => (quiet ev mem).1

theorem SettledIn.settlements (h : SettledIn drops t) : settlements t = 1 := by
  obtain ⟨t₁, ev, t₂, rfl, quiet, settles_, after⟩ := h
  rw [settlements_append, quiet.settlements]
  simpa [Gateway.settlements, settles_] using after

theorem SettledIn.held (h : SettledIn drops t) : ∀ ev ∈ held t, drops ev = false := by
  obtain ⟨t₁, ev, t₂, rfl, quiet, settles_, after⟩ := h
  rw [held_of_quiet quiet settles_]
  exact fun e mem => (quiet e mem).2

theorem DroppedIn.noSettle (h : DroppedIn drops t) : ∀ ev ∈ t, settles ev = false := by
  obtain ⟨t₁, ev, rfl, quiet, settles_, drops_⟩ := h
  intro e mem
  rcases List.mem_append.mp mem with mem | mem
  · exact (quiet e mem).1
  · rw [List.mem_singleton.mp mem]
    exact settles_

theorem DroppedIn.held (h : DroppedIn drops t) : ∃ ev ∈ held t, drops ev = true := by
  rw [held_eq_self h.noSettle]
  obtain ⟨t₁, ev, rfl, quiet, settles_, drops_⟩ := h
  exact ⟨ev, by simp, drops_⟩

/-- A trace of either shape settles once exactly when nothing dropped the hold. -/
theorem settlements_eq_one_iff (h : SettledIn drops t ∨ DroppedIn drops t) :
    settlements t = 1 ↔ ∀ ev ∈ held t, drops ev = false := by
  rcases h with h | h
  · exact iff_of_true h.settlements h.held
  · obtain ⟨ev, mem, drops_⟩ := h.held
    refine iff_of_false ?_ fun none_ => ?_
    · rw [settlements_eq_zero h.noSettle]
      decide
    · rw [none_ ev mem] at drops_
      cases drops_

end

theorem QuotaAnswers.left {t t' : Run} (h : QuotaAnswers (t ++ t')) : QuotaAnswers t :=
  fun ev mem => h ev (List.mem_append_left _ mem)

theorem QuotaAnswers.right {t t' : Run} (h : QuotaAnswers (t ++ t')) : QuotaAnswers t' :=
  fun ev mem => h ev (List.mem_append_right _ mem)

/-! ## Fallback rounds -/

section
variable (all : List Deployment)

/-- The targets to try are known deployments not tried yet. -/
def Fresh (targets seen : List Deployment) : Prop := ∀ d ∈ targets, d ∈ all ∧ d ∉ seen

/-- How many deployments are left to try. -/
def unseen (seen : List Deployment) : Nat := (all.filter (· ∉ seen)).length

variable {all}

theorem unseen_lt {seen : List Deployment} {d : Deployment} (known : d ∈ all) (new : d ∉ seen) :
    unseen all (seen ++ [d]) < unseen all seen := by
  unfold unseen
  have sub : all.filter (· ∉ seen ++ [d]) = (all.filter (· ∉ seen)).filter (· ≠ d) := by
    rw [List.filter_filter]
    congr 1
    funext x
    simp [not_or, and_comm]
  rw [sub]
  refine List.length_filter_lt_length_iff_exists.mpr ⟨d, ?_, by simp⟩
  simp [known, new]

theorem Fresh.next {chain : FallbackChain} (named : chain.allTargets ⊆ all)
    (failureClass : FailureClass) (seen : List Deployment) :
    Fresh all ((chain.targets failureClass).filter (· ∉ seen)) seen := by
  intro d mem
  obtain ⟨mem, new⟩ := List.mem_filter.mp mem
  exact ⟨named (chain.targets_subset failureClass mem), by simpa using new⟩

/-- A loop over the chain has the fuel for every deployment it may come to. -/
theorem chainFuel_enough (first : Deployment) (chain : FallbackChain) (seen : List Deployment) :
    unseen (first :: chain.allTargets) seen < chainFuel chain := by
  have bound : unseen (first :: chain.allTargets) seen ≤ (first :: chain.allTargets).length :=
    List.length_filter_le ..
  simp only [List.length_cons] at bound
  simp only [chainFuel]
  omega

end

/-! ## `generate` -/

/-- Only a cancellation drops the hold; any other failure is raised with the hold
still open. -/
def Guarded {α : Type} (t : Run) (o : Except Raised α) : Prop :=
  match o with
  | .ok _ => Quiet leaks t
  | .error e => if e.isException then Quiet leaks t else DroppedIn leaks t

section
variable {σ α β : Type} {v : σ}

theorem Guarded.prepend {t t' : Run} {o : Except Raised α} (quiet : Quiet leaks t)
    (h : Guarded t' o) : Guarded (t ++ t') o := by
  cases o with
  | ok a => exact quiet.append h
  | error e =>
    unfold Guarded at h ⊢
    simp only at h ⊢
    split at h <;> rename_i ex
    · rw [if_pos ex]
      exact quiet.append h
    · rw [if_neg ex]
      exact h.prepend quiet

theorem guarded_bind {c : Coro Calls Raised σ α} {k : α → Coro Calls Raised σ β}
    (first : c.All v fun t o v' => Guarded t o ∧ v' = v)
    (second : ∀ a, (k a).All v fun t o v' => Guarded t o ∧ v' = v) :
    (c >>= k).All v fun t o v' => Guarded t o ∧ v' = v := by
  refine first.bind (fun t a v' h => ?_) fun t e v' h => h
  obtain ⟨quiet, rfl⟩ := h
  exact (second a).mono fun t' o v'' h => ⟨h.1.prepend quiet, h.2⟩

/-- A call whose cancellation drops the hold. -/
theorem guarded_call (op : Op) (inside : ∀ r, settles ⟨op, r⟩ = false)
    (ok : ∀ a, leaks ⟨op, .ok a⟩ = false) (error : ∀ e, leaks ⟨op, .error e⟩ = !e.isException) :
    (Coro.call (I := Calls) op : Coro Calls Raised σ _).All v fun t o v' =>
      Guarded t o ∧ v' = v := by
  intro r
  refine ⟨?_, rfl⟩
  cases r with
  | ok a => exact Quiet.nil.cons (inside _) (ok a)
  | error e =>
    unfold Guarded
    simp only
    split <;> rename_i ex
    · exact Quiet.nil.cons (inside _) (by simp [error, ex])
    · exact ⟨[], _, rfl, Quiet.nil, inside _, by simp [error, ex]⟩

theorem snapshot_spec (ds : List Deployment) :
    (snapshot ds : Coro Calls Raised σ _).All v fun t o _ =>
      match o with
      | .ok _ => Quiet leaks t
      | .error _ => DroppedIn leaks t := by
  induction ds with
  | nil => exact Quiet.nil
  | cons d ds ih =>
    rw [snapshot, Coro.all_call_bind]
    constructor
    · intro up
      have quiet : Quiet leaks [⟨.isAvailable d, .ok up⟩] := Quiet.nil.cons rfl rfl
      refine ih.bind (fun t rest _ h => ?_) (fun t e _ h => h.prepend quiet)
      simpa [Coro.all_pure] using quiet.append h
    · intro e
      exact ⟨[], _, rfl, Quiet.nil, rfl, rfl⟩

/-- Suppressing adds no call and changes no variable, and no `Exception` comes out. -/
theorem suppress_spec {P : Run → Prop} {c : Coro Calls Raised σ Unit}
    (h : c.All v fun t _ v' => P t ∧ v' = v) :
    (suppress c).All v fun t o v' =>
      (P t ∧ v' = v) ∧ ∀ e, o = .error e → e.isException = false := by
  refine Coro.All.tryCatch h (fun t a v' h => ⟨h, fun e eq => by cases eq⟩) fun t e v' h => ?_
  split
  next => simpa [Coro.all_pure] using h
  next ex => simpa [Coro.all_throw, ex] using h

end

section
variable (gw : Service) (request : Request) (tenant : TenantConfig) (cfg : Cfg) {σ : Type} {v : σ}

theorem decide_spec :
    (decide gw request cfg : Coro Calls Raised σ _).All v fun t o _ =>
      match o with
      | .ok _ => Quiet leaks t
      | .error _ => DroppedIn leaks t :=
  (snapshot_spec _).bind (fun t _ _ h => by simpa [Coro.all_pure] using h) fun _ _ _ h => h

theorem attempt_spec (apiKey : String) (d : Deployment) :
    (attempt request tenant apiKey d : Coro Calls Raised σ _).All v fun t o v' =>
      Guarded t o ∧ v' = v := by
  refine Coro.All.tryCatch
    (guarded_bind (guarded_call _ (fun _ => rfl) (fun _ => rfl) fun _ => rfl) fun _ =>
      guarded_bind (guarded_call _ (fun _ => rfl) (fun _ => rfl) fun _ => rfl) fun _ =>
        ⟨Quiet.nil, rfl⟩)
    (fun t a v' h => h) fun t e v' h => ?_
  obtain ⟨guarded, rfl⟩ := h
  simp only [Guarded] at guarded
  split
  next => simpa [Coro.all_throw, Guarded] using guarded
  next =>
    split
    next ex =>
      rw [if_pos ex] at guarded
      simpa [Coro.all_pure, Guarded] using guarded
    next => simpa [Coro.all_throw, Guarded] using guarded

/-- The bookkeeping after a success settles nothing and raises no `Exception`. -/
theorem afterSuccess_spec (result : Result) :
    (afterSuccess gw request cfg result : Coro Calls Raised σ _).All v fun t o v' =>
      ((∀ ev ∈ t, settles ev = false) ∧ v' = v) ∧ ∀ e, o = .error e → e.isException = false := by
  have call : ∀ op : Op, (∀ r, settles ⟨op, r⟩ = false) →
      (Coro.call (I := Calls) op : Coro Calls Raised σ _).All v fun t _ v' =>
        (∀ ev ∈ t, settles ev = false) ∧ v' = v :=
    fun op inside r => ⟨by simpa using inside r, rfl⟩
  unfold afterSuccess
  refine (suppress_spec (call _ fun _ => rfl)).bind (fun t _ v' h => ?_)
    fun t e v' h => ⟨h.1, by simpa using h.2⟩
  obtain ⟨⟨none_, rfl⟩, _⟩ := h
  split
  · refine (suppress_spec (call _ fun _ => rfl)).mono fun t' o v'' h =>
      ⟨⟨fun ev mem => ?_, h.1.2⟩, h.2⟩
    rcases List.mem_append.mp mem with mem | mem
    · exact none_ ev mem
    · exact h.1.1 ev mem
  · simpa [Coro.all_pure] using none_

/-- How one round of the chain ends. -/
def RoundEnd (t : Run) (o : Except Raised (Option (Option Result))) : Prop :=
  match o with
  | .ok none | .ok (some none) => Quiet leaks t
  | .ok (some (some _)) => SettledIn leaks t
  | .error e => if e.isException then Quiet leaks t else SettledIn leaks t ∨ DroppedIn leaks t

theorem RoundEnd.prepend {t t' : Run} {o : Except Raised (Option (Option Result))}
    (quiet : Quiet leaks t) (h : RoundEnd t' o) : RoundEnd (t ++ t') o := by
  match o with
  | .ok none | .ok (some none) => exact quiet.append h
  | .ok (some (some _)) => exact SettledIn.prepend quiet h
  | .error e =>
    simp only [RoundEnd] at h ⊢
    split at h <;> rename_i ex
    · rw [if_pos ex]
      exact quiet.append h
    · rw [if_neg ex]
      exact h.imp (·.prepend quiet) (·.prepend quiet)

theorem RoundEnd.of_guarded {t : Run} {e : Raised}
    (h : Guarded t (.error e : Except Raised Unit)) : RoundEnd t (.error e) := by
  simp only [Guarded, RoundEnd] at h ⊢
  split at h <;> rename_i ex
  · rwa [if_pos ex]
  · rw [if_neg ex]
    exact .inr h

theorem guarded_recordSuccess (d : Deployment) {e : Raised} :
    Guarded [⟨.recordSuccess d, .error e⟩] (.error e : Except Raised Unit) :=
  (guarded_call (σ := Unit) (v := ()) (.recordSuccess d) (fun _ => rfl) (fun _ => rfl)
    fun _ => rfl) (.error e) |>.1

/-- After a successful attempt the round settles, unless it fails before that. -/
theorem succeed_spec (d : Deployment) (reservation : Option Reservation) (result : Result) :
    (do
      Coro.call (I := Calls) (.recordSuccess d)
      Coro.call (I := Calls) (.reconcile reservation (resultUsd gw result))
      afterSuccess gw request cfg result
      pure (some (some result)) : Coro Calls Raised σ _).All v fun t o _ =>
        (QuotaAnswers t → RoundEnd t o) ∧ o ≠ .ok none := by
  refine (Coro.all_call_bind _ _).mpr ⟨fun _ => ?_, fun e => ⟨fun _ => ?_, by simp⟩⟩
  · have quiet : Quiet leaks [⟨.recordSuccess d, .ok ()⟩] := Quiet.nil.cons rfl rfl
    refine (Coro.all_call_bind _ _).mpr ⟨fun _ => ?_, fun e => ⟨fun answers => ?_, by simp⟩⟩
    · refine (afterSuccess_spec gw request cfg result).bind
        (fun t' _ v' h => ⟨fun _ => ?_, by simp⟩) fun t' e v' h => ⟨fun _ => ?_, by simp⟩
      · rw [List.append_nil]
        exact SettledIn.prepend quiet (.now rfl h.1.1)
      · simp only [RoundEnd, h.2 e rfl]
        exact .inl (SettledIn.prepend quiet (.now rfl h.1.1))
    · have base : e.isException = false :=
        answers _ (List.mem_cons_of_mem _ (List.mem_singleton_self _)) rfl e rfl
      simp only [RoundEnd, base]
      exact .inl (SettledIn.prepend quiet (.now rfl (by simp)))
  · exact .of_guarded (guarded_recordSuccess d)

theorem chainRound_spec {all : List Deployment} {chain : FallbackChain}
    (named : chain.allTargets ⊆ all) (apiKey : String) (reservation : Option Reservation)
    {v : ChainVars} (fresh : Fresh all v.targets v.seen) :
    (chainRound gw request tenant cfg chain apiKey reservation).All v fun t o v' =>
      (QuotaAnswers t → RoundEnd t o) ∧
        (o = .ok none → Fresh all v'.targets v'.seen ∧ unseen all v'.seen < unseen all v.seen) := by
  unfold chainRound
  rw [Coro.all_get_bind]
  split
  next => exact ⟨fun _ => Quiet.nil, fun h => by cases h⟩
  next d rest targets_eq =>
    obtain ⟨known, new⟩ := fresh d (by simp [targets_eq])
    rw [Coro.all_modify_bind, Coro.all_get_bind, if_neg new, Coro.all_modify_bind]
    refine (attempt_spec request tenant apiKey d).bind (fun t outcome v' h => ?_)
      fun t e v' h => ⟨fun _ => .of_guarded h.1, fun h => by cases h⟩
    obtain ⟨quiet, rfl⟩ := h
    cases outcome with
    | ok result =>
      refine (succeed_spec gw request cfg d reservation result).mono fun t' o v'' h =>
        ⟨fun answers => (h.1 answers.right).prepend quiet, fun eq => absurd eq h.2⟩
    | error failure =>
      rw [Coro.all_modify_bind]
      refine (Coro.all_call_bind _ _).mpr ⟨fun _ => ?_, fun e => ?_⟩
      · refine ⟨fun _ => RoundEnd.prepend quiet (Quiet.nil.cons rfl rfl), fun _ => ?_⟩
        exact ⟨Fresh.next named _ _, unseen_lt known new⟩
      · refine ⟨fun _ => RoundEnd.prepend quiet (.of_guarded ?_), fun h => by cases h⟩
        exact (guarded_call (σ := Unit) (v := ()) (.recordFailure d) (fun _ => rfl) (fun _ => rfl)
          fun _ => rfl) (.error e) |>.1

/-- A whole call ends settled or with the hold dropped. -/
def CallEnd (t : Run) : Prop := SettledIn leaks t ∨ DroppedIn leaks t

theorem CallEnd.prepend {t t' : Run} (quiet : Quiet leaks t) (h : CallEnd t') : CallEnd (t ++ t') :=
  h.imp (·.prepend quiet) (·.prepend quiet)

/-- The final `release` settles whatever it answers. -/
theorem release_spec (reservation : Option Reservation) :
    (Coro.call (I := Calls) (.release reservation) : Coro Calls Raised σ _).All v fun t _ _ =>
      SettledIn leaks t :=
  fun _ => .now rfl (by simp)

theorem iterate_spec (chain : FallbackChain) (decision : Deployment) (apiKey : String)
    (reservation : Option Reservation) :
    (Coro.iterate (chainRound gw request tenant cfg chain apiKey reservation)
      (chainFuel chain)).All { targets := [decision] } fun t o _ =>
        (QuotaAnswers t → RoundEnd t o) ∧ o ≠ .ok none := by
  have named : chain.allTargets ⊆ decision :: chain.allTargets := List.subset_cons_self ..
  have start : Fresh (decision :: chain.allTargets) [decision] [] := by simp [Fresh]
  refine Coro.All.and ?_ ?_
  · refine Coro.all_iterate _
      (fun t v => (QuotaAnswers t → Quiet leaks t) ∧
        Fresh (decision :: chain.allTargets) v.targets v.seen)
      (Φ := fun t o _ => QuotaAnswers t → RoundEnd t o)
      (fun t v inv => ?_) (fun t v inv => inv.1) _ (t := []) ⟨fun _ => Quiet.nil, start⟩
    refine (chainRound_spec gw request tenant cfg named apiKey reservation inv.2).mono
      fun t' o v' h => ?_
    match o with
    | .ok none =>
      exact ⟨fun answers => (inv.1 answers.left).append (h.1 answers.right), (h.2 rfl).1⟩
    | .ok (some found) => exact fun answers => (h.1 answers.right).prepend (inv.1 answers.left)
    | .error e => exact fun answers => (h.1 answers.right).prepend (inv.1 answers.left)
  · refine Coro.iterate_total _
      (fun v => Fresh (decision :: chain.allTargets) v.targets v.seen)
      (fun v => unseen (decision :: chain.allTargets) v.seen)
      (fun v fresh => (chainRound_spec gw request tenant cfg named apiKey reservation fresh).mono
        fun _ _ _ h => h.2) _ start (chainFuel_enough decision chain [])

/-- What the `try` block of the chain leaves: settled, dropped, or open with
nothing found. -/
def ChainEnd (t : Run) : Except Raised (Option Result) → Prop
  | .ok none => Quiet leaks t
  | _ => CallEnd t

theorem runChain_spec (chain : FallbackChain) (decision : Deployment) (apiKey : String)
    (reservation : Option Reservation) :
    (runChain gw request tenant cfg chain apiKey reservation).All { targets := [decision] }
      fun t _ _ => QuotaAnswers t → CallEnd t := by
  have loop := iterate_spec gw request tenant cfg chain decision apiKey reservation
  unfold runChain
  refine Coro.All.bind (Ψ := fun t o _ => QuotaAnswers t → ChainEnd t o) ?_
    (fun t found v h => ?_) fun t e v h => h
  · refine Coro.All.tryCatch
      (Ψ := fun t o _ => QuotaAnswers t → RoundEnd t (o.map some)) ?_ ?_ ?_
    · refine loop.bind (fun t found v h => ?_) fun t e v h => h.1
      cases found with
      | none => exact absurd rfl h.2
      | some found => simpa [Coro.all_pure, Except.map] using h.1
    · intro t found v h answers
      cases found with
      | none => exact h answers
      | some result => exact .inl (h answers)
    · intro t e v h
      split
      next ex =>
        refine (release_spec reservation).bind (fun t' _ v' settled => fun answers => ?_)
          fun t' e' v' settled answers => ?_
        · have quiet := h answers.left
          simp only [Except.map, RoundEnd, ex, if_true] at quiet
          rw [List.append_nil]
          exact .inl (settled.prepend quiet)
        · have quiet := h answers.left
          simp only [Except.map, RoundEnd, ex, if_true] at quiet
          exact .inl (settled.prepend quiet)
      next ex =>
        intro answers
        rw [List.append_nil] at answers ⊢
        have ended := h answers
        simp only [Except.map, RoundEnd] at ended
        rwa [if_neg ex] at ended
  · cases found with
    | some result => simpa [Coro.all_pure, ChainEnd] using h
    | none =>
      refine (release_spec reservation).bind (fun t' _ v' settled answers => ?_)
        fun t' e v' settled answers => .inl (settled.prepend (h answers.left))
      rw [List.append_nil]
      exact .inl (settled.prepend (h answers.left))

theorem lookupExact_spec :
    (lookupExact request tenant cfg).All () fun t o _ =>
      match o with
      | .ok _ => Quiet leaks t
      | .error _ => DroppedIn leaks t := by
  unfold lookupExact
  split
  · intro r
    cases r with
    | ok entry => exact Quiet.nil.cons rfl rfl
    | error e => exact ⟨[], _, rfl, Quiet.nil, rfl, rfl⟩
  · exact Quiet.nil

/-- Every run of `generate` that got past its `reserve` settles or drops. -/
theorem generate_spec :
    (generate gw request tenant cfg).All () fun t _ _ =>
      Reserved t → QuotaAnswers t → CallEnd t := by
  have refused : ∀ e, ¬ Reserved [⟨.reserve (reserveArgs gw request tenant cfg), .error e⟩] := by
    rintro e ⟨args, r, rest, eq⟩
    cases eq
  unfold generate
  refine (Coro.all_call_bind _ _).mpr ⟨fun reservation => ?_, fun e got => absurd got (refused e)⟩
  refine Coro.All.mono (Φ := fun t _ _ => QuotaAnswers t → CallEnd t) ?_
    fun t o _ h _ answers => CallEnd.prepend (Quiet.nil.cons rfl rfl) (h (answers.right (t := [_])))
  refine (lookupExact_spec request tenant cfg).bind (fun t cached v quiet => ?_) fun t e v dropped _ => .inr dropped
  cases cached with
  | some entry =>
    refine (release_spec reservation).bind (fun t' _ v' settled _ => ?_)
      fun t' e v' settled _ => .inl (settled.prepend quiet)
    rw [List.append_nil]
    exact .inl (settled.prepend quiet)
  | none =>
    refine Coro.All.mono (Φ := fun t _ _ => QuotaAnswers t → CallEnd t) ?_
      fun t' o _ h answers => (h answers.right).prepend quiet
    refine (Coro.all_call_bind _ _).mpr ⟨fun apiKey => ?_, fun e _ => ?_⟩
    · refine Coro.All.mono (Φ := fun t _ _ => QuotaAnswers t → CallEnd t) ?_
        fun t' o _ h answers => CallEnd.prepend (Quiet.nil.cons rfl rfl)
          (h (answers.right (t := [_])))
      unfold executeChain
      refine (decide_spec gw request cfg).bind (fun t' decision v' quiet' => ?_)
        fun t' e v' dropped _ => .inr dropped
      rw [Coro.all_scope]
      exact (runChain_spec gw request tenant cfg _ decision apiKey reservation).mono
        fun t'' o _ h answers => (h answers.right).prepend quiet'
    · exact .inr ⟨[], _, rfl, Quiet.nil, rfl, rfl⟩

end

end AgentStudio.Gateway
