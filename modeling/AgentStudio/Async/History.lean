import AgentStudio.Async.Turns
import AgentStudio.Async.Logged

/-!
# The history of a run

The answered calls of a run in the order in which they were answered, each with the number of
its task. What a task has called is read off the history, and so is what the store holds: an
invariant ties the two, and is kept by every answer that the task's own calls call for.

* `Recorded`: a run with its history.
* `Recorded.keeps`: the rule for an invariant of history and store.
* `Recorded.before`: the run up to one answer.
* `Recorded.since`: the rule for what lasts from one answer on.
* `Recorded.found`: what is found was put there, and not taken since.
-/

namespace Async

/-- An answered call of the task with this number. -/
structure Stamp (κ : Type) (I : Interface) (ε : Type) where
  number : ℕ
  call : κ
  op : I.Op
  reply : Except ε (I.Ans op)

abbrev History (κ : Type) (I : Interface) (ε : Type) := List (Stamp κ I ε)

/-- A cut of what was appended to is at its end, or earlier. -/
theorem snoc_cut {α : Type} {l pre post : List α} {x y : α} (cut : l ++ [y] = pre ++ x :: post) :
    (pre = l ∧ x = y ∧ post = []) ∨ ∃ rest, l = pre ++ x :: rest ∧ post = rest ++ [y] := by
  rcases List.eq_nil_or_concat post with rfl | ⟨rest, z, rfl⟩
  · obtain ⟨same, is⟩ := List.append_inj' cut rfl
    exact .inl ⟨same.symm, (List.singleton_inj.mp is).symm, rfl⟩
  · rw [List.concat_eq_append, ← List.cons_append, ← List.append_assoc] at cut
    obtain ⟨same, is⟩ := List.append_inj' cut rfl
    exact .inr ⟨rest, same, by rw [List.concat_eq_append, List.singleton_inj.mp is]⟩

section
variable {κ : Type} {I : Interface} {ε : Type}

def Stamp.event (e : Stamp κ I ε) : Event I ε := ⟨e.op, e.reply⟩

/-- What the task with this number has called. -/
def History.own (h : History κ I ε) (i : ℕ) : Trace I ε :=
  (h.filter fun e => e.number = i).map Stamp.event

theorem own_snoc_self (h : History κ I ε) (e : Stamp κ I ε) :
    History.own (h ++ [e]) e.number = h.own e.number ++ [e.event] := by
  simp [History.own]

theorem own_snoc_other {h : History κ I ε} {e : Stamp κ I ε} {i : ℕ} (other : e.number ≠ i) :
    History.own (h ++ [e]) i = h.own i := by
  simp [History.own, other]

theorem mem_own {h : History κ I ε} {i : ℕ} {ev : Event I ε} :
    ev ∈ h.own i ↔ ∃ e ∈ h, e.number = i ∧ e.event = ev := by
  simp [History.own, and_assoc]

/-! ### Places in a history -/

/-- The history is cut at a place. -/
theorem cut_at {h : History κ I ε} {i : ℕ} {e : Stamp κ I ε} (there : h[i]? = some e) :
    h = h.take i ++ e :: h.drop (i + 1) := by
  obtain ⟨bound, rfl⟩ := List.getElem?_eq_some_iff.mp there
  rw [List.cons_getElem_drop_succ, List.take_append_drop]

theorem at_cut (pre post : History κ I ε) (e : Stamp κ I ε) :
    (pre ++ e :: post)[pre.length]? = some e := by
  simp

/-- What a task had called by one place, it called at an earlier place. -/
theorem own_at {h : History κ I ε} {i n : ℕ} {ev : Event I ε} (mem : ev ∈ History.own (h.take i) n) :
    ∃ j e, j < i ∧ h[j]? = some e ∧ e.number = n ∧ e.event = ev := by
  obtain ⟨e, mem, number, event⟩ := mem_own.mp mem
  obtain ⟨j, there⟩ := List.getElem?_of_mem mem
  rw [List.getElem?_take, Option.ite_none_right_eq_some] at there
  exact ⟨j, e, there.1, there.2, number, event⟩

theorem mem_own_at {h : History κ I ε} {i j : ℕ} {e : Stamp κ I ε} (there : h[j]? = some e)
    (before : j < i) : e.event ∈ History.own (h.take i) e.number := by
  refine mem_own.mpr ⟨e, ?_, rfl, rfl⟩
  rw [← List.getElem?_take_of_lt before] at there
  exact List.mem_of_getElem? there

/-- What was appended changes no place that was there. -/
theorem take_append_at {h : History κ I ε} {i : ℕ} {e : Stamp κ I ε} (there : h[i]? = some e)
    (more : History κ I ε) : (h ++ more).take i = h.take i ∧ (h ++ more)[i]? = some e := by
  have bound := (List.getElem?_eq_some_iff.mp there).1
  exact ⟨List.take_append_of_le_length bound.le, by rwa [List.getElem?_append_left bound]⟩

end

namespace Pool

variable {κ : Type} {I : Interface} {ε ω σ : Type}

/-- Any number of turns, with their history. -/
inductive Recorded (replies : Replies κ I ε σ) (env : σ → σ → Prop) (body : κ → Tree I ε ω)
    (init : Pool κ I ε ω σ) : History κ I ε → Pool κ I ε ω σ → Prop
  | init : Recorded replies env body init [] init
  | env {h : History κ I ε} {p : Pool κ I ε ω σ} (run : Recorded replies env body init h p)
      (store : σ) (moved : env p.store store) :
      Recorded replies env body init h { p with store := store }
  | start {h : History κ I ε} {p : Pool κ I ε ω σ} (run : Recorded replies env body init h p)
      (call : κ) :
      Recorded replies env body init h { p with tasks := p.tasks ++ [⟨call, [], body call⟩] }
  | answer {h : History κ I ε} {p : Pool κ I ε ω σ} (run : Recorded replies env body init h p)
      (i : ℕ) (call : κ) (trace : Trace I ε) (op : I.Op) (k : Except ε (I.Ans op) → Tree I ε ω)
      (here : p.tasks[i]? = some ⟨call, trace, .await op k⟩) (r : Except ε (I.Ans op)) (store : σ)
      (reply : replies i call op p.store r store) :
      Recorded replies env body init (h ++ [⟨i, call, op, r⟩]) (p.resume i call trace op k r store)

variable {replies : Replies κ I ε σ} {env : σ → σ → Prop} {body : κ → Tree I ε ω}
  {init p q : Pool κ I ε ω σ} {h : History κ I ε}

/-- Every run has a history. -/
theorem Turns.recorded (run : Turns replies env body p q) :
    ∃ h, Recorded replies env body p h q := by
  induction run with
  | refl => exact ⟨[], .init⟩
  | tail _ turn ih =>
    obtain ⟨h, run⟩ := ih
    cases turn with
    | env store moved => exact ⟨h, run.env store moved⟩
    | start call => exact ⟨h, run.start call⟩
    | answer i call trace op k here r store reply =>
      exact ⟨_, run.answer i call trace op k here r store reply⟩

/-- A task is what remains of its body after its calls, and these stand under its number. -/
structure Comes (body : κ → Tree I ε ω) (h : History κ I ε) (i : ℕ) (task : Task κ I ε ω) :
    Prop where
  after : (body task.call).After task.trace task.rest
  own : task.trace = h.own i
  call : ∀ e ∈ h, e.number = i → e.call = task.call

/-- No number that has no task stands in the history. -/
def Numbered (h : History κ I ε) (p : Pool κ I ε ω σ) : Prop := ∀ e ∈ h, e.number < p.tasks.length

theorem Recorded.tasks (run : Recorded replies env body init h q) (none_ : init.tasks = []) :
    Numbered h q ∧ ∀ i task, q.tasks[i]? = some task → Comes body h i task := by
  induction run with
  | init => exact ⟨fun e mem => absurd mem List.not_mem_nil, by simp [none_]⟩
  | env _ store moved ih => exact ih
  | start run call ih =>
    rename_i h' p'
    refine ⟨fun e mem => ?_, fun i task here => ?_⟩
    · have bound := ih.1 e mem
      simp only [List.length_append, List.length_singleton]
      omega
    · rcases get_snoc_cases here with here | ⟨rfl, rfl⟩
      · exact ih.2 i task here
      · -- the number is new, so the history has nothing of it
        have absent : ∀ e ∈ h', e.number ≠ p'.tasks.length := fun e mem => (ih.1 e mem).ne
        refine ⟨.start, ?_, fun e mem is => absurd is (absent e mem)⟩
        symm
        simp only [History.own, List.map_eq_nil_iff, List.filter_eq_nil_iff, decide_eq_true_eq]
        exact absent
  | answer run i call trace op k here r store reply ih =>
    obtain ⟨numbered, comes⟩ := ih
    have bound := (List.getElem?_eq_some_iff.mp here).1
    refine ⟨fun e mem => ?_, fun j task there => ?_⟩
    · simp only [resume, List.length_set]
      rcases List.mem_append.mp mem with mem | mem
      · exact numbered e mem
      · rw [List.mem_singleton.mp mem]
        exact bound
    · by_cases mine : j = i
      · rw [mine, resume_self here] at there
        cases there
        obtain ⟨after, own, calls⟩ := comes i _ here
        refine ⟨.call after r, ?_, fun e mem is => ?_⟩
        · subst mine
          exact (congrArg (· ++ [_]) own).trans (own_snoc_self _ ⟨j, call, op, r⟩).symm
        · rcases List.mem_append.mp mem with mem | mem
          · exact calls e mem (is.trans mine)
          · rw [List.mem_singleton.mp mem]
      · rw [resume_other mine] at there
        obtain ⟨after, own, calls⟩ := comes j _ there
        refine ⟨after, own.trans (own_snoc_other (Ne.symm mine)).symm, fun e mem is => ?_⟩
        rcases List.mem_append.mp mem with mem | mem
        · exact calls e mem is
        · rw [List.mem_singleton.mp mem] at is
          exact absurd is.symm mine

/-- Every call is judged by what its task called before: `P` is what holds of each call in
every run of a body. -/
def Judges (body : κ → Tree I ε ω) (P : κ → Trace I ε → I.Op → Prop) : Prop :=
  ∀ call t w, (body call).Runs t w → Following (P call) t

/-- The rule for an invariant of history and store. -/
theorem Recorded.keeps [Nonempty ε] {P : κ → Trace I ε → I.Op → Prop}
    {J : History κ I ε → σ → Prop} (judges : Judges body P) (none_ : init.tasks = [])
    (base : J [] init.store) (moves : ∀ h s s', env s s' → J h s → J h s')
    (step : ∀ h (e : Stamp κ I ε) s s', P e.call (h.own e.number) e.op →
      replies e.number e.call e.op s e.reply s' → J h s → J (h ++ [e]) s')
    (run : Recorded replies env body init h q) : J h q.store := by
  induction run with
  | init => exact base
  | env _ store moved ih => exact moves _ _ _ moved ih
  | start _ call ih => exact ih
  | answer run i call trace op k here r store reply ih =>
    obtain ⟨after, own, -⟩ := (run.tasks none_).2 i _ here
    have judged : P call trace op := after.judged (judges call)
    exact step _ ⟨i, call, op, r⟩ _ _ (own ▸ judged) reply ih

/-- The run up to one answer. -/
theorem Recorded.before (run : Recorded replies env body init h q) {pre post : History κ I ε}
    {e : Stamp κ I ε} (cut : h = pre ++ e :: post) :
    ∃ p s', Recorded replies env body init pre p ∧
      replies e.number e.call e.op p.store e.reply s' := by
  induction run generalizing post with
  | init => simp at cut
  | env _ store moved ih => exact ih cut
  | start _ call ih => exact ih cut
  | answer run i call trace op k here r store reply ih =>
    rcases snoc_cut cut with ⟨rfl, rfl, -⟩ | ⟨rest, earlier, -⟩
    · exact ⟨_, store, run, reply⟩
    · exact ih earlier

/-- What stands in the history is judged by what its task called before. -/
theorem Recorded.judged [Nonempty ε] {P : κ → Trace I ε → I.Op → Prop} (judges : Judges body P)
    (none_ : init.tasks = []) (run : Recorded replies env body init h q) {pre post : History κ I ε}
    {e : Stamp κ I ε} (cut : h = pre ++ e :: post) : P e.call (pre.own e.number) e.op := by
  have each : ∀ pre e post, h = pre ++ e :: post → P e.call (History.own pre e.number) e.op := by
    refine run.keeps (J := fun h _ => ∀ pre e post, h = pre ++ e :: post →
      P e.call (History.own pre e.number) e.op) judges none_ ?_ ?_ ?_
    · intro pre e post cut
      simp at cut
    · exact fun _ _ _ _ holds => holds
    · intro h e _ _ judged _ ih pre e' post cut
      rcases snoc_cut cut with ⟨rfl, rfl, -⟩ | ⟨rest, earlier, -⟩
      · exact judged
      · exact ih pre e' rest earlier
  exact each pre e post cut

/-- What one answer brings about lasts while no later one undoes it, and each later one finds it
so. -/
theorem Recorded.since {starts undoes finds : Stamp κ I ε → Prop} {K : σ → Prop}
    (moves : ∀ s s', env s s' → K s → K s')
    (begins : ∀ h e p p', Recorded replies env body init h p →
      Recorded replies env body init (h ++ [e]) p' →
        replies e.number e.call e.op p.store e.reply p'.store → starts e → K p'.store)
    (step : ∀ (e : Stamp κ I ε) s s', replies e.number e.call e.op s e.reply s' → ¬ undoes e →
      K s → K s' ∧ finds e)
    (run : Recorded replies env body init h q) {pre post : History κ I ε} {e : Stamp κ I ε}
    (cut : h = pre ++ e :: post) (started : starts e) (lasting : ∀ x ∈ post, ¬ undoes x) :
    K q.store ∧ ∀ x ∈ post, finds x := by
  induction run generalizing post with
  | init => simp at cut
  | env _ store moved ih =>
    obtain ⟨holds, found⟩ := ih cut lasting
    exact ⟨moves _ _ moved holds, found⟩
  | start _ call ih => exact ih cut lasting
  | answer run i call trace op k here r store reply ih =>
    rcases snoc_cut cut with ⟨rfl, rfl, rfl⟩ | ⟨rest, earlier, rfl⟩
    · refine ⟨?_, fun x mem => absurd mem List.not_mem_nil⟩
      exact begins _ _ _ _ run (run.answer i call trace op k here r store reply) reply started
    · obtain ⟨holds, found⟩ := ih earlier fun x mem => lasting x (List.mem_append_left _ mem)
      have kept : ¬ undoes ⟨i, call, op, r⟩ := lasting _ (List.mem_append_right _ (List.mem_singleton_self _))
      obtain ⟨holds', last⟩ := step ⟨i, call, op, r⟩ _ _ reply kept holds
      refine ⟨holds', fun x mem => ?_⟩
      rcases List.mem_append.mp mem with mem | mem
      · exact found x mem
      · rw [List.mem_singleton.mp mem]
        exact last

/-- What is found was put there, and not taken since. -/
theorem Recorded.found {ν : Type} (look : σ → Option ν) (puts : Stamp κ I ε → ν → Prop)
    (takes : Stamp κ I ε → Prop) (nothing : look init.store = none)
    (moves : ∀ s s' v, env s s' → look s' = some v → look s = some v)
    (step : ∀ (e : Stamp κ I ε) s s' v, replies e.number e.call e.op s e.reply s' →
      look s' = some v → puts e v ∨ ¬ takes e ∧ look s = some v)
    (run : Recorded replies env body init h q) {v : ν} (there : look q.store = some v) :
    ∃ (i : ℕ) (e : Stamp κ I ε), h[i]? = some e ∧ puts e v ∧
      ∀ (j : ℕ) (e' : Stamp κ I ε), i < j → h[j]? = some e' → ¬ takes e' := by
  induction run with
  | init => simp [nothing] at there
  | env _ store moved ih => exact ih (moves _ _ _ moved there)
  | start _ call ih => exact ih there
  | answer run i call trace op k here r store reply ih =>
    rcases step ⟨i, call, op, r⟩ _ _ _ reply there with put | ⟨kept, there⟩
    · refine ⟨_, _, at_cut _ [] _, put, fun j e' later there => ?_⟩
      have bound := (List.getElem?_eq_some_iff.mp there).1
      simp only [List.length_append, List.length_singleton] at bound
      omega
    · obtain ⟨i, e, put_, puts, since⟩ := ih there
      refine ⟨i, e, (take_append_at put_ _).2, puts, fun j e' later there => ?_⟩
      rcases get_snoc_cases there with there | ⟨-, rfl⟩
      · exact since j e' later there
      · exact kept

/-! ### Runs in which each call gets one answer -/

/-- What such a run writes down. -/
def noted (exec : ℕ → κ → (op : I.Op) → σ → Except ε (I.Ans op) × σ) (p : Pool κ I ε ω σ) :
    List ℕ → History κ I ε
  | [] => []
  | i :: schedule =>
    (match p.tasks[i]? with
      | some ⟨call, _, .await op _⟩ => [⟨i, call, op, (exec i call op p.store).1⟩]
      | _ => []) ++ noted exec (serve exec p i) schedule

/-- A run goes on with calls that are started one after the other. -/
theorem recorded_starts (run : Recorded replies env body init h p) (calls : List κ) :
    Recorded replies env body init h
      ⟨p.store, p.tasks ++ calls.map fun call => ⟨call, [], body call⟩⟩ := by
  induction calls generalizing p with
  | nil => simpa using run
  | cons call calls ih => simpa using ih (run.start call)

theorem recorded_checked {exec : ℕ → κ → (op : I.Op) → σ → Except ε (I.Ans op) × σ}
    {check : ℕ → κ → I.Op → σ → Bool}
    (allowed : ∀ i call op s, check i call op s = true →
      replies i call op s (exec i call op s).1 (exec i call op s).2)
    (run : Recorded replies env body init h p) (schedule : List ℕ)
    (checked : Checked exec check p schedule = true) :
    Recorded replies env body init (h ++ noted exec p schedule) (schedule.foldl (serve exec) p) := by
  induction schedule generalizing h p with
  | nil => simpa [noted] using run
  | cons i schedule ih =>
    rw [Checked, Bool.and_eq_true] at checked
    obtain ⟨first, rest⟩ := checked
    rw [noted, ← List.append_assoc]
    refine ih ?_ rest
    rcases here : p.tasks[i]? with _ | ⟨call, trace, w | ⟨op, k⟩⟩
    · simpa [serve, here] using run
    · simpa [serve, here] using run
    · rw [here] at first
      have turn := run.answer i call trace op k here _ _ (allowed i call op _ first)
      simpa [serve, here] using turn

end Pool

end Async
