import AgentStudio.Orchestration.Walk

/-!
# The visits of a turn

However a turn ends, each of its visits is a run of the visited node. The evidence
that `process_message` stores at the end comes after the last one.
-/

namespace AgentStudio.Orchestration
open Async Gateway

/-! ## Calls after the graph -/

/-- Calls that start no node belong to the last visit, if there is one. -/
theorem visits_append_late {q : Run} (quiet : ∀ ev ∈ q, ev.op.isDispatch = false) (t : Run) :
    ∀ v ∈ visits (t ++ q), ∃ v' ∈ visits t, v.node = v'.node ∧ v.state = v'.state ∧
      (v.calls = v'.calls ∨ v.calls = v'.calls ++ q) := by
  induction t with
  | nil =>
    intro v mem
    have none_ := visits_append_quiet quiet []
    rw [List.append_nil] at none_
    rw [List.nil_append, none_] at mem
    cases mem
  | cons ev t ih =>
    obtain ⟨op, r⟩ := ev
    cases op with
    | dispatch node s =>
      intro v mem
      rcases List.mem_cons.mp mem with rfl | mem
      · refine ⟨_, List.mem_cons_self, rfl, rfl, ?_⟩
        by_cases silent : ∀ ev ∈ t, ev.op.isDispatch = false
        · have own : t.takeWhile (fun ev => !ev.op.isDispatch) = t :=
            List.takeWhile_eq_self_iff.mpr fun ev mem => by simp [silent ev mem]
          have both : (t ++ q).takeWhile (fun ev => !ev.op.isDispatch) = t ++ q := by
            apply List.takeWhile_eq_self_iff.mpr
            intro ev mem
            rcases List.mem_append.mp mem with mem | mem
            · simp [silent ev mem]
            · simp [quiet ev mem]
          exact .inr (both.trans (congrArg (· ++ q) own.symm))
        · refine .inl ?_
          push Not at silent
          obtain ⟨ev, mem, starts⟩ := silent
          change (t ++ q).takeWhile _ = t.takeWhile _
          rw [List.takeWhile_append, if_neg]
          intro whole
          have own := List.takeWhile_eq_self_iff.mp
            ((List.takeWhile_prefix _).eq_of_length whole) ev mem
          simp only [Bool.not_eq_true'] at own
          exact starts own
      · obtain ⟨v', mem', step⟩ := ih v mem
        exact ⟨v', List.mem_cons_of_mem _ mem', step⟩
    | _ => exact ih

section
variable {svc : Service}

/-- Every visit of a chain is a run of its node, or was refused before it. -/
theorem Walked.each {node : Node} {s s' : AgentState} {t : Run} {o : Except Raised Bool}
    (h : Walked svc node s t o s') :
    ∀ v ∈ visits t, v.calls = [] ∨ ∃ o' s'', (runNode svc v.node).Runs v.state v.calls o' s'' := by
  induction h with
  | limit => exact fun v mem => by cases mem
  | refused node s e =>
    intro v mem
    rw [List.mem_singleton.mp mem]
    exact .inl rfl
  | raised visit =>
    intro v mem
    rw [visits_single visit] at mem
    rw [List.mem_singleton.mp mem]
    exact .inr ⟨_, _, visit⟩
  | last visit _ =>
    intro v mem
    rw [visits_single visit] at mem
    rw [List.mem_singleton.mp mem]
    exact .inr ⟨_, _, visit⟩
  | next visit _ rest ih =>
    intro v mem
    rw [visits_cons visit rest] at mem
    rcases List.mem_cons.mp mem with rfl | mem
    · exact .inr ⟨_, _, visit⟩
    · exact ih v mem

/-- However a turn ends, it is a run of the graph, then the evidence. -/
theorem processMessage_chain (svc : Service) (input : TurnInput) :
    (processMessage svc input).All () fun t _ _ => ∃ walked reported o s,
      t = walked ++ reported ∧ Walked svc .processInput input.state walked o s ∧
        ∀ ev ∈ reported, ∃ record, ev.op = .evidence record := by
  have graph : (ainvoke svc).All input.state fun t _ _ => ∃ o s,
      Walked svc .processInput input.state t o s := by
    apply (walk_walked svc _ _ _).bind
    · intro t ended s step
      split
      · rw [Coro.all_pure, List.append_nil]
        exact ⟨_, _, step⟩
      · rw [Coro.all_throw, List.append_nil]
        exact ⟨_, _, step⟩
    · exact fun t e s step => ⟨_, _, step⟩
  have evidence (s : AgentState) :
      Coro.Emits (I := Calls) (fun op => ∃ record, op = .evidence record)
        (emitDecisionEvidence svc s) := by
    unfold emitDecisionEvidence
    split
    · exact emits_orDefault (Coro.emits_call (I := Calls) ⟨_, rfl⟩)
    · exact Coro.emits_pure ()
  apply (Coro.all_scope _ _).mpr
  apply graph.bind
  · rintro t _ s ⟨o, s', walked⟩
    apply (Coro.all_get_bind _).mpr
    apply (evidence s s).bind
    · intro q _ _ reported
      rw [Coro.all_pure, List.append_nil]
      exact ⟨t, q, o, s', rfl, walked, reported⟩
    · exact fun q _ _ reported => ⟨t, q, o, s', rfl, walked, reported⟩
  · rintro t e s ⟨o, s', walked⟩
    exact ⟨t, [], o, s', (List.append_nil t).symm, walked, fun _ mem => by cases mem⟩

/-- However a turn ends, its visits are runs of their nodes, but for the evidence at
its end. -/
theorem turn_visits (svc : Service) (input : TurnInput) :
    (processMessage svc input).All () fun t _ _ => ∀ v ∈ visits t, ∃ own q,
      v.calls = own ++ q ∧ (∀ ev ∈ q, ∃ record, ev.op = .evidence record) ∧
        (own = [] ∨ ∃ o s, (runNode svc v.node).Runs v.state own o s) := by
  apply (processMessage_chain svc input).mono
  rintro t - - ⟨walked, reported, o, s, rfl, chain, evidence⟩ v mem
  have quiet : ∀ ev ∈ reported, ev.op.isDispatch = false := by
    intro ev mem
    obtain ⟨record, is⟩ := evidence ev mem
    rw [is]
    rfl
  obtain ⟨v', mem', node, state, calls⟩ := visits_append_late quiet walked v mem
  have each := chain.each v' mem'
  rw [← node, ← state] at each
  rcases calls with calls | calls
  · exact ⟨v'.calls, [], by rw [calls, List.append_nil], fun _ mem => (by cases mem), each⟩
  · exact ⟨v'.calls, reported, calls, evidence, each⟩

end

end AgentStudio.Orchestration
