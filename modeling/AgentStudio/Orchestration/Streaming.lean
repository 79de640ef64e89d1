import AgentStudio.Orchestration.Release

/-!
# What a streaming turn sends

Every reply of a turn is streamed into the same queue, so the deltas are the text of
all of them. The response of the result event is the text of the last one.
-/

namespace AgentStudio.Orchestration
open Async Gateway

/-! ## The deltas -/

/-- The text of one stream that is passed on: up to its first tool call or error. -/
def passedOn : List StreamEvent → List String
  | [] => []
  | ev :: rest =>
    match ev.type with
    | .delta => ev.content :: passedOn rest
    | .toolUseStart | .toolUseDelta | .error => []
    | _ => passedOn rest

/-- The chunks that a call of the model streamed. -/
def streamed : Ev → List String
  | ⟨.stream _, .ok (.events events _)⟩ => passedOn events
  | _ => []

/-- The deltas are the streamed chunks, in order. -/
def Balanced (t : Run) : Prop := deltas t = t.flatMap streamed

theorem deltas_append (t t' : Run) : deltas (t ++ t') = deltas t ++ deltas t' := by
  induction t with
  | nil => rfl
  | cons ev t ih =>
    obtain ⟨op, r⟩ := ev
    cases op with
    | delta chunk => exact congrArg (chunk :: ·) ih
    | _ => exact ih

theorem additive_balanced : Coro.Additive Balanced where
  nil := rfl
  append := fun h h' => by rw [Balanced, deltas_append, List.flatMap_append, h, h']

/-- A call that neither streams nor passes text on. -/
def Op.silent : Op → Bool
  | .stream _ | .delta _ => false
  | _ => true

theorem balanced_single {op : Op} (silent : op.silent = true) (r : Except Raised (Calls.Ans op)) :
    Balanced [⟨op, r⟩] := by
  cases op with
  | stream | delta => cases silent
  | _ => rfl

theorem balanced_of_silent {t : Run} (silent : ∀ ev ∈ t, ev.op.silent = true) : Balanced t := by
  induction t with
  | nil => rfl
  | cons ev t ih =>
    exact additive_balanced.append (balanced_single (silent ev List.mem_cons_self) ev.reply)
      (ih fun ev mem => silent ev (List.mem_cons_of_mem _ mem))

theorem leaves_balanced {σ α : Type} {P : Op → Prop} {c : Action σ α} (h : Coro.Emits P c)
    (silent : ∀ op, P op → op.silent = true) : Coro.Leaves Balanced c :=
  fun s => (h s).mono fun _ _ _ made => balanced_of_silent fun ev mem => silent ev.op (made ev mem)

theorem update_toolAcc (acc : StreamAcc) (ev : StreamEvent) (args : String) :
    (acc.update ev args).toolAcc ≠ [] := by
  unfold StreamAcc.update
  dsimp only
  split
  · rename_i known
    intro none_
    simp only [List.map_eq_nil_iff] at none_
    simp [none_] at known
  · simp

theorem update_parts (acc : StreamAcc) (ev : StreamEvent) (args : String) :
    (acc.update ev args).parts = acc.parts := by
  unfold StreamAcc.update
  dsimp only
  split <;> rfl

/-- The loop passes on the chunks of the stream, as long as no tool call is open, and
gathers what it passes on. -/
theorem forward_deltas (events : List StreamEvent) (acc : StreamAcc) (v : GenVars) :
    (forward events acc).All v fun t o _ => t.flatMap streamed = [] ∧
      (deltas t = if acc.toolAcc = [] then passedOn events else []) ∧
      ∀ acc', o = .ok acc' → acc'.parts = acc.parts ++ deltas t := by
  induction events generalizing acc v with
  | nil => exact ⟨rfl, by split <;> rfl, fun acc' same => by cases same; simp [deltas]⟩
  | cons ev rest ih =>
    rw [forward]
    cases kind : ev.type with
    | delta =>
      dsimp only
      split
      · rename_i open_
        refine (ih acc v).mono fun t _ _ step => ⟨step.1, ?_, step.2.2⟩
        rw [step.2.1, if_neg open_]
      · rename_i closed
        rw [Coro.all_modify_bind, Coro.all_post_bind]
        refine fun _ => (ih { acc with parts := acc.parts ++ [ev.content] } _).mono
          fun t _ _ step => ⟨step.1, ?_, fun acc' same => ?_⟩
        · have passed := step.2.1
          rw [if_pos (not_not.mp closed)] at passed ⊢
          simp only [deltas, passedOn, kind, passed]
        · rw [step.2.2 acc' same, deltas, List.append_assoc]
          rfl
    | toolUseStart =>
      refine (ih (acc.update ev "") v).mono fun t _ _ step => ⟨step.1, ?_, ?_⟩
      · rw [step.2.1, if_neg (update_toolAcc acc ev "")]
        simp [passedOn, kind]
      · simpa only [update_parts] using step.2.2
    | toolUseDelta =>
      refine (ih (acc.update ev (ev.args.getD "")) v).mono fun t _ _ step => ⟨step.1, ?_, ?_⟩
      · rw [step.2.1, if_neg (update_toolAcc acc ev _)]
        simp [passedOn, kind]
      · simpa only [update_parts] using step.2.2
    | usage =>
      refine (ih _ v).mono fun t _ _ step => ⟨step.1, ?_, step.2.2⟩
      simp [step.2.1, passedOn, kind]
    | done =>
      refine (ih _ v).mono fun t _ _ step => ⟨step.1, ?_, step.2.2⟩
      simp [step.2.1, passedOn, kind]
    | error => exact ⟨rfl, by simp [deltas, passedOn, kind], fun _ raised => by cases raised⟩
    | toolUseEnd =>
      refine (ih acc v).mono fun t _ _ step => ⟨step.1, ?_, step.2.2⟩
      simp [step.2.1, passedOn, kind]

theorem generateStreaming_balanced (svc : Service) (request : Request) :
    Coro.Leaves Balanced (generateStreaming svc request) := by
  intro v
  refine (Coro.all_call_bind _ _).mpr ⟨fun reply => ?_, fun e => rfl⟩
  cases reply with
  | coroutine => rfl
  | events events ending =>
    have whole {t : Run} (step : t.flatMap streamed = [] ∧ deltas t = passedOn events) :
        Balanced (⟨.stream request, .ok (.events events ending)⟩ :: t) := by
      rw [Balanced, List.flatMap_cons, step.1, List.append_nil]
      exact step.2
    refine (forward_deltas events {} v).bind (fun t acc v' step => ?_)
      fun t e v' step => whole ⟨step.1, step.2.1⟩
    have here := whole ⟨step.1, step.2.1⟩
    rw [← List.append_nil t] at here
    cases ending with
    | some e => exact here
    | none =>
      dsimp only
      split
      · exact here
      · split <;> exact here

theorem runNode_balanced (svc : Service) (node : Node) :
    Coro.Leaves Balanced (runNode svc node) := by
  by_cases generation : node = .generateResponse
  · subst generation
    refine generateResponse_leaves svc additive_balanced (fun t made => balanced_of_silent
      fun ev mem => ?_) fun s assembled requestId => callGateway_leaves svc additive_balanced
        (generateStreaming_balanced svc _) fun _ r => balanced_single rfl r
    have := made ev mem
    cases op : ev.op <;> simp_all [Op.prepares, Op.silent]
  · refine leaves_balanced (runNode_makes svc node) fun op made => ?_
    cases op with
    | stream | delta => cases node <;> first | exact absurd rfl generation | cases made
    | _ => rfl

/-- In every streaming turn the deltas are the chunks of its streams, in order. -/
theorem streamMessage_balanced (svc : Service) (input : TurnInput) :
    Coro.Leaves Balanced (streamMessage svc input) := by
  have turn := processMessage_leaves { svc with streaming := true } additive_balanced
    (fun _ _ r => balanced_single rfl r) (runNode_balanced _) (fun _ r => balanced_single rfl r) input
  refine additive_balanced.bind (additive_balanced.tryCatch turn fun e => ?_) fun _ _ => rfl
  split
  · exact fun _ => rfl
  · exact fun _ => rfl

/-! ## The response -/

/-- The text that stands after a call: a reply takes its place, and so does a
redaction. -/
def heard (text : String) : Ev → String
  | ⟨.stream _, .ok (.events events none)⟩ => String.join (passedOn events)
  | ⟨.generate _, .ok response⟩ => response.content
  | ⟨.validate _, .ok check⟩ => Py.orElse check.redactedText text
  | _ => text

/-- The text that stands after the calls of a run. -/
def lastText (text : String) (t : Run) : String := t.foldl heard text

theorem lastText_append (text : String) (t t' : Run) :
    lastText text (t ++ t') = lastText (lastText text t) t' := List.foldl_append

/-- A call that is not answered by a text. -/
def Op.mute : Op → Bool
  | .stream _ | .generate _ | .validate _ => false
  | _ => true

theorem lastText_mute {t : Run} (mute : ∀ ev ∈ t, ev.op.mute = true) (text : String) :
    lastText text t = text := by
  induction t with
  | nil => rfl
  | cons ev t ih =>
    have here := mute ev List.mem_cons_self
    have rest := ih fun ev mem => mute ev (List.mem_cons_of_mem _ mem)
    obtain ⟨op, r⟩ := ev
    cases op with
    | stream | generate | validate => cases here
    | _ => exact rest

/-- Whatever stood before, the run ends on this text. -/
def Tells (t : Run) (text : String) : Prop := ∀ before, lastText before t = text

theorem Tells.after {t : Run} {text : String} (h : Tells t text) (t₀ : Run) : Tells (t₀ ++ t) text :=
  fun before => (lastText_append before t₀ t).trans (h _)

theorem Tells.followed {t : Run} {text : String} (h : Tells t text) {t' : Run}
    (mute : ∀ ev ∈ t', ev.op.mute = true) : Tells (t ++ t') text := fun before => by
  rw [lastText_append, lastText_mute mute, h]

theorem Op.prepares.mute {op : Op} (h : op.prepares = true) : op.mute = true := by
  cases op <;> first | rfl | cases h

section
variable (svc : Service)

theorem generateStreaming_tells (request : Request) (v : GenVars) :
    (generateStreaming svc request).All v fun t o _ => ∀ r, o = .ok r → Tells t r.content := by
  refine (Coro.all_call_bind _ _).mpr ⟨fun reply => ?_, fun e => nofun⟩
  cases reply with
  | coroutine => exact nofun
  | events events ending =>
    refine ((forward_deltas events {} v).and (forward_isDelta events {} v)).bind
      (fun t acc v' step => ?_) fun _ _ _ _ => nofun
    obtain ⟨⟨-, passed, gathered⟩, told⟩ := step
    cases ending with
    | some e => exact nofun
    | none =>
      have parts : acc.parts = passedOn events := by
        rw [gathered acc rfl, passed]
        rfl
      have tells : Tells (⟨.stream request, .ok (.events events none)⟩ :: (t ++ []))
          (String.join acc.parts) := by
        intro before
        rw [List.append_nil, parts]
        refine lastText_mute (fun ev mem => ?_) (String.join (passedOn events))
        have := told ev mem
        cases op : ev.op <;> simp_all [Op.isDelta, Op.mute]
      dsimp only
      split
      · rintro r ⟨⟩
        exact tells
      · split
        · exact nofun
        · rintro r ⟨⟩
          exact tells

theorem tells_generate (request : Request) (v : GenVars) :
    (Coro.call (I := Calls) (.generate request) : Action GenVars Result).All v
      fun t o _ => ∀ r, o = .ok r → Tells t r.content := by
  rw [Coro.all_call]
  rintro _ r rfl
  exact fun _ => rfl

theorem callGateway_tells (request : Request) (v : GenVars) :
    (callGateway svc request).All v fun t o _ => ∀ r, o = .ok r → Tells t r.content := by
  unfold callGateway
  split
  · refine Coro.All.tryCatch (generateStreaming_tells svc request v) (fun _ _ _ step => step)
      fun t e v' _ => ?_
    split
    · refine (Coro.all_get_bind _).mpr ?_
      split
      · exact nofun
      · refine (Coro.all_modify_bind _ _).mpr ((tells_generate request _).mono
          fun t' o _ step r same => (step r same).after t)
    · exact nofun
  · exact tells_generate request v

theorem callOrRecover_tells (request : Request) (assembled : Assembled) (v : GenVars) :
    (callOrRecover svc request assembled).All v fun t o _ =>
      ∀ r, o = .ok (some r) → Tells t r.content := by
  refine Coro.All.tryCatch (Ψ := fun t o _ => ∀ r, o = .ok (some r) → Tells t r.content)
    ((callGateway_tells svc request v).map (fun t r _ step r' same => by cases same; exact step r rfl)
      fun _ _ _ _ => nofun) (fun _ _ _ step => step) fun t e v' _ => ?_
  refine (Coro.all_get_bind _).mpr ?_
  split
  · refine (Coro.all_modify_bind _ _).mpr ?_
    refine Coro.All.bind (Ψ := fun _ _ _ => True) (Coro.all_iff.mpr fun _ _ _ _ => trivial)
      (fun _ made _ _ => ?_) fun _ _ _ _ => nofun
    cases made <;> exact nofun
  · exact nofun

/-- A pass that leaves the loop leaves it with the response it heard. -/
def Answers (t : Run) (o : Except Raised (Option Unit)) (v : GenVars) : Prop :=
  o = .ok (some ()) → ∃ r, v.response = some r ∧ Tells t r.content

theorem Answers.after {t : Run} {o : Except Raised (Option Unit)} {v : GenVars}
    (h : Answers t o v) (t₀ : Run) : Answers (t₀ ++ t) o v := fun left =>
  let ⟨r, found, tells⟩ := h left
  ⟨r, found, tells.after t₀⟩

theorem callModel_answers (assembled : Assembled) (v : GenVars) :
    (callModel svc assembled).All v Answers := by
  rw [callModel, Coro.all_get_bind, Coro.all_call_bind]
  refine ⟨fun requestId => ?_, fun e raised => by cases raised⟩
  rw [Coro.all_modify_bind]
  refine (callOrRecover_tells svc _ assembled _).bind (fun t response v' step => ?_)
    fun _ _ _ _ raised => by cases raised
  cases response with
  | none =>
    intro left
    cases left
  | some response =>
    refine (settleToolCalls_spec svc response v').mono fun t' o v'' settled left => ?_
    obtain ⟨rfl, -, -, found, -⟩ := settled
    refine ⟨response, found, ?_⟩
    rw [List.append_nil]
    exact (step response rfl).after [_]

theorem generationRound_answers (prompt : String) (v : GenVars) :
    (generationRound svc prompt).All v Answers := by
  refine Coro.All.bind (Ψ := fun _ _ _ => True) (Coro.all_iff.mpr fun _ _ _ _ => trivial)
    (fun t₁ assembled v₁ _ => ?_) fun _ _ _ _ => nofun
  cases assembled with
  | none => exact nofun
  | some assembled =>
    refine Coro.All.bind (Ψ := fun _ _ _ => True) (Coro.all_iff.mpr fun _ _ _ _ => trivial)
      (fun t₂ early v₂ _ => ?_) fun _ _ _ _ => nofun
    cases early with
    | true => exact nofun
    | false => exact (callModel_answers svc assembled v₂).mono fun t _ _ h => (h.after t₂).after t₁

theorem generation_loop_answers (prompt : String) (n : Nat) (v : GenVars) :
    (Coro.iterate (generationRound svc prompt) n).All v Answers :=
  Coro.all_iterate _ (fun _ _ => True) (Φ := Answers)
    (fun t v _ => (generationRound_answers svc prompt v).mono fun t' o v' h => by
      match o, h with
      | .ok none, _ => trivial
      | .ok (some ()), h => exact h.after t
      | .error _, _ => exact nofun)
    (fun _ _ _ => nofun) n (t := []) (s := v) trivial

/-- A generation that comes through leaves the reply it heard. -/
theorem generationBody_tells (v : GenVars) :
    (generationBody svc).All v fun t o v' => o = .ok () →
      ∃ text, v'.state.modelResponse = some text ∧ Tells t text := by
  refine Coro.All.bind (Ψ := fun _ _ _ => True) (Coro.all_iff.mpr fun _ _ _ _ => trivial)
    (fun t₁ prompt v₁ _ => ?_) fun _ _ _ _ => nofun
  rw [Coro.all_modify_bind]
  refine (generation_loop_answers svc prompt _ _).bind (fun t₂ ended v₂ step => ?_)
    fun _ _ _ _ => nofun
  cases ended with
  | none => exact nofun
  | some =>
    obtain ⟨response, found, tells⟩ := step rfl
    rw [Coro.all_get_bind, found, Coro.all_modify_bind]
    have recorded : Coro.Emits (I := Calls) (Op.prepares ·) (recordUsage svc response) := by
      unfold recordUsage
      split
      · exact Coro.emits_get.bind fun _ => emits_orDefault (Coro.emits_call (I := Calls) (by rfl))
      · exact Coro.emits_pure _
    refine ((recorded _).and (recordUsage_spec svc response _)).mono fun t₃ o v₃ step₃ _ => ?_
    refine ⟨response.content, by rw [step₃.2.2.state], ?_⟩
    exact (tells.followed fun ev mem => Op.prepares.mute (step₃.1 ev mem)).after t₁

/-- What a visit leaves: no error goes away, and without one the text is the last
that was heard. -/
def Heeds (s : AgentState) (t : Run) (o : Except Raised Unit) (s' : AgentState) : Prop :=
  o = .ok () → s'.error = none → s.error = none ∧ s'.text = lastText s.text t

theorem generateResponse_heeds (s : AgentState) : (generateResponse svc).All s (Heeds s) := by
  have text : (generateResponse svc).All s fun t o s' => o = .ok () → s'.error = none →
      s'.text = lastText s.text t := by
    refine (Coro.all_zoom _ _ _).mpr (Coro.All.tryCatch (generationBody_tells svc { state := s })
      (fun t a v' step ended _ => ?_) fun t e v' _ => ?_)
    · obtain ⟨text, found, tells⟩ := step ended
      rw [tells, AgentState.text, found, Option.getD_some]
    · split
      · intro raised
        cases raised
      · split
        · intro _ failed
          cases failed
        · intro raised
          cases raised
  exact ((generateResponse_spec svc s).and text).mono fun t o s' step ended fine =>
    ⟨step.1.1.fine fine, step.2 ended fine⟩

/-- A verification leaves the text, or the redaction of the validator that saw it. -/
theorem Verifies.heeds {s s' : AgentState} {t : Run} (h : Verifies svc s t s') :
    s'.error = s.error ∧ s'.text = lastText s.text t := by
  have error_ (base : AgentState) (text : String) (verdict : Verdict) :
      (base.verified svc text verdict).error = base.error :=
    verified_field base text verdict AgentState.error fun _ => rfl
  have unheard {text : String} {t : Run} {f : Faithfulness} (grounded : Grounded s text t f)
      (before : String) : lastText before t = before := by
    cases grounded <;> rfl
  cases h with
  | empty => exact ⟨error_ _ _ _, text_verified _ _ _⟩
  | ungrounded => exact ⟨error_ _ _ _, text_verified _ _ _⟩
  | ungated _ _ grounded =>
    refine ⟨error_ _ _ _, ?_⟩
    rw [text_verified, unheard grounded]
    rfl
  | raised _ _ grounded =>
    refine ⟨error_ _ _ _, ?_⟩
    rw [text_verified, lastText_append, unheard grounded]
    rfl
  | answered _ _ grounded _ check =>
    refine ⟨?_, ?_⟩
    · rw [error_]
      exact withOutputCheck_field _ check AgentState.error fun _ => rfl
    · rw [text_verified, text_withOutputCheck, lastText_append, unheard grounded]
      rfl

theorem runNode_heeds (node : Node) (s : AgentState) : (runNode svc node).All s (Heeds s) := by
  -- a node that asks nobody for a text leaves the one that stands
  have mute {t : Run} (made : ∀ ev ∈ t, node.makes ev.op = true)
      (quiet : ∀ op, node.makes op = true → op.mute = true) :
      lastText s.text t = s.text := lastText_mute (fun ev mem => quiet ev.op (made ev mem)) s.text
  cases node with
  | generateResponse => exact generateResponse_heeds svc s
  | validateOutput =>
    refine (validateOutput_spec svc s).mono fun t o s' step ended fine => ?_
    obtain ⟨error, text⟩ := (step ended).heeds
    exact ⟨error.symm.trans fine, text⟩
  | processInput => exact fun _ fine => ⟨fine, rfl⟩
  | checkPolicy =>
    obtain ⟨text, -, error⟩ := policyChecked_same svc s
    exact fun _ fine => ⟨error.symm.trans fine, text⟩
  | retrieveContext =>
    refine ((retrieveContext_spec svc s).and (runNode_makes svc .retrieveContext s)).mono
      fun t o s' step ended fine => ?_
    obtain ⟨docs, citations, context, rfl⟩ := step.1.2 ended
    exact ⟨fine, (mute step.2 fun op made => by cases op <;> first | rfl | cases made).symm⟩
  | executeTools =>
    refine ((executeTools_spec svc s).and (runNode_makes svc .executeTools s)).mono
      fun t o s' step ended fine => ?_
    have unheard := mute step.2 fun op made => by cases op <;> first | rfl | cases made
    obtain ⟨-, rfl⟩ | ⟨-, -, parts, results, rfl⟩ := step.1 ended
    · exact ⟨fine, unheard.symm⟩
    · exact ⟨fine, unheard.symm⟩
  | prepareHandoff =>
    refine ((prepareHandoff_spec svc s).and (runNode_makes svc .prepareHandoff s)).mono
      fun t o s' step ended fine => ?_
    obtain ⟨handoff, rfl⟩ := step.1.2 ended
    exact ⟨fine, (mute step.2 fun op made => by cases op <;> first | rfl | cases made).symm⟩

variable {svc}

/-- Along the whole run. -/
theorem Walked.heeds {node : Node} {s s' : AgentState} {t : Run} {o : Except Raised Bool}
    (h : Walked svc node s t o s') (atEnd : o = .ok true) (fine : s'.error = none) :
    s.error = none ∧ s'.text = lastText s.text t := by
  induction h with
  | limit => cases atEnd
  | refused => cases atEnd
  | raised => cases atEnd
  | last visit =>
    obtain ⟨before, text⟩ := Coro.all_iff.mp (runNode_heeds svc _ _) _ _ _ visit rfl fine
    exact ⟨before, text⟩
  | next visit edge rest ih =>
    obtain ⟨between, text⟩ := ih atEnd fine
    obtain ⟨before, text'⟩ := Coro.all_iff.mp (runNode_heeds svc _ _) _ _ _ visit rfl between
    refine ⟨before, ?_⟩
    rw [text, text']
    exact (lastText_append _ _ _).symm

end

/-- A result event carries the text of the final state, which is the last one heard
unless something failed without saying so. -/
theorem streamMessage_response (svc : Service) (input : TurnInput) :
    (streamMessage svc input).All () fun t o _ => ∀ response final,
      o = .ok (.result response final) →
        response = final.text ∧ (final.error = none → response = lastText "" t) := by
  have result {s : AgentState} {response : String} {final : AgentState}
      (ended : streamEnd s = .result response final) : response = final.text ∧ final = s := by
    unfold streamEnd at ended
    split at ended
    · cases ended
    · cases ended
      exact ⟨rfl, rfl⟩
  refine Coro.All.bind (Ψ := fun t o _ => ∀ s, o = .ok s → s.error = none →
    s.text = lastText "" t) ?_ (fun t s _ step response final ended => ?_)
    fun _ _ _ _ _ _ raised => nomatch raised
  · refine Coro.All.tryCatch (processMessage_walked _ input) (fun t s _ step s' same fine => ?_)
      fun t e _ _ => ?_
    · obtain ⟨walked, reported, rfl, run, evidence⟩ := step s' same
      obtain ⟨-, text⟩ := run.heeds rfl fine
      have mute : ∀ ev ∈ reported, ev.op.mute = true := fun ev mem => by
        obtain ⟨record, same⟩ := evidence ev mem
        rw [same]
        rfl
      rw [text, lastText_append, lastText_mute mute]
      rfl
    · split
      · rintro s ⟨⟩ fine
        cases fine
      · exact fun _ raised => nomatch raised
  · obtain ⟨text, rfl⟩ := result (Except.ok.inj ended)
    rw [List.append_nil]
    exact ⟨text, fun fine => text.trans (step _ rfl fine)⟩

theorem append_eq_right {a b : String} : a ++ b = b ↔ a = "" := by
  constructor
  · intro same
    have lengths := congrArg String.length same
    rw [String.length_append] at lengths
    exact String.length_eq_zero_iff.mp (by omega)
  · rintro rfl
    exact String.empty_append

/-- Nothing failed in the turn, and its deltas do not spell its response. -/
def repeatsItself (t : Run) (o : Except Raised StreamEnd) : Bool :=
  match o with
  | .ok (.result response final) => String.join (deltas t) != response && final.error.isNone
  | _ => false

theorem repeating_turn : ∃ (t : Run) (response : String) (final : AgentState),
    (streamMessage grounded {}).Runs () t (.ok (.result response final)) () ∧
    String.join (deltas t) ≠ response ∧ final.error = none := by
  have run := (streamMessage grounded {}).runs_with
    (scripted "Yes." [{ content := "No." }] unfaithful) ()
  have repeats : repeatsItself
      ((streamMessage grounded {}).traceWith (scripted "Yes." [{ content := "No." }] unfaithful) ())
      ((streamMessage grounded {}).outcomeWith
        (scripted "Yes." [{ content := "No." }] unfaithful) ()).1 = true := by
    decide +kernel
  generalize (streamMessage grounded {}).traceWith _ _ = t at run repeats
  generalize (streamMessage grounded {}).outcomeWith _ _ = outcome at run repeats
  obtain ⟨o, ⟨⟩⟩ := outcome
  match o with
  | .ok (.result response final) => exact ⟨t, response, final, run, by simpa [repeatsItself] using repeats⟩
  | .ok (.error _) => cases repeats
  | .error _ => cases repeats

end AgentStudio.Orchestration
