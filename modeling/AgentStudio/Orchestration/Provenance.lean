import AgentStudio.Orchestration.Release

/-!
# Which generation the stored contents come from

The route stores the released text and, as its raw form, what a redacting verification put into
`context["output_raw"]`. A later generation replaces the response and leaves that field alone.

* `walked_stands`: both are read off the history of the response;
* `stored_together_iff`: when they come from one generation.
-/

namespace AgentStudio.Orchestration.Provenance

open Async Gateway

/-! ## Drafts -/

/-- What can become of the response of a turn: the model writes it, or the validator returns
another text for the one it was asked about. -/
inductive Edit where
  | wrote (content : String)
  | redacted (asked text : String)

/-- A response, with the output of the model that it was obtained from. -/
structure Draft where
  origin : String := ""
  text : String := ""

def revise (draft : Option Draft) : Edit → Option Draft
  | .wrote content => some ⟨content, content⟩
  | .redacted _ text => draft.map fun d => { d with text := text }

/-- The response that stands after a history. -/
def draft (edits : List Edit) : Option Draft := edits.foldl revise none

def Edit.written : Edit → Option String
  | .wrote content => some content
  | .redacted .. => none

def Edit.asked : Edit → Option String
  | .wrote _ => none
  | .redacted asked _ => some asked

/-- What the model wrote last. -/
def lastWritten (edits : List Edit) : Option String := (edits.filterMap Edit.written).getLast?

/-- What the validator was asked about when it redacted last. -/
def lastRedacted (edits : List Edit) : Option String := (edits.filterMap Edit.asked).getLast?

theorem draft_append (edits : List Edit) (e : Edit) :
    draft (edits ++ [e]) = revise (draft edits) e := by
  rw [draft, List.foldl_append]
  rfl

theorem lastWritten_append (edits : List Edit) (e : Edit) :
    lastWritten (edits ++ [e]) = e.written.or (lastWritten edits) := by
  cases e <;> simp [lastWritten, List.filterMap_append, Edit.written]

theorem lastRedacted_append (edits : List Edit) (e : Edit) :
    lastRedacted (edits ++ [e]) = e.asked.or (lastRedacted edits) := by
  cases e <;> simp [lastRedacted, List.filterMap_append, Edit.asked]

/-- What stands comes from what was written last. -/
theorem draft_origin (edits : List Edit) : (draft edits).map (·.origin) = lastWritten edits := by
  induction edits using List.reverseRecOn with
  | nil => rfl
  | append_singleton edits e ih =>
    rw [draft_append, lastWritten_append]
    cases e with
    | wrote content => rfl
    | redacted asked text =>
      refine Eq.trans ?_ ih
      cases draft edits <;> rfl

/-- A response that nothing was put in the place of is as the model wrote it. -/
theorem draft_unredacted {edits : List Edit} (none_ : lastRedacted edits = none) :
    draft edits = (lastWritten edits).map fun content => ⟨content, content⟩ := by
  induction edits using List.reverseRecOn with
  | nil => rfl
  | append_singleton edits e ih =>
    rw [lastRedacted_append] at none_
    rw [draft_append, lastWritten_append]
    cases e with
    | wrote content => rfl
    | redacted asked text => cases none_

/-! ## The history of a turn -/

/-- The calls a pass of a generation is told by: it assembles a context, then asks the model. -/
def Op.isPass : Op → Bool
  | .assemble _ | .generate _ => true
  | _ => false

/-- What the model answered a call. -/
def said : Ev → Option String
  | ⟨.generate _, .ok response⟩ => some response.content
  | _ => none

/-- What a generation wrote: the answer to its last call of the model, unless it went on to
assemble a context again. -/
def reply (t : Run) : Option String := (t.filter fun ev => Op.isPass ev.op).getLast?.bind said

/-- What the validator put in the place of the text it was asked about. -/
def redaction : Ev → Option Edit
  | ⟨.validate asked, .ok check⟩ => (nonEmpty check.redactedText).map (.redacted asked)
  | _ => none

/-- What the calls of one visit do to the response. -/
def callEdits (t : Run) : List Edit := (reply t).toList.map .wrote ++ t.filterMap redaction

/-- The history of the response of a turn. -/
def edits (t : Run) : List Edit := (visits t).flatMap fun v => callEdits v.calls

/-- A pass of a generation was begun. -/
def Passes (t : Run) : Prop := ∃ ev ∈ t, Op.isPass ev.op = true

theorem Passes.append_right {t : Run} (h : Passes t) (t' : Run) : Passes (t ++ t') := by
  obtain ⟨ev, mem, pass⟩ := h
  exact ⟨ev, List.mem_append_left t' mem, pass⟩

theorem reply_append (t : Run) {t' : Run} (h : Passes t') : reply (t ++ t') = reply t' := by
  obtain ⟨ev, mem, pass⟩ := h
  have some_ : t'.filter (fun ev => Op.isPass ev.op) ≠ [] :=
    List.ne_nil_of_mem (List.mem_filter.mpr ⟨mem, pass⟩)
  rw [reply, reply, List.filter_append, List.getLast?_append_of_ne_nil _ some_]

theorem reply_after (t : Run) {t' : Run} (after : ∀ ev ∈ t', Op.isPass ev.op = false) :
    reply (t ++ t') = reply t := by
  have none_ : t'.filter (fun ev => Op.isPass ev.op) = [] :=
    List.filter_eq_nil_iff.mpr fun ev mem => by simp [after ev mem]
  rw [reply, reply, List.filter_append, none_, List.append_nil]

/-- Without an answer of the model nothing is written. -/
theorem reply_silent {t : Run} (silent : ∀ ev ∈ t, said ev = none) : reply t = none := by
  rw [reply, Option.bind_eq_none_iff]
  intro ev last
  exact silent ev (List.mem_of_mem_filter (List.mem_of_getLast? last))

/-- Where nothing was written, only what follows counts. -/
theorem reply_append_of_none {t : Run} (none_ : reply t = none) (t' : Run) :
    reply (t ++ t') = reply t' := by
  by_cases passes : Passes t'
  · exact reply_append t passes
  · have after : ∀ ev ∈ t', Op.isPass ev.op = false := fun ev mem =>
      Bool.eq_false_iff.mpr fun pass => passes ⟨ev, mem, pass⟩
    have alone := reply_after [] after
    rw [List.nil_append] at alone
    rw [reply_after t after, none_, alone]
    rfl

theorem said_prepares {ev : Ev} (h : ev.op.prepares = true) : said ev = none := by
  obtain ⟨op, r⟩ := ev
  cases op <;> first | rfl | cases h

theorem reply_prepares {t : Run} (made : ∀ ev ∈ t, ev.op.prepares = true) : reply t = none :=
  reply_silent fun ev mem => said_prepares (made ev mem)

/-! ## What a generation writes -/

/-- What is raised is no `Exception`: it ends the turn. -/
def Ends {α : Type} (o : Except Raised α) : Prop := ∃ e, o = .error e ∧ e.isException = false

theorem not_ends {α : Type} (a : α) : ¬ Ends (.ok a) := fun ⟨_, raised, _⟩ => nomatch raised

section
variable (svc : Service)

theorem assembleContext_passes (prompt : String) (v : GenVars) :
    (assembleContext svc prompt).All v fun t o _ => Ends o ∨ Passes t := by
  have facts : (retrieveFacts svc).All v fun _ o _ => ∀ e, o = .error e → e.isException = false := by
    unfold retrieveFacts
    split
    · exact (Coro.all_get_bind _).mpr (orDefault_raises _ _ _)
    · exact nofun
  refine facts.bind (fun t _ v' _ => ?_) fun t e v' raised => .inl ⟨e, rfl, raised e rfl⟩
  refine (Coro.all_get_bind _).mpr fun r => .inr ⟨⟨.assemble _, r⟩, ?_, rfl⟩
  exact List.mem_append_right t List.mem_cons_self

theorem assembleOrRecover_passes (prompt : String) (v : GenVars) :
    (assembleOrRecover svc prompt).All v fun t o _ => Ends o ∨ Passes t := by
  refine Coro.All.tryCatch (Ψ := fun t o _ => Ends o ∨ Passes t)
    ((assembleContext_passes svc prompt v).map
      (fun _ _ _ step => .inr (step.resolve_left (not_ends _)))
      fun _ _ _ step => step.imp_left fun ⟨e, raised, base⟩ => ⟨e, by cases raised; rfl, base⟩)
    (fun _ _ _ step => step) fun t e v' step => ?_
  obtain ⟨_, ⟨⟩, base⟩ | passes := step
  · cases e <;> first | exact .inl ⟨_, rfl, base⟩ | cases base
  · exact Coro.all_iff.mpr fun t' _ _ _ => .inr (passes.append_right t')

theorem buildSystemPrompt_prepares :
    Coro.Emits (I := Calls) (Op.prepares ·) (buildSystemPrompt svc) := by
  unfold buildSystemPrompt
  split
  · exact (emits_orDefault (Coro.emits_call (I := Calls) (by rfl))).bind fun _ => Coro.emits_pure _
  · exact Coro.emits_pure _

theorem le_response {v v' : GenVars} (le : v.Le v') :
    v'.state.modelResponse = v.state.modelResponse := by
  have same := congrArg AgentState.modelResponse le.state
  exact same

/-- What comes of a part of a generation: the response that it returns is what it wrote, and
one that raises wrote nothing. -/
def Wrote (t : Run) (v' : GenVars) : Except Raised (Option Unit) → Prop
  | .ok none => True
  | .ok (some ()) => ∃ response : Result, v'.response = some response ∧
      reply t = some response.content
  | .error _ => reply t = none

theorem Wrote.of_reply {t t' : Run} {v' : GenVars} {o : Except Raised (Option Unit)}
    (h : Wrote t v' o) (same : reply t' = reply t) : Wrote t' v' o := by
  match o, h with
  | .ok none, _ => trivial
  | .ok (some ()), ⟨response, found, wrote⟩ => exact ⟨response, found, same.trans wrote⟩
  | .error _, none_ => exact same.trans none_

variable {svc}

theorem callOrRecover_answer (unary : svc.streaming = false) (request : Request)
    (assembled : Assembled) (v : GenVars) :
    (callOrRecover svc request assembled).All v fun t o _ =>
      (∀ response, o = .ok (some response) → t = [⟨.generate request, .ok response⟩]) ∧
      ∀ e, o = .error e → ∀ ev ∈ t, said ev = none := by
  have called : (callGateway svc request).All v fun (t : Run) o _ => t = [⟨.generate request, o⟩] := by
    unfold callGateway
    rw [unary, if_neg Bool.false_ne_true, Coro.all_call]
    exact fun r => rfl
  refine Coro.All.tryCatch (Ψ := fun (t : Run) o _ =>
      (∀ response, o = .ok (some response) → t = [⟨.generate request, .ok response⟩]) ∧
      ∀ e, o = .error e → t = [⟨.generate request, .error e⟩])
    (called.map (fun _ _ _ step => ⟨fun _ same => by cases same; exact step, nofun⟩)
      fun _ _ _ step => ⟨nofun, fun _ same => by cases same; exact step⟩)
    (fun _ _ _ step => ⟨step.1, nofun⟩) fun t e v' step => ?_
  obtain rfl := step.2 e rfl
  have silent {t' : Run} (made : ∀ ev ∈ t', ev.op.prepares = true) :
      ∀ ev ∈ [(⟨.generate request, .error e⟩ : Ev)] ++ t', said ev = none := by
    intro ev mem
    rcases List.mem_cons.mp mem with rfl | mem
    · rfl
    · exact said_prepares (made ev mem)
  rw [Coro.all_get_bind]
  split
  · rw [Coro.all_modify_bind]
    refine (compactWith_prepares (some assembled) true _).bind (fun t' made v'' prepared => ?_)
      fun t' _ _ prepared => ⟨nofun, fun _ _ => silent prepared⟩
    split
    · exact ⟨nofun, nofun⟩
    · refine ⟨nofun, fun _ _ => ?_⟩
      rw [List.append_nil]
      exact silent prepared
  · rw [Coro.all_throw]
    exact ⟨nofun, fun _ _ => silent (by simp)⟩

/-- A pass from the request on. -/
theorem callModel_wrote (unary : svc.streaming = false) (assembled : Assembled) (v : GenVars) :
    (callModel svc assembled).All v fun t o v' =>
      v'.state.modelResponse = v.state.modelResponse ∧ Wrote t v' o := by
  rw [callModel, Coro.all_get_bind, Coro.all_call_bind]
  refine ⟨fun id => ?_, fun e => ⟨rfl, rfl⟩⟩
  rw [Coro.all_modify_bind]
  refine ((callOrRecover_answer unary _ assembled v.takeNote).and
    (callOrRecover_spec svc _ assembled v.takeNote)).bind (fun t answer v' step => ?_)
    fun t e v' step => ?_
  · obtain ⟨⟨answered, -⟩, -, le, -⟩ := step
    have same : v'.state.modelResponse = v.takeNote.state.modelResponse := le_response le
    cases answer with
    | none => exact ⟨same, trivial⟩
    | some response =>
      obtain rfl := answered response rfl
      change (get >>= _ : Action GenVars (Option Unit)).All v' _
      rw [Coro.all_get_bind]
      dsimp only
      split
      · exact ⟨same, trivial⟩
      · exact ⟨same, response, rfl, rfl⟩
  · obtain ⟨⟨-, silent⟩, -, le, -⟩ := step
    have same : v'.state.modelResponse = v.takeNote.state.modelResponse := le_response le
    refine ⟨same, reply_silent fun ev mem => ?_⟩
    rcases List.mem_cons.mp mem with rfl | mem
    · rfl
    · exact silent e rfl ev mem

theorem generationRound_wrote (unary : svc.streaming = false) (prompt : String) (v : GenVars) :
    (generationRound svc prompt).All v fun t o v' => Ends o ∨
      v'.state.modelResponse = v.state.modelResponse ∧ Passes t ∧ Wrote t v' o := by
  refine (((assembleOrRecover_spec svc prompt v).and (assembleOrRecover_passes svc prompt v)).and
    (assembleOrRecover_prepares svc prompt v)).bind (fun t₁ assembled v₁ step₁ => ?_)
    fun t₁ e v₁ step₁ => ?_
  · obtain ⟨⟨⟨-, le₁, -⟩, begun⟩, prepared₁⟩ := step₁
    have passes := begun.resolve_left (not_ends _)
    have none₁ := reply_prepares prepared₁
    have same₁ := le_response le₁
    cases assembled with
    | none => exact .inr ⟨same₁, by rwa [List.append_nil], trivial⟩
    | some assembled =>
      refine ((preempt_spec svc assembled v₁).and (preempt_prepares svc assembled v₁)).bind
        (fun t₂ early v₂ step₂ => ?_) fun t₂ e v₂ step₂ => ?_
      · obtain ⟨⟨-, le₂, -⟩, prepared₂⟩ := step₂
        have same₂ := (le_response le₂).trans same₁
        cases early with
        | true => exact .inr ⟨same₂, passes.append_right _, trivial⟩
        | false =>
          rw [if_neg Bool.false_ne_true]
          refine (callModel_wrote unary assembled v₂).mono fun t₃ o v₃ step₃ => .inr
            ⟨step₃.1.trans same₂, passes.append_right _, step₃.2.of_reply ?_⟩
          rw [reply_append_of_none none₁, reply_append_of_none (reply_prepares prepared₂)]
      · obtain ⟨⟨-, le₂, -⟩, prepared₂⟩ := step₂
        exact .inr ⟨(le_response le₂).trans same₁, passes.append_right _,
          (reply_append_of_none none₁ t₂).trans (reply_prepares prepared₂)⟩
  · obtain ⟨⟨⟨-, le₁, -⟩, ended | passes⟩, prepared⟩ := step₁
    · obtain ⟨_, ⟨⟩, base⟩ := ended
      exact .inl ⟨_, rfl, base⟩
    · exact .inr ⟨le_response le₁, passes, reply_prepares prepared⟩

/-- The loop: each further pass begins with a context of its own. -/
theorem generation_loop_wrote (unary : svc.streaming = false) (prompt : String) (v : GenVars) :
    (Coro.iterate (generationRound svc prompt) generationFuel).All v fun t o v' => Ends o ∨
      v'.state.modelResponse = v.state.modelResponse ∧ Wrote t v' o := by
  refine Coro.all_iterate (generationRound svc prompt)
    (fun _ v' => v'.state.modelResponse = v.state.modelResponse)
    (Φ := fun t o v' => Ends o ∨ v'.state.modelResponse = v.state.modelResponse ∧ Wrote t v' o)
    (fun t v₁ same => (generationRound_wrote unary prompt v₁).mono fun t' o v₂ step => ?_)
    (fun t v₁ same => .inr ⟨same, trivial⟩) generationFuel (t := []) (s := v) rfl
  match o, step with
  | .ok none, step =>
    obtain ⟨same', -, -⟩ := step.resolve_left (not_ends _)
    exact same'.trans same
  | .ok (some ()), step =>
    obtain ⟨same', passes, wrote⟩ := step.resolve_left (not_ends _)
    exact .inr ⟨same'.trans same, wrote.of_reply (reply_append t passes)⟩
  | .error e, .inl ⟨_, raised, base⟩ => exact .inl ⟨e, rfl, by cases raised; exact base⟩
  | .error e, .inr ⟨same', passes, wrote⟩ =>
    exact .inr ⟨same'.trans same, wrote.of_reply (reply_append t passes)⟩

theorem recordUsage_after (response : Result) (v : GenVars) :
    (recordUsage svc response).All v fun t o v' => v'.state = v.state ∧
      (∀ ev ∈ t, Op.isPass ev.op = false) ∧ ∀ e, o = .error e → e.isException = false := by
  unfold recordUsage
  split
  · rw [Coro.all_get_bind]
    refine ((moves_orDefault (R := GenVars.Same) (Coro.moves_call _) v).and
      ((emits_orDefault (Coro.emits_call (I := Calls) (P := fun op => Op.isPass op = false) rfl) v).and
        (orDefault_raises _ _ v))).mono fun t o v' step => ?_
    exact ⟨step.1.state, step.2.1, step.2.2⟩
  · exact ⟨rfl, by simp, nofun⟩

/-- The `try` block of a generation. -/
theorem generationBody_wrote (unary : svc.streaming = false) (v : GenVars) :
    (generationBody svc).All v fun t o v' => Ends o ∨
      match o with
      | .ok () => ∃ content, reply t = some content ∧ v'.state.modelResponse = some content
      | .error _ => reply t = none ∧ v'.state.modelResponse = v.state.modelResponse := by
  refine ((buildSystemPrompt_spec svc v).and (buildSystemPrompt_prepares svc v)).bind
    (fun t₁ prompt v₁ step₁ => ?_) fun t₁ e v₁ step₁ => .inl ⟨e, rfl, step₁.1.2.2 e rfl⟩
  obtain ⟨⟨-, same₁, -⟩, prepared⟩ := step₁
  have before := reply_prepares prepared
  rw [Coro.all_modify_bind]
  have same : v₁.state.modelResponse = v.state.modelResponse := by rw [same₁.state]
  refine ((generation_loop_wrote unary prompt _).and (generation_loop_total svc prompt _)).bind
    (fun t₂ ended v₂ step₂ => ?_) fun t₂ e v₂ step₂ => ?_
  · obtain ⟨wrote, some_, -⟩ := step₂
    cases ended with
    | none => exact absurd rfl some_
    | some =>
      obtain ⟨-, response, found, wrote⟩ := wrote.resolve_left (not_ends _)
      rw [Coro.all_get_bind, found, Coro.all_modify_bind]
      refine (recordUsage_after response _).mono fun t₃ o v₃ step₃ => ?_
      obtain ⟨state₃, after, raises⟩ := step₃
      cases o with
      | error e => exact .inl ⟨e, rfl, raises e rfl⟩
      | ok =>
        refine .inr ⟨response.content, ?_, by rw [state₃]⟩
        rw [reply_append_of_none before, reply_after t₂ after, wrote]
  · obtain ⟨⟨_, ⟨⟩, base⟩ | ⟨same₂, wrote⟩, -⟩ := step₂
    · exact .inl ⟨_, rfl, base⟩
    · exact .inr ⟨(reply_append_of_none before t₂).trans wrote, same₂.trans same⟩

/-- A generation that comes to its end leaves the response it wrote, or the one that stood. -/
theorem generateResponse_wrote (unary : svc.streaming = false) (s : AgentState) :
    (generateResponse svc).All s fun t o s' => o = .ok () →
      s'.modelResponse = (reply t).or s.modelResponse := by
  refine (Coro.all_zoom _ _ _).mpr ?_
  refine Coro.All.tryCatch (generationBody_wrote unary { state := s }) (fun t o v' step => ?_)
    fun t e v' step => ?_
  · obtain ⟨content, wrote, stands⟩ := step.resolve_left (not_ends _)
    intro _
    rw [stands, wrote]
    rfl
  · obtain ⟨_, ⟨⟩, base⟩ | ⟨none_, same⟩ := step
    · split
      · exact nofun
      · split
        · simp_all
        · exact nofun
    · split
      · exact nofun
      · split
        · intro _
          rw [List.append_nil, none_]
          exact same
        · exact nofun

end

/-! ## What a turn keeps -/

/-- The response and the raw text parked for it are those of the history. -/
structure Stands (s : AgentState) (history : List Edit) : Prop where
  response : s.modelResponse = (draft history).map (·.text)
  raw : s.context.outputRaw = lastRedacted history
  some_ : ∀ asked, lastRedacted history = some asked → asked ≠ ""

theorem Stands.same {s s' : AgentState} {history : List Edit} (h : Stands s history)
    (response : s'.modelResponse = s.modelResponse)
    (raw : s'.context.outputRaw = s.context.outputRaw) : Stands s' history :=
  ⟨response.trans h.response, raw.trans h.raw, h.some_⟩

theorem Stands.wrote {s s' : AgentState} {history : List Edit} (h : Stands s history)
    {written : Option String} (response : s'.modelResponse = written.or s.modelResponse)
    (raw : s'.context.outputRaw = s.context.outputRaw) :
    Stands s' (history ++ written.toList.map .wrote) := by
  cases written with
  | none =>
    rw [Option.toList_none, List.map_nil, List.append_nil]
    exact h.same response raw
  | some content =>
    change Stands s' (history ++ [.wrote content])
    refine ⟨?_, ?_, ?_⟩
    · rw [draft_append, response]
      rfl
    · rw [lastRedacted_append]
      exact raw.trans h.raw
    · rw [lastRedacted_append]
      exact h.some_

theorem Stands.redacted {s s' : AgentState} {history : List Edit} (h : Stands s history)
    {asked text : String} (standing : s.modelResponse = some asked) (some_ : asked ≠ "")
    (response : s'.modelResponse = some text) (raw : s'.context.outputRaw = s.modelResponse) :
    Stands s' (history ++ [.redacted asked text]) := by
  refine ⟨?_, ?_, ?_⟩
  · rw [draft_append, response]
    obtain ⟨d, found, -⟩ := Option.map_eq_some_iff.mp (h.response.symm.trans standing)
    rw [found]
    rfl
  · rw [lastRedacted_append, raw, standing]
    rfl
  · rw [lastRedacted_append]
    rintro _ ⟨⟩
    exact some_

theorem callEdits_quiet {t : Run} (silent : ∀ ev ∈ t, said ev = none)
    (lets : ∀ ev ∈ t, redaction ev = none) : callEdits t = [] := by
  rw [callEdits, reply_silent silent, List.filterMap_eq_nil_iff.mpr lets]
  rfl

theorem callEdits_validate (text : String) (check : OutputCheck) :
    callEdits [⟨.validate text, .ok check⟩] =
      ((nonEmpty check.redactedText).map (Edit.redacted text)).toList := by
  have none_ : reply [(⟨.validate text, .ok check⟩ : Ev)] = none := rfl
  rw [callEdits, none_, List.filterMap_cons, redaction]
  cases nonEmpty check.redactedText <;> rfl

/-- The evidence at the end of a turn is no edit. -/
theorem callEdits_evidence (t : Run) {q : Run}
    (evidence : ∀ ev ∈ q, ∃ record, ev.op = .evidence record) : callEdits (t ++ q) = callEdits t := by
  have after : ∀ ev ∈ q, Op.isPass ev.op = false := by
    intro ev mem
    obtain ⟨record, is⟩ := evidence ev mem
    rw [is]
    rfl
  have lets : ∀ ev ∈ q, redaction ev = none := by
    rintro ⟨op, r⟩ mem
    obtain ⟨record, rfl⟩ := evidence _ mem
    rfl
  rw [callEdits, callEdits, reply_after t after, List.filterMap_append,
    List.filterMap_eq_nil_iff.mpr lets, List.append_nil]

theorem said_of_makes {node : Node} {ev : Ev} (made : node.makes ev.op = true)
    (other : node ≠ .generateResponse) : said ev = none := by
  obtain ⟨op, r⟩ := ev
  cases op with
  | generate => exact absurd (makes_asksModel made rfl) other
  | _ => rfl

theorem redaction_of_makes {node : Node} {ev : Ev} (made : node.makes ev.op = true)
    (other : node ≠ .validateOutput) : redaction ev = none := by
  obtain ⟨op, r⟩ := ev
  cases op with
  | validate =>
    cases node <;> first | exact absurd rfl other | cases made
  | _ => rfl

theorem policyChecked_output (svc : Service) (s : AgentState) :
    (s.policyChecked svc).modelResponse = s.modelResponse ∧
      (s.policyChecked svc).context.outputRaw = s.context.outputRaw := by
  unfold AgentState.policyChecked
  dsimp only
  split
  · split <;> split <;> exact ⟨rfl, rfl⟩
  · split <;> exact ⟨rfl, rfl⟩

section
variable {svc : Service} {s s' : AgentState} {t : Run} {history : List Edit}

/-- A verification: the validator may put another text in the place of the response. -/
theorem verifies_stands (h : Verifies svc s t s') (stands : Stands s history) :
    Stands s' (history ++ callEdits t) := by
  have response_ (base : AgentState) (text : String) (verdict : Verdict) :
      (base.verified svc text verdict).modelResponse = base.modelResponse :=
    verified_field base text verdict AgentState.modelResponse fun _ => rfl
  have raw_ (base : AgentState) (text : String) (verdict : Verdict) :
      (base.verified svc text verdict).context.outputRaw = base.context.outputRaw :=
    verified_field base text verdict (·.context.outputRaw) fun _ => rfl
  have checked {text : String} {t : Run} {f : Faithfulness} (grounded : Grounded s text t f)
      (late : Ev) : callEdits (t ++ [late]) = callEdits [late] := by
    cases grounded with
    | unchecked => rfl
    | checked => rfl
  cases h with
  | empty =>
    exact (List.append_nil history).symm ▸ stands.same (response_ _ _ _) (raw_ _ _ _)
  | ungrounded =>
    exact (List.append_nil history).symm ▸ stands.same (response_ _ _ _) (raw_ _ _ _)
  | ungated _ _ grounded =>
    have none_ : callEdits t = [] := by
      cases grounded with
      | unchecked => rfl
      | checked => rfl
    rw [none_, List.append_nil]
    exact stands.same (response_ _ _ _) (raw_ _ _ _)
  | raised _ _ grounded =>
    rw [checked grounded]
    exact (List.append_nil history).symm ▸ stands.same (response_ _ _ _) (raw_ _ _ _)
  | @answered text reply some_ t₀ f grounded there check =>
    rw [checked grounded, callEdits_validate]
    have standing : s.modelResponse = some text := by
      cases found : s.modelResponse with
      | none => exact absurd (by simpa [found] using reply.symm) some_
      | some other => rw [← reply, found, Option.getD_some]
    cases redacts : nonEmpty check.redactedText with
    | none =>
      rw [Option.map_none, Option.toList_none, List.append_nil]
      refine stands.same ((response_ _ _ _).trans ?_) ((raw_ _ _ _).trans ?_)
      · rw [AgentState.withOutputCheck, redacts]
        rfl
      · rw [AgentState.withOutputCheck, redacts]
        rfl
    | some redacted =>
      refine stands.redacted standing some_ ((response_ _ _ _).trans ?_) ((raw_ _ _ _).trans ?_)
      · rw [AgentState.withOutputCheck, redacts]
      · rw [AgentState.withOutputCheck, redacts]
        rfl

/-- Past the start of a turn, each node keeps it. -/
theorem visit_stands (unary : svc.streaming = false) {node : Node} (past : node ≠ .processInput)
    (visit : (runNode svc node).Runs s t (.ok ()) s') (stands : Stands s history) :
    Stands s' (history ++ callEdits t) := by
  have quiet (generates : node ≠ .generateResponse) (verifies : node ≠ .validateOutput) :
      callEdits t = [] := callEdits_quiet
    (fun ev mem => said_of_makes (made_by visit mem) generates)
    fun ev mem => redaction_of_makes (made_by visit mem) verifies
  cases node with
  | processInput => exact absurd rfl past
  | retrieveContext =>
    rw [quiet nofun nofun, List.append_nil]
    obtain ⟨docs, citations, context, rfl⟩ :=
      (Coro.all_iff.mp (retrieveContext_spec svc s) _ _ _ visit).2 rfl
    exact stands.same rfl rfl
  | generateResponse =>
    have wrote := Coro.all_iff.mp (generateResponse_wrote unary s) _ _ _ visit rfl
    have kept := (Coro.all_iff.mp (generateResponse_spec svc s) _ _ _ visit).1
    have lets : t.filterMap redaction = [] := List.filterMap_eq_nil_iff.mpr fun ev mem =>
      redaction_of_makes (made_by visit mem) nofun
    rw [callEdits, lets, List.append_nil]
    exact stands.wrote wrote (kept.same (·.context.outputRaw) fun _ => rfl)
  | executeTools =>
    rw [quiet nofun nofun, List.append_nil]
    obtain ⟨-, rfl⟩ | ⟨-, -, parts, results, rfl⟩ :=
      Coro.all_iff.mp (executeTools_spec svc s) _ _ _ visit rfl
    · exact stands.same rfl rfl
    · exact stands.same rfl rfl
  | validateOutput =>
    exact verifies_stands (Coro.all_iff.mp (validateOutput_spec svc s) _ _ _ visit rfl) stands
  | checkPolicy =>
    rw [quiet nofun nofun, List.append_nil]
    obtain ⟨-, rfl⟩ := checkPolicy_visit visit
    exact stands.same (policyChecked_output svc s).1 (policyChecked_output svc s).2
  | prepareHandoff =>
    rw [quiet nofun nofun, List.append_nil]
    obtain ⟨handoff, rfl⟩ := (Coro.all_iff.mp (prepareHandoff_spec svc s) _ _ _ visit).2 rfl
    exact stands.same rfl rfl

theorem nextNode_past {node node' : Node} (edge : nextNode svc s node = some node') :
    node' ≠ .processInput := by
  rintro rfl
  cases node with
  | generateResponse =>
    simp only [nextNode, routeAfterGenerate, Option.some.injEq] at edge
    split at edge <;> cases edge
  | validateOutput =>
    simp only [nextNode, routeAfterValidate, Option.some.injEq] at edge
    split at edge
    · cases edge
    · split at edge <;> cases edge
  | checkPolicy =>
    simp only [nextNode] at edge
    split at edge <;> cases edge
  | _ => cases edge

/-- So does a run of the graph, with the evidence reported after it. -/
theorem walked_stands (unary : svc.streaming = false) {node : Node} {o : Except Raised Bool}
    (h : Walked svc node s t o s') (atEnd : o = .ok true) (past : node ≠ .processInput) {q : Run}
    (evidence : ∀ ev ∈ q, ∃ record, ev.op = .evidence record) {history : List Edit}
    (stands : Stands s history) : Stands s' (history ++ edits (t ++ q)) := by
  have quiet : ∀ ev ∈ q, ev.op.isDispatch = false := by
    intro ev mem
    obtain ⟨record, is⟩ := evidence ev mem
    rw [is]
    rfl
  induction h generalizing history with
  | limit => cases atEnd
  | refused => cases atEnd
  | raised => cases atEnd
  | last visit end_ =>
    rw [edits, visits_end visit quiet, List.flatMap_singleton, callEdits_evidence _ evidence]
    exact visit_stands unary past visit stands
  | next visit edge rest ih =>
    subst atEnd
    rw [edits, visits_next visit rest, List.flatMap_cons, ← List.append_assoc]
    exact ih rfl (nextNode_past edge) (visit_stands unary past visit stands)

/-- The final state of a turn is that of the history of its response. -/
theorem processMessage_stands (unary : svc.streaming = false) (input : TurnInput) :
    (processMessage svc input).All () fun t o _ => ∀ final, o = .ok final →
      Stands final (edits t) := by
  refine (processMessage_walked svc input).mono fun t o _ step final ended => ?_
  obtain ⟨walked, reported, rfl, run, evidence⟩ := step final ended
  cases run with
  | last visit atEnd => cases atEnd
  | next visit edge rest =>
    have start : (processInput : Action AgentState Unit).All input.state fun t _ s' =>
      t = [] ∧ s' = { input.state with context := {} } := ⟨rfl, rfl⟩
    obtain ⟨rfl, rfl⟩ := Coro.all_iff.mp start _ _ _ visit
    rw [edits, visits_next visit rest, List.flatMap_cons]
    have started : Stands { input.state with context := {} } [] := ⟨rfl, rfl, nofun⟩
    exact walked_stands unary rest rfl (nextNode_past edge) evidence started

end

/-! ## What the route stores -/

/-- The response that stands at the end of a turn; nothing, if the model wrote nothing. -/
def standing (t : Run) : Draft := (draft (edits t)).getD {}

/-- The released text is the response that stands, and what is stored as its raw form is the
output of the model that it was obtained from. Where the notice is released in the place of a
rejected response, it is stored for both. -/
def FromOne (final : AgentState) (released : Released) (d : Draft) : Prop :=
  if final.outputBlocked && final.handoffRequired then
    released.responseText = withheldNotice ∧ released.responseRaw = withheldNotice
  else released.responseText = d.text ∧ released.responseRaw = d.origin

/-- The stored contents come from one generation exactly when what the validator redacted last, if
anything, is what the model wrote last. -/
theorem stored_together_iff (svc : Service) (input : TurnInput) {t : Run} {final : AgentState}
    {released : Released} (unary : svc.streaming = false)
    (run : (processMessage svc input).Runs () t (.ok final) ())
    (returned : release final = some released) :
    FromOne final released (standing t) ↔
      ((final.outputBlocked && final.handoffRequired) = false →
        ∀ asked, lastRedacted (edits t) = some asked → lastWritten (edits t) = some asked) := by
  have stands := Coro.all_iff.mp (processMessage_stands unary input) t _ _ run final rfl
  unfold release at returned
  split at returned
  · cases returned
  · unfold FromOne
    split at returned
    · rename_i withheld
      obtain rfl := Option.some.inj returned
      rw [if_pos withheld]
      exact iff_of_true ⟨rfl, rfl⟩ fun open_ => Bool.noConfusion (open_.symm.trans withheld)
    · rename_i open_
      obtain rfl := Option.some.inj returned
      rw [if_neg open_, Bool.not_eq_true] at *
      have text : final.modelResponse.getD "" = (standing t).text := by
        rw [stands.response, standing]
        cases draft (edits t) <;> rfl
      have origin : (standing t).origin = (lastWritten (edits t)).getD "" := by
        rw [← draft_origin, standing]
        cases draft (edits t) <;> rfl
      rw [origin]
      dsimp only
      rw [stands.raw, and_iff_right text, imp_iff_right open_]
      cases last : lastRedacted (edits t) with
      | none =>
        refine iff_of_true (text.trans ?_) nofun
        rw [standing, draft_unredacted last]
        cases lastWritten (edits t) <;> rfl
      | some asked =>
        have some_ := stands.some_ asked last
        have raw : Py.orElse (some asked) (final.modelResponse.getD "") = asked := if_neg some_
        rw [raw]
        constructor
        · rintro same _ ⟨⟩
          cases written : lastWritten (edits t) with
          | none => exact absurd (by rw [same, written]; rfl) some_
          | some content => rw [same, written, Option.getD_some]
        · intro same
          rw [same asked rfl, Option.getD_some]

/-- A tenant whose policy sends one text back to the model and lets every other pass. -/
def redacting : Service where
  tenantId := "acme"
  hasValidator := true
  policySet := { rules := [
    { action := .redact, conditions := [("response", .text "My pin is [x].")], priority := 1 },
    { action := .allow }] }

/-- The model gives a pin away first and is asked again; the validator redacts pins. -/
def givingAway (n : Nat) : (op : Op) → Except Raised (Calls.Ans op)
  | .generate _ => .ok {
      content := if n < 10 then "My pin is 1." else "How can I help?"
      model := "gpt-4", provider := "openai" }
  | .validate text => .ok (if text = "My pin is 1." then { redactedText := some "My pin is [x]." } else {})
  | op => scripted "" [] unfaithful op

/-- What is released comes from the second reply, and the raw form that is stored from the first. -/
def storesApart (w : Run × Except Raised AgentState × Unit) : Bool :=
  match w with
  | (t, .ok final, _) => !(final.outputBlocked && final.handoffRequired) &&
      (standing t).origin == "How can I help?" &&
      (release final).any fun released => released.responseRaw == "My pin is 1."
  | _ => false

theorem apart_run : ∃ (t : Run) (final : AgentState) (released : Released),
    (processMessage redacting {}).Runs () t (.ok final) () ∧ release final = some released ∧
    ¬ FromOne final released (standing t) := by
  have run := Tree.runs_run givingAway 0 (processMessage redacting {} ())
  have stored : storesApart (Tree.run givingAway 0 (processMessage redacting {} ())) = true := by
    decide +kernel
  generalize Tree.run givingAway 0 (processMessage redacting {} ()) = w at run stored
  obtain ⟨t, o, ⟨⟩⟩ := w
  cases o with
  | error e => cases stored
  | ok final =>
    simp only [storesApart, Bool.and_eq_true, Bool.not_eq_true', beq_iff_eq] at stored
    obtain ⟨⟨open_, origin⟩, stored⟩ := stored
    obtain ⟨released, returned, raw⟩ := (Option.any_eq_true _ _).mp stored
    refine ⟨t, final, released, run, returned, ?_⟩
    rw [FromOne, open_, if_neg Bool.false_ne_true, origin, beq_iff_eq.mp raw]
    exact fun same => absurd same.2 (by decide)

/-- A reply that was redacted stays stored as the raw form of the reply that replaced it. -/
theorem replaced_reply_stored : ¬ ∀ (svc : Service) (input : TurnInput) (t : Run)
    (final : AgentState) (released : Released), svc.streaming = false →
    (processMessage svc input).Runs () t (.ok final) () → release final = some released →
    FromOne final released (standing t) := by
  intro claim
  obtain ⟨t, final, released, run, returned, apart⟩ := apart_run
  exact apart (claim redacting {} t final released rfl run returned)

theorem stored_together_iff_replaced : ∃ (t : Run) (final : AgentState) (released : Released),
    (processMessage redacting {}).Runs () t (.ok final) () ∧ release final = some released ∧
    (FromOne final released (standing t) ↔
      ((final.outputBlocked && final.handoffRequired) = false →
        ∀ asked, lastRedacted (edits t) = some asked → lastWritten (edits t) = some asked)) := by
  obtain ⟨t, final, released, run, returned, -⟩ := apart_run
  exact ⟨t, final, released, run, returned, stored_together_iff redacting {} rfl run returned⟩

end AgentStudio.Orchestration.Provenance
