import AgentStudio.Gateway.Classified
import AgentStudio.Gateway.Parity
import AgentStudio.Orchestration.Nodes
import AgentStudio.Py.Infix

/-!
# When a provider overflow is recognised

The gateway classifies the text of a provider's exception, and the service looks for its own markers
in the text of the exception that the gateway makes of it, which names the provider and the model
too and in a stream comes as an event.

* `marked_exhausted`: in which parts of that text a marker is found;
* `asks_iff`: the recovery is begun exactly if a marker is found;
* `overflow_iff`: when that agrees with the class.
-/

namespace AgentStudio.Orchestration.Overflow

open Async Gateway

/-! ## The text of an exhausted chain -/

/-- What `_is_provider_overflow` says of a text. -/
def Marked (text : String) : Prop := overflowMarkers.any (Py.contains (Py.lower text)) = true

/-- The marker that `_is_provider_overflow` does not know. -/
def TooMany (text : String) : Prop := Py.contains (Py.lower text) "too many tokens" = true

theorem contextWindow_iff (text : String) :
    classifyFailure text = .contextWindow ↔ Marked text ∨ TooMany text := by
  have more : contextWindowMarkers = overflowMarkers ++ ["too many tokens"] := rfl
  rw [Marked, TooMany, classifyFailure, more, List.any_append]
  simp only [List.any_cons, List.any_nil, Bool.or_false]
  split
  · rename_i found
    exact iff_of_true rfl (Bool.or_eq_true _ _ ▸ found)
  · rename_i none_
    rw [Bool.or_eq_true] at none_
    split
    · exact iff_of_false nofun none_
    · exact iff_of_false nofun none_

/-- The characters of a text in lower case. -/
def letters (text : String) : List Char := text.toList.flatMap Py.lowerChar

theorem letters_append (s t : String) : letters (s ++ t) = letters s ++ letters t := by
  rw [letters, letters, letters, String.toList_append, List.flatMap_append]

theorem marked_iff {text : String} :
    Marked text ↔ ∃ marker ∈ overflowMarkers, marker.toList <:+: letters text := by
  rw [Marked, List.any_eq_true]
  refine exists_congr fun marker => and_congr_right fun _ => ?_
  rw [Py.contains_iff, Py.lower, String.toList_ofList, letters]

/-- A marker has none of the characters that end the parts of the text, does not reach from a name
into what follows it, and is in none of the parts that are not names. -/
structure Plain (w : List Char) : Prop where
  some_ : w ≠ []
  letter : 'o' ∈ w
  equals : '=' ∉ w
  colon : ':' ∉ w
  blank : ¬ [' '] <+: w
  start : ¬ w <:+: letters "llm_chain_exhausted provider"
  model : Py.Apart w (letters " model") ∧ ¬ w <:+: letters " model"
  class_ : Py.Apart w (letters " class") ∧ ¬ w <:+: letters " class"
  name : ∀ failureClass ∈ [FailureClass.general, .contentPolicy, .contextWindow],
    ¬ w <:+: letters failureClass.name ++ letters " attempts"

theorem plain {marker : String} (mem : marker ∈ overflowMarkers) : Plain marker.toList where
  some_ := by revert marker; decide
  letter := by revert marker; decide
  equals := by revert marker; decide
  colon := by revert marker; decide
  blank := by revert marker; decide
  start := by revert marker; decide
  model := by revert marker; decide
  class_ := by revert marker; decide
  name := by revert marker; decide

theorem not_letter_digit {c : Char} (digit : c.isDigit = true) : 'o' ∉ Py.lowerChar c := by
  rw [Char.isDigit_iff_toNat] at digit
  obtain ⟨low, high⟩ := digit
  rw [← Char.ofNat_toNat c]
  generalize c.toNat = k at low high
  change 48 ≤ k at low
  change k ≤ 57 at high
  interval_cases k <;> decide

theorem not_letter_digits (n : Nat) : 'o' ∉ letters (toString n) := by
  rw [letters, List.mem_flatMap]
  rintro ⟨c, mem, letter⟩
  have digits : (toString n).toList = Nat.toDigits 10 n := by
    rw [Nat.toString_eq_ofList_toDigits, String.toList_ofList]
  rw [digits] at mem
  exact not_letter_digit (Nat.isDigit_of_mem_toDigits (by decide) (by decide) mem) letter

/-- The parts of the text, each with the character that ends it. -/
theorem letters_exhausted (provider model reason : String) (failureClass : FailureClass) (n : Nat) :
    letters (Raised.chainExhausted provider model reason failureClass n).text =
      letters "llm_chain_exhausted provider" ++ '=' ::
        ((letters provider ++ letters " model") ++ '=' ::
          ((letters model ++ letters " class") ++ '=' ::
            ((letters failureClass.name ++ letters " attempts") ++ '=' ::
              (letters (toString n) ++ ':' :: ([' '] ++ letters reason))))) := by
  have provider_ : letters "llm_chain_exhausted provider=" =
      letters "llm_chain_exhausted provider" ++ ['='] := by decide
  have model_ : letters " model=" = letters " model" ++ ['='] := by decide
  have class_ : letters " class=" = letters " class" ++ ['='] := by decide
  have attempts_ : letters " attempts=" = letters " attempts" ++ ['='] := by decide
  have reason_ : letters ": " = [':', ' '] := by decide
  unfold Raised.text
  simp only [letters_append, provider_, model_, class_, attempts_, reason_, List.append_assoc,
    List.cons_append, List.nil_append]

/-- A marker is in a part of the text that is a name or the reason. -/
theorem Plain.infix_iff {w : List Char} (plain : Plain w) (provider model reason : String)
    (failureClass : FailureClass) (n : Nat) :
    w <:+: letters (Raised.chainExhausted provider model reason failureClass n).text ↔
      (w <:+: letters provider ∨ w <:+: letters model) ∨ w <:+: letters reason := by
  have digits : ¬ w <:+: letters (toString n) := fun within =>
    not_letter_digits n (within.subset plain.letter)
  have name : ¬ w <:+: letters failureClass.name ++ letters " attempts" :=
    plain.name failureClass (by cases failureClass <;> decide)
  have blank : ¬ w <+: [' '] ++ letters reason := by
    intro first_
    obtain ⟨a, rest, is⟩ := List.exists_cons_of_ne_nil plain.some_
    rw [is] at first_
    obtain ⟨rfl, -⟩ := List.cons_prefix_cons.mp first_
    exact plain.blank (is ▸ ⟨rest, rfl⟩)
  have tail : w <:+: [' '] ++ letters reason ↔ w <:+: letters reason := by
    rw [List.singleton_append, List.infix_cons_iff]
    exact or_iff_right blank
  rw [letters_exhausted, Py.infix_append_cons_iff plain.some_ plain.equals,
    Py.infix_append_cons_iff plain.some_ plain.equals,
    Py.infix_append_cons_iff plain.some_ plain.equals,
    Py.infix_append_cons_iff plain.some_ plain.equals,
    Py.infix_append_cons_iff plain.some_ plain.colon,
    Py.infix_append_iff plain.model.1, Py.infix_append_iff plain.class_.1, tail,
    or_iff_right plain.start, or_iff_left plain.model.2, or_iff_left plain.class_.2,
    or_iff_right name, or_iff_right digits, or_assoc]

theorem marked_exhausted (provider model reason : String) (failureClass : FailureClass) (n : Nat) :
    Marked (Raised.chainExhausted provider model reason failureClass n).text ↔
      (Marked provider ∨ Marked model) ∨ Marked reason := by
  simp only [marked_iff]
  constructor
  · rintro ⟨marker, mem, within⟩
    rw [(plain mem).infix_iff] at within
    exact within.imp (.imp (⟨marker, mem, ·⟩) (⟨marker, mem, ·⟩)) (⟨marker, mem, ·⟩)
  · intro found
    have each {text : String} (part : ∃ marker ∈ overflowMarkers, marker.toList <:+: letters text)
        (there : ∀ marker ∈ overflowMarkers, marker.toList <:+: letters text →
          marker.toList <:+:
            letters (Raised.chainExhausted provider model reason failureClass n).text) :
        ∃ marker ∈ overflowMarkers, marker.toList <:+:
          letters (Raised.chainExhausted provider model reason failureClass n).text :=
      part.imp fun marker both => ⟨both.1, there marker both.1 both.2⟩
    rcases found with (inProvider | inModel) | inReason
    · exact each inProvider fun marker mem within => ((plain mem).infix_iff ..).mpr (.inl (.inl within))
    · exact each inModel fun marker mem within => ((plain mem).infix_iff ..).mpr (.inl (.inr within))
    · exact each inReason fun marker mem within => ((plain mem).infix_iff ..).mpr (.inr within)

/-! ## The recovery -/

/-- The event that `_stream_impl` reports an exhausted chain with. -/
def reported (e : Raised) (failureClass : FailureClass) : StreamEvent :=
  { type := .error, error := e.text, failureClass := failureClass.name }

/-- The hook has not been asked, and nothing was passed on. -/
structure Ready (svc : Service) (v : GenVars) : Prop where
  hook : svc.hasCompaction = true
  compacted : v.compacted = false
  emitted : v.streamEmitted = false

variable (svc : Service) (request : Request) (assembled : Assembled)
  (env : (op : Op) → Except Raised (Calls.Ans op)) (v : GenVars)

/-- The gateway's reply to the model call: the exception, or a stream of its event. -/
def Replies (e : Raised) (failureClass : FailureClass) : Prop :=
  if svc.streaming then env (.stream request) = .ok (.events [reported e failureClass] none)
  else env (.generate request) = .error e

/-- A question to the compaction hook. -/
def asked (ev : Event Calls Raised) : Option CompactArgs :=
  match ev.op with
  | .compact args => some args
  | _ => none

/-- The model call asks the compaction hook. -/
def Recovers : Prop :=
  ((callOrRecover svc request assembled).traceWith env v).filterMap asked ≠ []

variable {svc request assembled env v} {e : Raised} {failureClass : FailureClass}

variable (failureClass) in
/-- What the service makes of the event has the text of the exception. -/
theorem streamError_reported (said : e.text ≠ "") :
    ∃ kind, streamError (reported e failureClass) = .gatewayError e.text kind := by
  have other : (reported e failureClass).failureClass ≠ some "chain_exhausted" := by
    change some failureClass.name ≠ some "chain_exhausted"
    cases failureClass <;> decide
  refine ⟨Py.orElse (reported e failureClass).failureClass "general", ?_⟩
  rw [streamError, if_neg other]
  congr
  exact if_neg said

theorem callGateway_shows (replies : Replies svc request env e failureClass) (said : e.text ≠ "")
    (exception : e.isException = true) : ∃ e', e'.text = e.text ∧ e'.isException = true ∧
      (callGateway svc request).Shows env asked v [] (.error e') v := by
  unfold callGateway
  rw [Replies] at replies
  split at replies
  · rename_i streaming
    obtain ⟨kind, raised⟩ := streamError_reported failureClass said
    refine ⟨.gatewayError e.text kind, rfl, rfl, ?_⟩
    rw [if_pos streaming]
    have forwarded : (forward [reported e failureClass] {}).Shows env asked v []
        (.error (.gatewayError e.text kind)) v := by
      rw [← raised]
      exact .throw _
    refine Coro.Shows.tryCatch_quiet (e := .gatewayError e.text kind) ?_ (.throw _)
    exact (Coro.Shows.unseen replies rfl).quiet_bind forwarded.bind_error
  · rename_i plain
    refine ⟨e, rfl, exception, ?_⟩
    rw [if_neg plain]
    exact .unseen replies rfl

variable (assembled env) in
theorem compactWith_asks (overflow : Bool) : ∃ args o v',
    (compactWith (some assembled) overflow).Shows env asked v [args] o v' := by
  let args : CompactArgs := {
    estimatedTokens := some assembled.totalTokens
    budgetTokens := some assembled.budgetTokens
    hasSummary := v.state.summary.summary.isSome
    overflow := overflow }
  have called {r : Except Raised (Option Summary)} (answer : env (.compact args) = r) :
      (Coro.call (I := Calls) (.compact args)).Shows env asked v [args] r v := .call answer
  unfold compactWith
  cases answer : env (.compact args) with
  | error e => exact ⟨args, _, _, .get_bind (called answer).bind_error⟩
  | ok checkpoint =>
    cases checkpoint with
    | none => exact ⟨args, _, _, .get_bind ((called answer).bind_quiet (.pure false))⟩
    | some summary =>
      exact ⟨args, _, _, .get_bind ((called answer).bind_quiet (.modify_bind (.pure true)))⟩

/-- The hook is asked exactly if a marker is found in the exception's text. -/
theorem asks_iff (ready : Ready svc v) (replies : Replies svc request env e failureClass)
    (said : e.text ≠ "") (exception : e.isException = true) :
    Recovers svc request assembled env v ↔ Marked e.text := by
  obtain ⟨e', text, exception', shown⟩ := callGateway_shows (v := v) replies said exception
  have raised : (some <$> callGateway svc request).Shows env asked v [] (.error e') v :=
    Coro.Shows.bind_error (k := fun result => pure (some result)) shown
  have condition : (e'.isException && !v.compacted && !v.streamEmitted && svc.hasCompaction &&
      isProviderOverflow e') = true ↔ Marked e.text := by
    have same : isProviderOverflow e' = true ↔ Marked e.text := text ▸ Iff.rfl
    rw [exception', ready.compacted, ready.emitted, ready.hook, ← same]
    simp only [Bool.not_false, Bool.true_and]
  by_cases marked : Marked e.text
  · obtain ⟨args, o, v', asks⟩ := compactWith_asks assembled env
      (v := { v with compacted := true }) true
    have handled {l : List CompactArgs} {o : Except Raised (Option Result)} {v' : GenVars}
        (rest : (do
          if ← compactWith (some assembled) true then pure none else throw e' :
            Action GenVars (Option Result)).Shows env asked { v with compacted := true } l o v') :
        (callOrRecover svc request assembled).Shows env asked v l o v' := by
      refine Coro.Shows.tryCatch_error raised (.get_bind ?_)
      rw [if_pos (condition.mpr marked)]
      exact .modify_bind rest
    have seen {o : Except Raised (Option Result)} {v' : GenVars}
        (whole : (callOrRecover svc request assembled).Shows env asked v [args] o v') :
        Recovers svc request assembled env v := by
      rw [Recovers, whole.1]
      exact List.cons_ne_nil _ _
    refine iff_of_true ?_ marked
    cases o with
    | error e'' => exact seen (handled asks.bind_error)
    | ok found =>
      cases found with
      | true => exact seen (handled (asks.bind_quiet (.pure none)))
      | false => exact seen (handled (asks.bind_quiet (.throw e')))
  · refine iff_of_false (not_not.mpr ?_) marked
    have whole : (callOrRecover svc request assembled).Shows env asked v [] (.error e') v := by
      refine Coro.Shows.tryCatch_quiet raised (.get_bind ?_)
      rw [if_neg (mt condition.mp marked)]
      exact .throw e'
    exact whole.1

/-! ## The two classifications -/

/-- They agree where the provider's text has a marker of the service, or else the name of the
provider or the model has one exactly if the text has the marker that the service lacks. -/
def Agree (provider model reason : String) : Prop :=
  Marked reason ∨ (Marked provider ∨ Marked model ↔ TooMany reason)

theorem agree_iff {provider model reason : String} {n : Nat} :
    (Marked (Raised.chainExhausted provider model reason failureClass n).text ↔
        classifyFailure reason = .contextWindow) ↔ Agree provider model reason := by
  rw [marked_exhausted, contextWindow_iff, Agree]
  by_cases marked : Marked reason
  · exact iff_of_true (iff_of_true (.inr marked) (.inl marked)) (.inl marked)
  · rw [or_iff_left marked, or_iff_right marked, or_iff_right marked]

theorem text_ne (provider model reason : String) (n : Nat) :
    (Raised.chainExhausted provider model reason failureClass n).text ≠ "" := by
  intro empty
  have none_ := congrArg letters empty
  rw [letters_exhausted] at none_
  exact List.append_ne_nil_of_right_ne_nil _ (List.cons_ne_nil _ _) none_

/-- The recovery after an exhausted chain agrees with the class that the gateway gave it. -/
def Faithful (svc : Service) (request : Request) (assembled : Assembled)
    (env : (op : Op) → Except Raised (Calls.Ans op)) (v : GenVars) (e : Raised) : Prop :=
  ∀ provider model reason failureClass n,
    e = .chainExhausted provider model reason failureClass n →
    Replies svc request env e failureClass →
      ((Recovers svc request assembled env v ↔ failureClass = .contextWindow) ↔
        Agree provider model reason)

theorem faithful_of_told (ready : Ready svc v) (told : Classed.Told e) :
    Faithful svc request assembled env v e := by
  rintro provider model reason failureClass n rfl replies
  have class_ : failureClass = classifyFailure reason := told
  rw [asks_iff ready replies (text_ne _ _ _ _) rfl, class_]
  exact agree_iff

/-- In every run of `generate` and of the `try` block of `_stream_impl` that ends with an exhausted
chain: the service begins its recovery exactly if the gateway has classified the last failure as
`context_window`, provided that the two agree on the texts. -/
theorem overflow_iff (gw : Gateway.Service) (asks : Request) (tenant : TenantConfig) (cfg : Cfg)
    (svc : Service) (request : Request) (assembled : Assembled)
    (env : (op : Op) → Except Raised (Calls.Ans op)) (v : GenVars) (ready : Ready svc v) :
    (generate gw asks tenant cfg).All () (fun t o _ => (∀ ev ∈ t, Classed.Fair ev) →
      ∀ e, o = .error e → Faithful svc request assembled env v e) ∧
    (streamBody gw asks tenant cfg).All {} fun t o _ => (∀ ev ∈ t, Classed.Fair ev) →
      ∀ e, o = .error e → Faithful svc request assembled env v e := by
  constructor
  · refine Coro.All.mono (Classed.classifies_generate gw asks tenant cfg () trivial)
      fun t o _ ended fair e is => ?_
    subst is
    exact faithful_of_told ready (ended fair).2
  · refine Coro.All.mono (Classed.classifies_streamBody gw asks tenant cfg {} nofun)
      fun t o _ ended fair e is => ?_
    subst is
    exact faithful_of_told ready (ended fair).2

/-- A tenant with compaction. -/
def compacting : Service := { tenantId := "acme", hasCompaction := true }

/-- A gateway whose chain is exhausted with this reason. -/
def exhaustedWith (reason : String) : (op : Op) → Except Raised (Calls.Ans op) :=
  fun _ => .error (.chainExhausted "openai" "gpt-4o" reason (classifyFailure reason) 2)

theorem compacting_ready : Ready compacting { state := {} } := ⟨rfl, rfl, rfl⟩

theorem overflow_iff_compacting :
    let env := exhaustedWith "This model's maximum context length is 8192 tokens."
    (generate oneModel twoModels { id := "acme" } {}).All () (fun t o _ =>
      (∀ ev ∈ t, Classed.Fair ev) → ∀ e, o = .error e →
        Faithful compacting twoModels { messages := [] } env { state := {} } e) ∧
    (streamBody oneModel twoModels { id := "acme" } {}).All {} fun t o _ =>
      (∀ ev ∈ t, Classed.Fair ev) → ∀ e, o = .error e →
        Faithful compacting twoModels { messages := [] } env { state := {} } e :=
  overflow_iff oneModel twoModels { id := "acme" } {} compacting twoModels { messages := [] } _
    { state := {} } compacting_ready

/-- Every provider refuses the request with this text. -/
def refusing (message : String) : Assignment where
  outcome _ := .callFails message

theorem refusing_fair {message : String} {ev : Gateway.Ev}
    (answered : ev.reply = (refusing message).answers ev.op) : Classed.Fair ev := by
  obtain ⟨op, reply⟩ := ev
  change reply = (refusing message).answers op at answered
  subst answered
  cases op <;> intro e is <;> cases is <;> trivial

/-- The chain that is exhausted with a marker that the service does not know. -/
theorem too_many_tokens : ¬ ∀ (gw : Gateway.Service) (asks : Request) (tenant : TenantConfig)
    (cfg : Cfg) (svc : Service) (request : Request) (assembled : Assembled)
    (env : (op : Op) → Except Raised (Calls.Ans op)) (v : GenVars), Ready svc v →
    (generate gw asks tenant cfg).All () fun t o _ => (∀ ev ∈ t, Classed.Fair ev) →
      ∀ provider model reason failureClass n,
        o = .error (.chainExhausted provider model reason failureClass n) →
        Replies svc request env (.chainExhausted provider model reason failureClass n)
            failureClass →
          (Recovers svc request assembled env v ↔ failureClass = .contextWindow) := by
  intro claim
  let a := refusing "Request has too many tokens."
  let run := generate oneModel twoModels { id := "acme" } {}
  have ends : (run.outcomeWith a.answers ()).1 = .error (.chainExhausted "openai" "gpt-4o"
      "Request has too many tokens." .contextWindow 2) := by
    have raised : Gateway.raisedOf (run.outcomeWith a.answers ()).1 = some (.chainExhausted "openai" "gpt-4o"
          "Request has too many tokens." .contextWindow 2) := by decide +kernel
    cases o : (run.outcomeWith a.answers ()).1 with
    | ok result =>
      rw [o] at raised
      cases raised
    | error e =>
      rw [o] at raised
      rw [Option.some.inj raised]
  have whole := Coro.all_iff.mp (claim oneModel twoModels { id := "acme" } {} compacting twoModels
    { messages := [] } (exhaustedWith "Request has too many tokens.") { state := {} }
    compacting_ready) _ _ _ (run.runs_with a.answers ())
  have replies : Replies compacting twoModels (exhaustedWith "Request has too many tokens.")
      (.chainExhausted "openai" "gpt-4o" "Request has too many tokens." .contextWindow 2)
      .contextWindow := rfl
  have recovers := (whole (fun ev mem => refusing_fair (Coro.mem_traceWith mem)) _ _ _ _ _ ends
    replies).mpr rfl
  have marked := (asks_iff compacting_ready replies (text_ne _ _ _ _) rfl).mp recovers
  rw [marked_exhausted, Marked, Marked, Marked] at marked
  exact absurd marked (by decide)

end AgentStudio.Orchestration.Overflow
