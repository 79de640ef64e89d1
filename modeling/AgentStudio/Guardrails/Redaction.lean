import AgentStudio.Guardrails.Orchestrator

/-!
# Redaction of the output

`modules/guardrails/pii_engine.py` with `infrastructure/patterns/retry.py`, and `evaluate_output`.
The two engines of Presidio are parameters: any of their calls may give a result or raise. What the
engine returns after a failure is what it returns where there is nothing to redact.
-/

namespace AgentStudio.Guardrails

/-- How a call raises: with an exception that is tried again (`ConnectionError`, `TimeoutError`,
`OSError`), with another, or cancelled, which is no `Exception`. -/
inductive Failure where
  | retryable (text : String)
  | other (text : String)
  | cancelled
  deriving DecidableEq

/-- A `RecognizerResult`. -/
structure Span where
  entityType : String
  start : Nat
  stop : Nat
  score : ℚ
  deriving DecidableEq

/-- What `detect_pii` lists. -/
structure Detection extends Span where
  text : String
  deriving DecidableEq

/-- What a call of `analyze` gives: it raises, or gives something to await or a list at once. -/
inductive Called where
  | raised (e : Failure)
  | awaitable (outcome : Except Failure (List Span))
  | value (spans : List Span)

/-- `await`; a list is nothing to await. -/
def Called.awaited : Called → Except Failure (List Span)
  | raised e => .error e
  | awaitable outcome => outcome
  | value _ => .error (.other "object list can't be used in 'await' expression")

/-- `analyze` of a text at each attempt, for the entities and the threshold of the engine; a
cancellation between two attempts counts as the later one. -/
abbrev Analyzer := (attempt : Nat) → (text : String) → (enabledEntities : List String) →
  (scoreThreshold : ℚ) → Called

/-- The imports, the arguments and the call of `anonymize`. -/
abbrev Anonymizer := (text : String) → List Span → (anonymizeAction : String) →
  Except Failure String

/-- `retry_async`: the attempts that are left, and the number of the next. -/
def retryAsync {α : Type} (maxAttempts : Nat) (fn : Nat → Except Failure α) :
    Nat → Nat → Except Failure α
  | 0, _ => .error (.other ("Retry exhausted after " ++ toString maxAttempts ++ " attempts: None"))
  | left + 1, attempt =>
    match fn attempt with
    | .ok a => .ok a
    | .error (.retryable text) =>
      if left = 0 then
        .error (.other ("Retry exhausted after " ++ toString maxAttempts ++ " attempts: " ++ text))
      else retryAsync maxAttempts fn left (attempt + 1)
    | .error e => .error e

/-- `PIIEnhancementEngine`. -/
structure PiiEngine where
  enabledEntities : List String :=
    ["PERSON", "EMAIL_ADDRESS", "PHONE_NUMBER", "CREDIT_CARD", "US_SSN", "LOCATION", "DATE_TIME"]
  scoreThreshold : ℚ := 1 / 2
  anonymizeAction : String := "redact"
  analyzer : Option Analyzer := none
  anonymizer : Option Anonymizer := none

namespace PiiEngine

variable (engine : PiiEngine) (text : String)

/-- `_do_initialize`, when the import and the two constructors come out so. -/
def doInitialize (imported : Except Failure Unit) (analyzer : Except Failure Analyzer)
    (anonymizer : Except Failure Anonymizer) : PiiEngine :=
  match imported, analyzer, anonymizer with
  | .ok _, .ok analyzer, .ok anonymizer =>
    { engine with analyzer := some analyzer, anonymizer := some anonymizer }
  | _, _, _ => { engine with analyzer := none, anonymizer := none }

/-- An attempt of an analyzer, awaited. -/
def analyze (analyzer : Analyzer) (attempt : Nat) : Except Failure (List Span) :=
  (analyzer attempt text engine.enabledEntities engine.scoreThreshold).awaited

def detection (span : Span) : Detection where
  toSpan := span
  text := String.ofList ((text.toList.take span.stop).drop span.start)

/-- `detect_pii`. -/
def detectPii : Except Failure (List Detection) :=
  match engine.analyzer with
  | none => .error (.other ("Guardrail engine '" ++ GuardrailLayer.piiRedaction.name ++
      "' failed: Presidio is unavailable; PII detection cannot run (fail-closed)."))
  | some analyzer =>
    match retryAsync 2 (engine.analyze text analyzer) 2 0 with
    | .ok spans => .ok (spans.map (detection text))
    | .error .cancelled => .error .cancelled
    | .error _ => .ok []

/-- `redact_pii`. -/
def redactPii : Except Failure (String × List Detection) := do
  let detections ← engine.detectPii text
  if detections = [] then pure (text, detections)
  else
    match engine.anonymizer with
    | none => pure (text, detections)
    | some anonymizer =>
      match anonymizer text (detections.map Detection.toSpan) engine.anonymizeAction with
      | .ok anonymized => pure (anonymized, detections)
      | .error .cancelled => .error .cancelled
      | .error _ => pure (text, detections)

end PiiEngine

/-- The decisions of `evaluate_output`. -/
inductive OutputDecision where
  | allow | reask
  deriving DecidableEq

structure OutputResult where
  allowed : Bool
  decision : OutputDecision
  layerResults : List (GuardrailLayer × SafetyCheckResult)
  violations : List SafetyViolation
  redactedText : Option String
  deriving DecidableEq

/-- The result of `evaluate_output`, of the check against the schema and what `redact_pii` gave. -/
def OutputResult.conclude (checked : Option SafetyCheckResult) (modelOutput : String)
    (redacted : String × List Detection) : OutputResult :=
  let failed := checked.any fun check => !check.passed
  let decision := if failed then .reask else .allow
  { allowed := decision = .allow
    decision := decision
    layerResults := (checked.map fun check => (.guardrailsAi, check)).toList ++
      if redacted.2 = [] then [] else [(.piiRedaction, { passed := true })]
    violations := if failed then (checked.map SafetyCheckResult.violations).getD [] else []
    redactedText := if redacted.1 ≠ modelOutput then some redacted.1 else none }

/-- `evaluate_output`; the schema is checked when there is one. -/
def evaluateOutput (schema : Option (Except Failure SafetyCheckResult)) (pii : Option PiiEngine)
    (modelOutput : String) : Except Failure OutputResult := do
  let checked ← schema.elim (pure none) (·.map some)
  let redacted ← pii.elim (pure (modelOutput, [])) (·.redactPii modelOutput)
  pure (.conclude checked modelOutput redacted)

/-! ## The last attempt -/

section Retry

variable {α : Type} {maxAttempts : Nat} {fn : Nat → Except Failure α} {n m : Nat}

/-- The last attempt that is made. -/
structure Last (maxAttempts : Nat) (fn : Nat → Except Failure α) (attempt : Nat) : Prop where
  made : attempt < maxAttempts
  again : ∀ earlier < attempt, ∃ text, fn earlier = .error (.retryable text)
  ends : ∀ text, fn attempt = .error (.retryable text) → attempt + 1 = maxAttempts

theorem exists_last (fn : Nat → Except Failure α) (some_ : 0 < maxAttempts) :
    ∃ n, Last maxAttempts fn n := by
  classical
  have ends : ∃ n, n + 1 = maxAttempts ∨ ¬ ∃ text, fn n = .error (.retryable text) :=
    ⟨maxAttempts - 1, .inl (by omega)⟩
  refine ⟨Nat.find ends, ?_, fun earlier before => ?_, fun text is => ?_⟩
  · have := Nat.find_min' ends (m := maxAttempts - 1) (.inl (by omega))
    omega
  · by_contra not_again
    exact Nat.find_min ends before (.inr not_again)
  · exact (Nat.find_spec ends).resolve_right fun not_again => not_again ⟨text, is⟩

theorem Last.unique (n_last : Last maxAttempts fn n) (m_last : Last maxAttempts fn m) : n = m := by
  rcases lt_trichotomy n m with before | same | after
  · obtain ⟨text, is⟩ := m_last.again n before
    have := n_last.ends text is
    have := m_last.made
    omega
  · exact same
  · obtain ⟨text, is⟩ := n_last.again m after
    have := m_last.ends text is
    have := n_last.made
    omega

/-- What the last attempt gave, and where it was to be tried again that no more is tried. -/
theorem retryAsync_of_last (last : Last maxAttempts fn n) :
    retryAsync maxAttempts fn maxAttempts 0 =
      match fn n with
      | .error (.retryable text) => .error (.other
          ("Retry exhausted after " ++ toString maxAttempts ++ " attempts: " ++ text))
      | outcome => outcome := by
  suffices step : ∀ left attempt, attempt + left = maxAttempts → attempt ≤ n →
      retryAsync maxAttempts fn left attempt =
        match fn n with
        | .error (.retryable text) => .error (.other
            ("Retry exhausted after " ++ toString maxAttempts ++ " attempts: " ++ text))
        | outcome => outcome from step maxAttempts 0 (Nat.zero_add _) (Nat.zero_le n)
  intro left
  induction left with
  | zero =>
    intro attempt all within
    have := last.made
    omega
  | succ left ih =>
    intro attempt all within
    rw [retryAsync]
    rcases within.lt_or_eq with before | rfl
    · obtain ⟨text, is⟩ := last.again attempt before
      have more : left ≠ 0 := by
        have := last.made
        omega
      rw [is]
      simp only [if_neg more]
      exact ih (attempt + 1) (by omega) before
    · cases is : fn attempt with
      | ok a => rfl
      | error e =>
        cases e with
        | retryable text =>
          have none_ : left = 0 := by
            have := last.ends text is
            omega
          simp only [if_pos none_]
        | other text => rfl
        | cancelled => rfl

end Retry

/-! ## Failing closed -/

namespace PiiEngine

section

variable (engine : PiiEngine) (text : String)

/-- The last attempt of the analyzer ends so. -/
def Ends (analyzer : Analyzer) (outcome : Except Failure (List Span)) : Prop :=
  ∃ n, Last 2 (engine.analyze text analyzer) n ∧ engine.analyze text analyzer n = outcome

/-- The text was analysed, and with every span that was found replaced it is `out`. -/
def Redacted (out : String) : Prop :=
  ∃ analyzer spans, engine.analyzer = some analyzer ∧ engine.Ends text analyzer (.ok spans) ∧
    if spans = [] then out = text
    else ∃ anonymizer, engine.anonymizer = some anonymizer ∧
      anonymizer text spans engine.anonymizeAction = .ok out

/-- What `redact_pii` returns is redacted, and so is what `evaluate_output` allows. -/
def FailClosed : Prop :=
  (∀ out detections, engine.redactPii text = .ok (out, detections) → engine.Redacted text out) ∧
  ∀ schema result, evaluateOutput schema (some engine) text = .ok result → result.allowed = true →
    engine.Redacted text (result.redactedText.getD text)

/-- A loaded analyzer does not raise at its last attempt, and a loaded anonymizer does not where
spans were found; but either may be cancelled. -/
def Holds : Prop :=
  ∀ analyzer, engine.analyzer = some analyzer →
    (∀ e, engine.Ends text analyzer (.error e) → e = .cancelled) ∧
    ∀ spans, engine.Ends text analyzer (.ok spans) → spans ≠ [] →
      ∃ anonymizer, engine.anonymizer = some anonymizer ∧
        ∀ e, anonymizer text spans engine.anonymizeAction = .error e → e = .cancelled

end

variable {engine : PiiEngine} {text out : String}

theorem Ends.unique {analyzer : Analyzer} {outcome outcome' : Except Failure (List Span)}
    (ends : engine.Ends text analyzer outcome) (ends' : engine.Ends text analyzer outcome') :
    outcome = outcome' := by
  obtain ⟨n, last, rfl⟩ := ends
  obtain ⟨m, last', rfl⟩ := ends'
  rw [last.unique last']

theorem exists_ends (engine : PiiEngine) (text : String) (analyzer : Analyzer) :
    ∃ outcome, engine.Ends text analyzer outcome := by
  obtain ⟨n, last⟩ := exists_last (engine.analyze text analyzer) Nat.two_pos
  exact ⟨_, n, last, rfl⟩

variable (text) in
theorem redactPii_unavailable (unavailable : engine.analyzer = none) :
    ∃ e, engine.redactPii text = .error e := by
  rw [redactPii, detectPii, unavailable]
  exact ⟨_, rfl⟩

section Loaded

variable {analyzer : Analyzer} (loaded : engine.analyzer = some analyzer)
include loaded

theorem redactPii_cancelled (ends : engine.Ends text analyzer (.error .cancelled)) :
    engine.redactPii text = .error .cancelled := by
  obtain ⟨n, last, is⟩ := ends
  rw [redactPii, detectPii, loaded]
  simp only [retryAsync_of_last last, is]
  rfl

/-- A text that could not be analysed is returned as it is. -/
theorem redactPii_raised {e : Failure} (ends : engine.Ends text analyzer (.error e))
    (exception : e ≠ .cancelled) : engine.redactPii text = .ok (text, []) := by
  obtain ⟨n, last, is⟩ := ends
  rw [redactPii, detectPii, loaded]
  cases e with
  | retryable message => simp only [retryAsync_of_last last, is]; rfl
  | other message => simp only [retryAsync_of_last last, is]; rfl
  | cancelled => exact absurd rfl exception

theorem detectPii_found {spans : List Span} (ends : engine.Ends text analyzer (.ok spans)) :
    engine.detectPii text = .ok (spans.map (detection text)) := by
  obtain ⟨n, last, is⟩ := ends
  rw [detectPii, loaded]
  simp only [retryAsync_of_last last, is]

theorem redactPii_nothing (ends : engine.Ends text analyzer (.ok [])) :
    engine.redactPii text = .ok (text, []) := by
  rw [redactPii, detectPii_found loaded ends]
  rfl

/-- The anonymizer is given the spans that were found. -/
theorem redactPii_found {spans : List Span} (ends : engine.Ends text analyzer (.ok spans))
    (some_ : spans ≠ []) : engine.redactPii text =
      match engine.anonymizer with
      | none => .ok (text, spans.map (detection text))
      | some anonymizer =>
        match anonymizer text spans engine.anonymizeAction with
        | .ok anonymized => .ok (anonymized, spans.map (detection text))
        | .error .cancelled => .error .cancelled
        | .error _ => .ok (text, spans.map (detection text)) := by
  have given : (spans.map (detection text)).map Detection.toSpan = spans := by
    rw [List.map_map]
    exact List.map_id spans
  rw [redactPii, detectPii_found loaded ends]
  change (if spans.map (detection text) = [] then _ else _) = _
  rw [if_neg (mt List.map_eq_nil_iff.mp some_), given]
  rfl

end Loaded

theorem redacted_of_holds (holds : engine.Holds text) {detections : List Detection}
    (returned : engine.redactPii text = .ok (out, detections)) : engine.Redacted text out := by
  cases loaded : engine.analyzer with
  | none =>
    obtain ⟨e, raised⟩ := redactPii_unavailable text loaded
    rw [raised] at returned
    cases returned
  | some analyzer =>
    obtain ⟨no_exception, replaces⟩ := holds analyzer loaded
    obtain ⟨outcome, ends⟩ := exists_ends engine text analyzer
    cases outcome with
    | error e =>
      obtain rfl := no_exception e ends
      rw [redactPii_cancelled loaded ends] at returned
      cases returned
    | ok spans =>
      refine ⟨analyzer, spans, loaded, ends, ?_⟩
      split
      · rename_i none_
        rw [none_] at ends
        rw [redactPii_nothing loaded ends] at returned
        cases returned
        rfl
      · rename_i some_
        obtain ⟨anonymizer, available, only⟩ := replaces spans ends some_
        refine ⟨anonymizer, available, ?_⟩
        rw [redactPii_found loaded ends some_, available] at returned
        cases is : anonymizer text spans engine.anonymizeAction with
        | ok anonymized =>
          simp only [is] at returned
          cases returned
          rfl
        | error e =>
          obtain rfl := only e is
          simp only [is] at returned
          cases returned

theorem holds_of_redacted (redacted : ∀ out detections,
    engine.redactPii text = .ok (out, detections) → engine.Redacted text out) :
    engine.Holds text := by
  intro analyzer loaded
  refine ⟨fun e ends => ?_, fun spans ends some_ => ?_⟩
  · by_contra exception
    obtain ⟨analyzer', spans, loaded', ends', -⟩ :=
      redacted text [] (redactPii_raised loaded ends exception)
    obtain rfl := Option.some.inj (loaded.symm.trans loaded')
    cases ends.unique ends'
  · -- where the anonymizer gives nothing the text is returned, which it has not given
    have result := redactPii_found loaded ends some_
    have replaced {out : String} {detections : List Detection}
        (returned : engine.redactPii text = .ok (out, detections)) :
        ∃ anonymizer, engine.anonymizer = some anonymizer ∧
          anonymizer text spans engine.anonymizeAction = .ok out := by
      obtain ⟨analyzer', spans', loaded', ends', made⟩ := redacted out detections returned
      obtain rfl := Option.some.inj (loaded.symm.trans loaded')
      obtain rfl := Except.ok.inj (ends.unique ends')
      rwa [if_neg some_] at made
    cases available : engine.anonymizer with
    | none =>
      rw [available] at result
      obtain ⟨anonymizer, available', -⟩ := replaced result
      rw [available] at available'
      cases available'
    | some anonymizer =>
      refine ⟨anonymizer, rfl, fun e is => ?_⟩
      by_contra exception
      have same : engine.redactPii text = .ok (text, spans.map (detection text)) := by
        rw [result, available]
        cases e with
        | retryable message => simp only [is]
        | other message => simp only [is]
        | cancelled => exact absurd rfl exception
      obtain ⟨anonymizer', available', made⟩ := replaced same
      obtain rfl := Option.some.inj (available.symm.trans available')
      rw [is] at made
      cases made

theorem conclude_redactedText (checked : Option SafetyCheckResult)
    (redacted : String × List Detection) :
    (OutputResult.conclude checked text redacted).redactedText.getD text = redacted.1 := by
  change (if redacted.1 ≠ text then some redacted.1 else none).getD text = redacted.1
  split
  · rfl
  · rename_i same
    exact (not_not.mp same).symm

theorem of_bind_ok {α β : Type} {x : Except Failure α} {f : α → Except Failure β} {b : β}
    (ok : (x >>= f) = .ok b) : ∃ a, x = .ok a ∧ f a = .ok b := by
  cases x with
  | error e => cases ok
  | ok a => exact ⟨a, rfl, ok⟩

/-- What `evaluate_output` returns is what `redact_pii` does. -/
theorem evaluateOutput_ok {schema : Option (Except Failure SafetyCheckResult)}
    {result : OutputResult} (ok : evaluateOutput schema (some engine) text = .ok result) :
    ∃ detections, engine.redactPii text = .ok (result.redactedText.getD text, detections) := by
  obtain ⟨checked, -, rest⟩ := of_bind_ok ok
  obtain ⟨redacted, returned, concluded⟩ := of_bind_ok rest
  obtain rfl := Except.ok.inj concluded
  refine ⟨redacted.2, returned.trans ?_⟩
  rw [conclude_redactedText]

/-- The engine fails closed exactly if no exception is raised that it handles. -/
theorem failClosed_iff (engine : PiiEngine) (text : String) :
    engine.FailClosed text ↔ engine.Holds text := by
  constructor
  · intro closed
    exact holds_of_redacted closed.1
  · intro holds
    refine ⟨fun out detections returned => redacted_of_holds holds returned,
      fun schema result ok _ => ?_⟩
    obtain ⟨detections, returned⟩ := evaluateOutput_ok ok
    exact redacted_of_holds holds returned

/-- An analyzer without its model. -/
def unloaded : Analyzer := fun _ _ _ _ => .raised (.other "Can't find model 'en_core_web_lg'")

/-- A text that was not analysed is returned as it is. -/
theorem unanalysed : ¬ ∀ (engine : PiiEngine) (text : String), engine.FailClosed text := by
  intro closed
  let engine : PiiEngine := {
    analyzer := some unloaded, anonymizer := some fun _ _ _ => .ok "Call <redacted>." }
  have ends : engine.Ends "Call 555-0100." unloaded
      (.error (.other "Can't find model 'en_core_web_lg'")) :=
    ⟨0, ⟨Nat.two_pos, fun _ before => absurd before (Nat.not_lt_zero _), fun _ is => by cases is⟩,
      rfl⟩
  have returned : engine.redactPii "Call 555-0100." = .ok ("Call 555-0100.", []) :=
    redactPii_raised rfl ends nofun
  obtain ⟨analyzer, spans, loaded, ends', -⟩ := (closed engine "Call 555-0100.").1 _ _ returned
  obtain rfl := Option.some.inj loaded
  cases ends.unique ends'

end PiiEngine

end AgentStudio.Guardrails
